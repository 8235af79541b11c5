/-
  Depot — nodes that have just met.

  Links come up at a fresh node, and nothing else happens (`Fresh.attach`): no request
  waits, no tag is out, no link took anything.  `linked_start` is the case of some clients
  and then a link to another node.
-/
import Depot.Proofs.Pair.Faces

namespace Depot.Node

variable {σ : Type u} [Outbound σ] {c : Config} {n : Node (Recorded σ)}

/-- Links came up, and nothing else happened. -/
structure Fresh (c : Config) (n : Node (Recorded σ)) : Prop where
  coherent : Phase.Coherent ⟨n, [], []⟩
  matched : Phase.Matched ⟨n, [], []⟩
  store : n.store.Open
  tags : n.tags = TagPool.ofCapacity c.tagCapacity
  waiting : ∀ tag, n.waiting.get? tag = none
  taken : ∀ id, n.wires.takenOn id = []
  order : ∀ id l, n.links.get? id = some l → l.order = {}

theorem fresh_ofConfig (c : Config) (wires : σ) : (ofConfig c wires).recorded.Fresh c where
  coherent := Phase.Coherent.run c ({ wires } : Recorded σ) []
  matched := @Phase.Matched.run _ _ c ({ wires } : Recorded σ) [] rfl
  store _ _ hfound := absurd hfound (Option.some_ne_none _).symm
  tags := rfl
  waiting _ := rfl
  taken _ := rfl
  order _ _ hl := absurd hl (Option.some_ne_none _).symm

/-- A link that takes no other's place just comes up. -/
theorem act_attach {kind : LinkKind}
    (h : ∀ shard, kind = .dialed shard → n.peers.get? shard = none) :
    ∃ peers, n.act (.attach kind) = n.join kind peers := by
  have key : ∀ {q : Node (Recorded σ) × List (Tag × String)}, n.Entered kind q →
      ∃ peers, q.1.failAll q.2 = n.join kind peers := by
    intro q hq
    cases hq with
    | plain | alone => exact ⟨_, failAll.eq_1 _⟩
    | instead hold => cases (h _ rfl).symm.trans hold
  exact key (n.enter_cases kind)

theorem Fresh.attach (h : n.Fresh c) {kind : LinkKind} {peers : Table ShardId LinkId}
    (hact : n.act (.attach kind) = n.join kind peers) : (n.act (.attach kind)).Fresh c where
  coherent := h.coherent.act _
  matched := h.matched.act rfl h.coherent
  store := by
    rw [hact]
    exact h.store
  tags := by
    rw [hact]
    exact h.tags
  waiting := by
    rw [hact]
    exact h.waiting
  taken := by
    rw [hact]
    exact h.taken
  order id l hl := by
    rw [hact, links_join] at hl
    split at hl
    · cases hl
      rfl
    · exact h.order id l hl

omit [Outbound σ] in
/-- A node that knows only clients has no link to any shard. -/
theorem peers_of_clients (hc : Phase.Coherent ⟨n, [], []⟩)
    (hk : ∀ id kind, n.kind? id = some kind → kind = .client) (shard : ShardId) :
    n.peers.get? shard = none := by
  cases hp : n.peers.get? shard with
  | none => rfl
  | some id => cases hk id _ ((hc.peers shard id).1 hp)

theorem run_clients (c : Config) (wires : σ) (count : Nat) :
    let n := (ofConfig c wires).recorded.run (List.replicate count (.attach .client))
    n.Fresh c ∧ n.nextLink = count ∧ ∀ id kind, n.kind? id = some kind → kind = .client := by
  induction count with
  | zero => exact ⟨fresh_ofConfig c wires, rfl, nofun⟩
  | succ count ih =>
    obtain ⟨hfresh, hnext, hkinds⟩ := ih
    rw [List.replicate_succ', run_concat]
    obtain ⟨peers, hact⟩ := act_attach fun shard _ =>
      peers_of_clients hfresh.coherent hkinds shard
    refine ⟨hfresh.attach hact, ?_, fun id kind hk => ?_⟩
    · rw [hact]
      exact congrArg Nat.succ hnext
    · rcases kind?_act hk with hk | ⟨heq, -⟩
      · exact hkinds id kind hk
      · exact (Action.attach.inj heq).symm

/-- Some clients came up at a node, and then the link to another. -/
theorem linked_start (c : Config) (wires : σ) (count : Nat) (kind : LinkKind) :
    let n := (ofConfig c wires).recorded.run
      (List.replicate count (.attach .client) ++ [.attach kind])
    n.Fresh c ∧ n.Faces count kind := by
  obtain ⟨hfresh, hnext, hkinds⟩ := run_clients c wires count
  rw [run_concat]
  obtain ⟨peers, hact⟩ := act_attach fun shard _ => peers_of_clients hfresh.coherent hkinds shard
  have hlinked := hfresh.attach hact
  refine ⟨hlinked, hlinked.coherent, hlinked.matched, ?_, fun id kind' hk hid => ?_⟩
  · rw [hact, kind?_join, if_pos hnext.symm]
  · rw [hact, kind?_join, hnext, if_neg hid] at hk
    exact hkinds id kind' hk

end Depot.Node
