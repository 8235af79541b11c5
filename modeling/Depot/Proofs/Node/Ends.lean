/-
  Depot — every action comes to an end.

  `Node.cascade` is what an action does up to its first call, and `outcome_cascade` says that
  with its calls made it is the whole action.  `cascade_ends` says of every action of every node
  that its cascade ends, and what is so at any time on the way.
-/
import Depot.Proofs.Node.Cascade

namespace Depot

variable {σ : Type u} [Outbound σ]

/-! ## Actions -/

namespace Node

/-- A node sends a request to a shard: what it does up to its first call, and the calls. -/
def leave (n : Node σ) (requester : LinkId × Nat) (shard : ShardId) (request : PeerBody) :
    Cascade σ :=
  let refusal (fault : Fault) := Call.tell (some requester) (Message.failure fault.message)
  match n.peers.get? shard with
  | none => { node := n, calls := [refusal (.noLink shard)] }
  | some target =>
    match n.tags.draw with
    | .error e => { node := n, calls := [refusal (.tag e)] }
    | .ok (tags, tag) =>
      match n.offerTo target shard (Frame.ofMessage (.peer tag request)) with
      | (wires, none) =>
        let o : PendingRequest := ⟨some requester, target, n.clock + n.timeout⟩
        { node := { n with tags, wires, waiting := n.waiting.insert tag o } }
      | (wires, some fault) =>
        { node := { n with tags, wires }.reclaim tag
          calls := [.close target, refusal (.invalid (severedText shard fault))] }

/-- What a message makes a node do up to its first call, and the calls. -/
def heed (n : Node σ) (id : LinkId) (m : Message) : Cascade σ :=
  match n.links.get? id with
  | none => { node := n }
  | some l =>
    match duty n.store m with
    | .answer store reply =>
      match l.send n.wires (Frame.ofMessage reply) with
      | (wires, none) => { node := { n with store, wires } }
      | (wires, some _) => { node := { n with store, wires }, calls := [.close id] }
    | .forward shard request => (n.reserve id l).leave (id, l.order.next) shard request
    | .settle tag store reply =>
      match n.answered? id tag with
      | none => { node := { n with store } }
      | some _ => { node := { n with store }, calls := [.finish n.links.size [(tag, reply)]] }

/-- What an action does up to its first call, and the calls. -/
def cascade (n : Node σ) : Action σ → Cascade σ
  | .attach (.dialed shard) =>
    { node := n.join (.dialed shard) (n.peers.insert shard n.nextLink)
      calls := (n.peers.get? shard).toList.map Call.close }
  | .attach kind => { node := n.join kind n.peers }
  | .event (.message id m) => n.heed id m
  | .event (.closed id _) => { node := n, calls := [.close id] }
  | .expire now => { node := n, calls := [.finish n.links.size (failures (n.late now))] }
  | .elapse milliseconds => { node := n.elapse milliseconds }
  | .rewire f => { node := { n with wires := f n.wires } }

section

variable {n : Node σ} {requester : LinkId × Nat} {shard : ShardId} {request : PeerBody}

/-- The calls are made once the request is issued. -/
theorem outcome_leave {m : Node σ} {result : Except Fault Tag}
    (h : n.issue requester shard request = (m, result)) :
    (∀ tag, result = .ok tag → (n.leave requester shard request).outcome = m) ∧
      ∀ fault, result = .error fault → (n.leave requester shard request).outcome =
        m.tell (some requester) (Message.failure fault.message) := by
  unfold issue at h
  unfold leave
  cases ht : n.peers.get? shard with
  | none =>
    simp only [ht] at h
    cases h
    exact ⟨by rintro tag ⟨⟩, by rintro fault ⟨⟩; rfl⟩
  | some target =>
    cases hg : n.tags.draw with
    | error e =>
      simp only [ht, hg] at h
      cases h
      exact ⟨by rintro tag ⟨⟩, by rintro fault ⟨⟩; rfl⟩
    | ok drawn =>
      obtain ⟨tags, tag⟩ := drawn
      simp only [ht, hg] at h
      dsimp only
      cases hw : n.offerTo target shard (Frame.ofMessage (.peer tag request)) with
      | mk wires refused =>
        rw [hw] at h
        cases refused with
        | none =>
          cases h
          exact ⟨fun _ _ => rfl, by rintro fault ⟨⟩⟩
        | some fault =>
          cases h
          exact ⟨by rintro tag ⟨⟩, by rintro fault ⟨⟩; rfl⟩

theorem outcome_forward {id : LinkId} {l : Link} (hl : n.links.get? id = some l) :
    ((n.reserve id l).leave (id, l.order.next) shard request).outcome =
      n.forward id shard request := by
  cases hi : (n.reserve id l).issue (id, l.order.next) shard request with
  | mk m result =>
    cases result with
    | ok tag => rw [forward_ok hl hi, (outcome_leave hi).1 tag rfl]
    | error fault => rw [forward_error hl hi, (outcome_leave hi).2 fault rfl]

end

theorem outcome_heed (n : Node σ) (id : LinkId) (m : Message) :
    (n.heed id m).outcome = n.receive id m := by
  unfold heed receive
  cases hl : n.links.get? id with
  | none =>
    rw [if_neg (by simp [Table.contains, hl])]
    rfl
  | some l =>
    rw [if_pos (by simp [Table.contains, hl])]
    dsimp only
    cases duty n.store m with
    | forward shard request => exact outcome_forward hl
    | answer store reply =>
      dsimp only
      rw [answer, hl]
      dsimp only
      cases l.send n.wires (Frame.ofMessage reply) with
      | mk wires refused => cases refused <;> rfl
    | settle tag store reply =>
      dsimp only
      rw [settle]
      cases ho : n.answered? id tag with
      | none =>
        rw [show ({ n with store } : Node σ).answered? id tag = none from ho]
        rfl
      | some o =>
        rw [show ({ n with store } : Node σ).answered? id tag = some o from ho]
        have hw : ({ n with store } : Node σ).waiting.get? tag = some o :=
          (Option.filter_eq_some_iff.1 ho).1
        show Node.finish { n with store } tag reply = _
        rw [finish, hw]

theorem outcome_attach (n : Node σ) (kind : LinkKind) :
    (n.cascade (.attach kind)).outcome = (n.attach kind).1 := by
  cases kind with
  | client | accepted => exact (failAll.eq_1 _).symm
  | dialed shard =>
    unfold attach enter cascade
    dsimp only
    cases n.peers.get? shard with
    | none => exact (failAll.eq_1 _).symm
    | some old => rfl

/-- An action is what it does up to its first call, and then its calls. -/
theorem outcome_cascade (n : Node σ) (a : Action σ) : (n.cascade a).outcome = n.act a := by
  cases a with
  | attach kind => exact n.outcome_attach kind
  | expire now => exact (n.failAll_eq (n.late now)).symm
  | elapse milliseconds => rfl
  | rewire f => rfl
  | event e =>
    cases e with
    | closed id error => rfl
    | message id m => exact n.outcome_heed id m

end Node

/-! ## Starts -/

/-- No link goes before the first call.  No request is over by then, and none comes up if there
    is a call to be made. -/
structure Cascade.Starts (n : Node σ) (c : Cascade σ) : Prop where
  links : n.links.keys ⊆ c.node.links.keys
  waiting : c.calls ≠ [] → c.node.waiting = n.waiting
  /-- At most the loop of the action itself is under way. -/
  lefts : c.lefts = [] ∨ c.lefts = [c.node.links.size]
  closed : c.closed = []
  ended : c.ended = []

namespace Cascade.Starts

omit [Outbound σ]

variable {n m : Node σ} {c : Cascade σ}

theorem nested (h : c.Starts n) : c.Nested := by
  rcases h.lefts with hlefts | hlefts <;> exact ⟨by simp [hlefts], by simp [hlefts]⟩

theorem accounts (h : c.Starts n) : c.Accounts c := .start h.closed h.ended

/-- Nothing has happened to the tables, and no loop is under way. -/
theorem same {calls : List Call} (hl : m.links.keys = n.links.keys := by rfl)
    (hw : m.waiting = n.waiting := by rfl) (hc : calls.filterMap Call.left? = [] := by rfl) :
    Starts n { node := m, calls } where
  links := hl ▸ List.Subset.refl _
  waiting _ := hw
  lefts := .inl hc
  closed := rfl
  ended := rfl

/-- The action goes through requests itself. -/
theorem loop {due : List (Tag × Message)} (hl : m.links = n.links := by rfl)
    (hw : m.waiting = n.waiting := by rfl) :
    Starts n { node := m, calls := [.finish n.links.size due] } where
  links := hl ▸ List.Subset.refl _
  waiting _ := hw
  lefts := .inr (hl ▸ rfl)
  closed := rfl
  ended := rfl

theorem join (kind : LinkKind) (peers : Table ShardId LinkId) (ids : List LinkId) :
    Starts n { node := n.join kind peers, calls := ids.map Call.close } where
  links k hk := by
    by_contra hnone
    have hget := Table.get?_eq_none_iff.2 hnone
    rw [Node.links_join] at hget
    split at hget
    · cases hget
    · exact Table.get?_eq_none_iff.1 hget hk
  waiting _ := rfl
  lefts := by
    left
    show (ids.map Call.close).filterMap Call.left? = []
    rw [List.filterMap_map]
    exact List.filterMap_eq_nil_iff.2 fun _ _ => rfl
  closed := rfl
  ended := rfl

end Cascade.Starts

namespace Node

theorem leave_starts (n : Node σ) (requester : LinkId × Nat) (shard : ShardId)
    (request : PeerBody) : (n.leave requester shard request).Starts n := by
  unfold leave
  dsimp only
  split
  · exact .same
  · split
    · exact .same
    · rename_i target _ tags tag hg
      split
      · -- A request comes up, and nothing is called.
        exact ⟨List.Subset.refl _, fun h => absurd rfl h, .inl rfl, rfl, rfl⟩
      · rename_i wires fault _
        rw [reclaim_drawn wires hg]
        exact .same

theorem heed_starts (n : Node σ) (id : LinkId) (m : Message) : (n.heed id m).Starts n := by
  unfold heed
  split
  · exact .same
  · rename_i l _
    split
    · split
      · exact .same
      · exact .same
    · rename_i shard request _
      have h := (n.reserve id l).leave_starts (id, l.order.next) shard request
      have hkeys : (n.reserve id l).links.keys = n.links.keys := Table.keys_map _ _
      exact ⟨hkeys ▸ h.links, h.waiting, h.lefts, h.closed, h.ended⟩
    · split
      · exact .same
      · exact .loop

theorem cascade_starts (n : Node σ) (a : Action σ) : (n.cascade a).Starts n := by
  cases a with
  | attach kind =>
    cases kind with
    | client | accepted => exact .join _ _ []
    | dialed shard => exact .join _ _ (n.peers.get? shard).toList
  | expire now => exact .loop
  | elapse | rewire => exact .same
  | event e =>
    cases e with
    | closed id error => exact .same
    | message id m => exact n.heed_starts id m

/-- **Cascades end**: whatever comes to a node, on whichever link, and whatever becomes of the
    frames, the calls that close links and tell requesters, each of which may lead to another,
    come to an end, in whatever order the loops go through their requests; made in the order of
    the tables they are the action.  At any time on the way, every loop began with fewer links
    than the loop around it, and with no fewer than there are now.  The links of the start are
    those that were taken out, each once, and those that are there; the requests of the start
    are those that are over, each once, and those that wait, as they did but for requesters
    whose links were taken out. -/
theorem cascade_ends (n : Node σ) (a : Action σ) :
    let c := n.cascade a
    n.links.keys ⊆ c.node.links.keys ∧ (c.calls ≠ [] → c.node.waiting = n.waiting) ∧
    (c.run (List.replicate c.most 0)).node = n.act a ∧
    ∀ picks,
      let m := c.run picks
      (c.most ≤ picks.length → m.calls = []) ∧
      m.lefts.Pairwise (· < ·) ∧ (∀ left ∈ m.lefts, m.node.links.size ≤ left) ∧
      m.closed.Nodup ∧ (m.closed ++ m.node.links.keys).Perm c.node.links.keys ∧
      m.ended.Nodup ∧ (m.ended ++ m.node.waiting.keys).Perm c.node.waiting.keys ∧
      ∀ tag o', m.node.waiting.get? tag = some o' →
        ∃ o, c.node.waiting.get? tag = some o ∧
          (o' = o ∨ o' = { o with requester := none } ∧
            ∃ r, o.requester = some r ∧ r.1 ∈ m.closed) := by
  intro c
  have hstarts : c.Starts n := n.cascade_starts a
  refine ⟨hstarts.links, hstarts.waiting, ?_, fun picks => ?_⟩
  · have hends : (c.run (List.replicate c.most 0)).calls = [] :=
      Cascade.run_ends (List.length_replicate ..).ge
    calc (c.run (List.replicate c.most 0)).node
        = (c.run (List.replicate c.most 0)).outcome := by rw [Cascade.outcome, hends]; rfl
      _ = c.outcome := c.outcome_run c.most
      _ = n.act a := n.outcome_cascade a
  · have haccounts := Cascade.run_keeps Cascade.Accounts.step hstarts.accounts picks
    have hnested := Cascade.run_keeps Cascade.Nested.step hstarts.nested picks
    have hclosed := haccounts.links.nodup_iff.2 c.node.links.nodup
    have hended := haccounts.waiting.nodup_iff.2 c.node.waiting.nodup
    exact ⟨Cascade.run_ends, hnested.lefts, hnested.within, hclosed.of_append_left,
      haccounts.links, hended.of_append_left, haccounts.waiting, haccounts.kept⟩

end Node

/-- Nothing can be written any more.  The link to shard 1 goes, and with it a request of the
    link to shard 2, and with that a request of a client: three loops are under way at once. -/
example :
    let n : Node Writer := {
      shard := 0
      store := { budget := 10 }
      tags := { capacity := 2, live := [0, 1], capacity_lt := by decide }
      links := .ofList [(0, (Link.reserve { id := 0, kind := .client }).1),
        (1, { id := 1, kind := .dialed 1 }),
        (2, (Link.reserve { id := 2, kind := .dialed 2 }).1)]
      peers := .ofList [(1, 1), (2, 2)]
      waiting := .ofList [(0, ⟨some (2, 0), 1, 5⟩), (1, ⟨some (0, 0), 2, 5⟩)]
      nextLink := 3
      timeout := 5
      wires := { capacity := 1, stage := .ended none } }
    let m := (n.cascade (.event (.closed 1 none))).run [0, 0, 0, 0, 0, 0, 0]
    m.lefts = [0, 1, 2] ∧ m.closed = [0, 2, 1] ∧ m.ended = [1, 0] := by
  decide

end Depot
