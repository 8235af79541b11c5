/-
  Depot — peers are isolated from one another.

  What a peer says on its link can complete the requests that left on that link, and no
  others, whatever tag it names: the reply may choke a client, and its end the link that
  replied, but all that such a cascade fails left on the link of the peer
  (`Opens.spares_peer`).  `run_isolates` says so of every state of every run, and that a reply
  which answers nothing is dropped.
-/
import Depot.Proofs.Node.Spared
import Depot.Proofs.Node.Stored

namespace Depot

variable {σ : Type u}

namespace Node

section

variable {n : Node σ} {tag : Tag} {body : PeerBody}

/-- A peer's message is answered, or is itself a reply under its tag. -/
theorem peerDuty_not_forward {s : Store} {shard : ShardId} {request : PeerBody} :
    duty s (.peer tag body) ≠ .forward shard request := by
  cases body <;> rintro ⟨⟩

/-- A peer's message is one that the reader of its link raises. -/
theorem admits_peer [Outbound σ] {id : LinkId} {kind : LinkKind} (hk : n.kind? id = some kind)
    (hp : kind.hop = .peer) : n.admits (.event (.message id (.peer tag body))) = true := by
  obtain ⟨l, hl, rfl⟩ := kind?_eq_some.1 hk
  simp only [admits, hl, Option.all_some, decide_eq_true_eq, hp]
  rfl

theorem answered?_eq_none {id : LinkId}
    (h : ∀ o, n.waiting.get? tag = some o → o.target ≠ id) : n.answered? id tag = none :=
  Option.filter_eq_none_iff.2 fun o ho => by simpa using h o ho

end

variable [Outbound σ]

/-- The requests that are about to fail with a link left on it. -/
theorem target_of_lost {n : Node σ} {id : LinkId} {tag : Tag} {text : String} {o : PendingRequest}
    (h : (tag, text) ∈ (n.detach id).2) (ho : n.waiting.get? tag = some o) : o.target = id := by
  have key : ∀ {q : Node σ × List (Tag × String)}, n.Detached id q → (tag, text) ∈ q.2 →
      o.target = id := by
    intro q hq hin
    cases hq with
    | absent | idle | client | accepted => cases hin
    | dialed =>
      obtain ⟨⟨t, o'⟩, he, heq⟩ := List.mem_map.1 hin
      obtain ⟨he, ht⟩ := List.mem_filter.1 he
      cases heq
      cases (Table.mem_entries.1 he).symm.trans ho
      exact of_decide_eq_true ht
  exact key (detach_cases n id) h

/-- Whatever a peer says opens with a change that spares the requests that left on other
    links. -/
theorem Opens.spares_peer {n : Node σ} {id : LinkId} {tag : Tag} {body : PeerBody} {p : Phase σ}
    (ho : n.Opens (.event (.message id (.peer tag body))) p) (hc : Phase.Coherent ⟨n, [], []⟩)
    (hm : Phase.Matched ⟨n, [], []⟩) : p.Spares (fun o => o.target = id) n := by
  have hs : Phase.Spares (fun o => o.target = id) n ⟨n, [], []⟩ := .start hm nofun
  cases ho with
  | trail => exact hs
  | answer => exact hs.same nofun fun _ => rfl
  | @choke _ _ reply l store wires fault =>
    have hw : Phase.Spares (fun o => o.target = id) n ⟨{ n with store, wires }, [], []⟩ :=
      hs.same nofun fun _ => rfl
    have hd : Phase.Spares (fun o => o.target = id) n
        ⟨({ n with store, wires }.detach id).1, ({ n with store, wires }.detach id).2 ++ [], []⟩ :=
      hw.detach hm.same (fun l hl => (hc.links id l hl).2.1) fun tag text o hin ho =>
        target_of_lost hin ho
    rwa [List.append_nil] at hd
  | forward _ hd | refuse _ hd | sever _ hd => exact absurd hd peerDuty_not_forward
  | orphan => exact hs.same nofun fun _ => rfl
  | @settle _ _ reply l t store o hl hd ho =>
    have hw : Phase.Spares (fun o => o.target = id) n ⟨{ n with store }, [], []⟩ :=
      hs.same nofun fun _ => rfl
    obtain ⟨hget, ht⟩ := Option.filter_eq_some_iff.1 ho
    refine hw.release (fun o' ho' => ?_) nofun
    cases hget.symm.trans ho'
    exact of_decide_eq_true ht

/-- A reply that answers nothing is dropped, with what came in for the store kept. -/
theorem act_orphan {n : Node σ} {id : LinkId} {l : Link} {m reply : Message} {tag : Tag}
    {store : Store} (hl : n.links.get? id = some l) (hd : duty n.store m = .settle tag store reply)
    (ho : n.answered? id tag = none) : n.act (.event (.message id m)) = { n with store } := by
  have hid : n.links.contains id = true := Table.contains_eq_true.2 ⟨l, hl⟩
  show n.receive id m = _
  simp only [receive, hid, if_true, hd, settle,
    show ({ n with store } : Node σ).answered? id tag = none from ho]

/-- Whatever a peer says on its link, at any time of any run, each request that left on another
    link waits on, under its tag, with its target, its deadline and, unless the client's own
    link closes, its requester, whose slot stays owed.  Tags that come back are those of
    requests that left on the link of the peer, and none goes out.  A reply that answers no
    such request changes nothing, except for the store if it is an object. -/
theorem run_isolates {c : Config} {wires : σ} {actions : List (Action σ)}
    (h : (ofConfig c wires).admitsAll actions = true) :
    let n := (ofConfig c wires).run actions
    ∀ id kind tag body, n.kind? id = some kind → kind.hop = .peer →
      let m := n.act (.event (.message id (.peer tag body)))
      (∀ t o, n.waiting.get? t = some o → o.target ≠ id →
        m.waiting.get? t =
          some { o with requester := o.requester.filter fun r => m.links.contains r.1 } ∧
        ∀ r, o.requester = some r → n.Owes r ∧ (m.links.contains r.1 = true → m.Owes r)) ∧
      (m.tags.capacity = n.tags.capacity ∧
        (∀ t, m.tags.isOut t = true → n.tags.isOut t = true) ∧
        ∀ t, n.tags.isOut t = true → m.tags.isOut t = false →
          ∃ o, n.waiting.get? t = some o ∧ o.target = id) ∧
      ((∀ o, n.waiting.get? tag = some o → o.target ≠ id) →
        (∀ text, body = .success text ∨ body = .failure text → m = n) ∧
        ∀ name object, body = .store name object → m = { n with store := m.store }) := by
  intro n id kind tag body hk hp m
  have hc : Phase.Coherent ⟨n, [], []⟩ := Phase.Coherent.run c wires actions
  have hmt : Phase.Matched ⟨n, [], []⟩ := Phase.Matched.run h
  have hc' : Phase.Coherent ⟨m, [], []⟩ := hc.act _
  obtain ⟨p, ho, hm⟩ := n.act_opens (.event (.message id (.peer tag body)))
  obtain ⟨hmt', hs⟩ := Phase.Spares.moves hm (hc.opens ho)
    (hmt.opens ho (admits_peer hk hp) hc) (ho.spares_peer hc hmt)
  have hwaits : ∀ t o, n.waiting.get? t = some o → o.target ≠ id →
      m.waiting.get? t = some (m.still o) := fun t o ho hne => hs.get? ho hne
  refine ⟨fun t o ho hne => ⟨hwaits t o ho hne, fun r hr => ⟨hmt.owes ⟨o, ho, hr⟩, fun hin => ?_⟩⟩,
    ⟨hs.capacity, fun t ht => ?_, fun t ht hback => ?_⟩, fun hno => ?_⟩
  · refine hmt'.owes ⟨_, hwaits t o ho hne, ?_⟩
    show o.requester.filter _ = _
    rw [hr, Option.filter_some, if_pos hin]
  · rw [hc'.tags, Table.contains_eq_true] at ht
    rw [hc.tags, Table.contains_eq_true]
    obtain ⟨o', ho'⟩ := ht
    obtain ⟨o, ho, -⟩ := hs.old t o' ho'
    exact ⟨o, ho⟩
  · rw [hc.tags, Table.contains_eq_true] at ht
    rw [hc'.tags] at hback
    obtain ⟨o, ho⟩ := ht
    refine ⟨o, ho, Decidable.byContradiction fun hne => ?_⟩
    rw [Table.contains_eq_true.2 ⟨_, hwaits t o ho hne⟩] at hback
    cases hback
  · obtain ⟨l, hl, -⟩ := kind?_eq_some.1 hk
    have hnone : n.answered? id tag = none := answered?_eq_none hno
    refine ⟨fun text hbody => ?_, fun name object hbody => ?_⟩
    · rcases hbody with rfl | rfl
      · exact act_orphan hl rfl hnone
      · exact act_orphan hl rfl hnone
    · subst hbody
      have hm : m = _ := act_orphan hl rfl hnone
      rw [hm]

/-- A client asks for an object of another shard, and a link to a third node comes up. -/
def strayRun : List (Action Unit) := lookupRun ++ [.attach (.dialed 2)]

/-- The third node replies in place of the one that was asked. -/
theorem run_isolates_stray :
    let n := (ofConfig {} ()).run strayRun
    (ofConfig {} ()).admitsAll strayRun = true ∧ n.kind? 2 = some (.dialed 2) ∧
      n.waiting.get? 0 = some ⟨some (0, 0), 1, 5000⟩ ∧
      n.act (.event (.message 2 (.peer 0 (.success [])))) = n := by
  have ha : (ofConfig {} ()).admitsAll strayRun = true := by cbv
  have hk : ((ofConfig {} ()).run strayRun).kind? 2 = some (.dialed 2) := by cbv
  have hw : ((ofConfig {} ()).run strayRun).waiting.get? 0 =
      some ⟨some (0, 0), 1, 5000⟩ := by cbv
  obtain ⟨-, -, drops⟩ := run_isolates ha 2 (.dialed 2) 0 (.success []) hk rfl
  refine ⟨ha, hk, hw, (drops fun o ho => ?_).1 _ (.inl rfl)⟩
  cases hw.symm.trans ho
  decide

end Node

end Depot
