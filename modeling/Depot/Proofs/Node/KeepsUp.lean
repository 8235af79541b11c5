/-
  Depot — clients that keep up.

  A client keeps up if its writer has nothing left to write when the next event comes.  Such a
  client is closed by an event only if more replies get in order at once than its queue holds:
  `run_bursts` says when that is, and that a client that is owed no more than that many stays.
  The number of tags that may be out is no bound on it, as a reply that comes early waits in
  order without a tag (`run_bursts_early`).
-/
import Depot.Proofs.Node.Bursts

namespace Depot

/-! ## Configurations -/

theorem Config.of_refuse_bind {bad : Bool} {text : String} {rest : Unit → Except Fault Unit}
    (h : (refuse bad text >>= rest) = .ok ()) : bad = false ∧ rest () = .ok () := by
  cases bad with
  | false => exact ⟨rfl, h⟩
  | true => cases h

/-- A queue holds a frame at least. -/
theorem Config.queueCapacity_pos {c : Config} (h : c.check = .ok ()) : 0 < c.queueCapacity := by
  unfold check at h
  obtain ⟨-, h⟩ := of_refuse_bind h
  obtain ⟨-, h⟩ := of_refuse_bind h
  obtain ⟨-, h⟩ := of_refuse_bind h
  obtain ⟨hqueue, -⟩ := of_refuse_bind h
  exact Nat.pos_of_ne_zero (of_decide_eq_false hqueue)

/-! ## Writers that wait -/

/-- The writer has not ended, nothing waits for it, and there is room for so many frames. -/
def Writer.isIdle (w : Writer) (capacity : Nat) : Bool :=
  !w.hasEnded && w.inbox.isEmpty && w.capacity = capacity

namespace Node

/-- Every link has a writer that is idle, with room for so many frames. -/
def isIdle (n : Node Sockets) (capacity : Nat) : Bool :=
  n.links.keys.all fun id =>
    (n.wires.table.get? id).any fun p => p.writer.isIdle capacity

/-- Whether every writer is idle when the node has something to do. -/
def keepsUp (capacity : Nat) (n : Node Sockets) : Action Sockets → Bool
  | .elapse _ | .rewire _ => true
  | .attach _ | .event _ | .expire _ => n.isIdle capacity

/-- Whether every writer is idle before each action of a run. -/
def keepsUpAll (capacity : Nat) (n : Node Sockets) : List (Action Sockets) → Bool
  | [] => true
  | a :: actions => n.keepsUp capacity a && (n.act a).keepsUpAll capacity actions

theorem keepsUpAll_concat {capacity : Nat} {n : Node Sockets} {actions : List (Action Sockets)}
    {a : Action Sockets} : n.keepsUpAll capacity (actions ++ [a]) =
      (n.keepsUpAll capacity actions && (n.run actions).keepsUp capacity a) := by
  induction actions generalizing n with
  | nil => simp [keepsUpAll, run]
  | cons b actions ih =>
    rw [List.cons_append, keepsUpAll, ih, keepsUpAll, Bool.and_assoc]
    rfl

/-- The reply of the slot is there once the action is over. -/
def Ready (n : Node Sockets) (a : Action Sockets) (r : LinkId × Nat) : Prop :=
  (∃ l, n.links.get? r.1 = some l ∧ l.order.Keeps r.2) ∨ ∃ m, n.Resolves a r m

variable {n : Node Sockets} {a : Action Sockets} {p : Phase Sockets} {id : LinkId} {l : Link}
  {capacity : Nat}

theorem queued_of_isIdle (h : n.isIdle capacity = true) (hl : n.links.get? id = some l) :
    n.wires.Queued id capacity 0 := by
  have hid : id ∈ n.links.keys := by
    by_contra hnot
    rw [Table.get?_eq_none_iff.2 hnot] at hl
    cases hl
  obtain ⟨p, hp, hw⟩ := (Option.any_eq_true _ _).1 (List.all_eq_true.1 h id hid)
  simp only [Writer.isIdle, Bool.and_eq_true, Bool.not_eq_true', List.isEmpty_iff,
    decide_eq_true_eq] at hw
  obtain ⟨⟨hopen, hempty⟩, hcapacity⟩ := hw
  exact ⟨p, hp, hopen, hcapacity, congrArg List.length hempty⟩

/-! ## Openings -/

theorem ready_iff (hl : n.links.get? id = some l) {slot : Nat} :
    n.Ready a (id, slot) ↔ l.order.Keeps slot ∨ ∃ m, n.Resolves a (id, slot) m := by
  refine or_congr_left ⟨?_, fun hk => ⟨l, hl, hk⟩⟩
  rintro ⟨l', hl', hk⟩
  cases hl.symm.trans hl'
  exact hk

/-- No link refuses a frame. -/
theorem send_ne_fault {wires : Sockets} {f : Frame} {fault : Fault}
    (hc : Phase.Coherent ⟨n, [], []⟩) (hidle : n.isIdle capacity = true) (hcap : 0 < capacity)
    (hl : n.links.get? id = some l) : l.send n.wires f ≠ (wires, some fault) := by
  intro hw
  obtain ⟨hid, hs, -⟩ := hc.links id l hl
  have hsend := (queued_of_isIdle hidle hl).send hcap hid hs f
  rw [hw] at hsend
  cases hsend

/-- No link to a shard refuses a request. -/
theorem offerTo_ne_fault {shard : ShardId} {target : LinkId} {wires : Sockets} {f : Frame}
    {fault : Fault} (hc : Phase.Coherent ⟨n, [], []⟩) (hidle : n.isIdle capacity = true)
    (hcap : 0 < capacity) (hl : n.links.get? id = some l)
    (ht : n.peers.get? shard = some target) :
    (n.reserve id l).offerTo target shard f ≠ (wires, some fault) := by
  intro hw
  obtain ⟨l₁, hl₁, -⟩ := kind?_eq_some.1 ((hc.peers shard target).1 ht)
  unfold offerTo at hw
  split at hw
  · rename_i l' hl'
    obtain ⟨hid, hs, -⟩ := (hc.reserve hl).links target l' hl'
    have hqueued : n.wires.Queued target capacity 0 := queued_of_isIdle hidle hl₁
    have hsend : (l'.send (n.reserve id l).wires f).2 = none := hqueued.send hcap hid hs f
    rw [hw] at hsend
    cases hsend
  · rename_i hnone
    have hbare := (reserve_alike hl).links target
    rw [hnone, hl₁] at hbare
    cases hbare

/-- A client is there, and its replies are as before, once an action has opened that is not the
    end of its link. -/
theorem Opens.client (hp : n.Opens a p) (hc : Phase.Coherent ⟨n, [], []⟩)
    (hkeeps : n.keepsUp capacity a = true) (hcap : 0 < capacity)
    (hl : n.links.get? id = some l) (hk : l.kind = .client)
    (hend : ∀ error, a ≠ .event (.closed id error)) :
    ∃ l', p.node.links.get? id = some l' ∧ l'.kind = .client ∧
      l'.order.first = l.order.first ∧ ∀ slot, l'.order.Keeps slot ↔ l.order.Keeps slot := by
  have hsame : ∀ {m : Node Sockets}, m.links.get? id = n.links.get? id →
      ∃ l', m.links.get? id = some l' ∧ l'.kind = .client ∧ l'.order.first = l.order.first ∧
        ∀ slot, l'.order.Keeps slot ↔ l.order.Keeps slot :=
    fun hm => ⟨l, hm.trans hl, hk, rfl, fun _ => Iff.rfl⟩
  have hreserve : ∀ {k : LinkId} {l₁ : Link}, n.links.get? k = some l₁ →
      ∃ l', (n.reserve k l₁).links.get? id = some l' ∧ l'.kind = .client ∧
        l'.order.first = l.order.first ∧ ∀ slot, l'.order.Keeps slot ↔ l.order.Keeps slot := by
    intro k l₁ hl₁
    have hget : (n.reserve k l₁).links.get? id =
      if id = k then some l₁.reserve.1 else n.links.get? id := Table.get?_replace hl₁ _ _
    by_cases hid : id = k
    · subst hid
      cases hl.symm.trans hl₁
      rw [if_pos rfl] at hget
      exact ⟨_, hget, hk, rfl, fun _ => ReplyOrder.keeps_reserve⟩
    · rw [if_neg hid] at hget
      exact hsame hget
  have hstate := fun k l hl => (hc.links k l hl).2.1
  cases hp with
  | elapse | rewire | expire | trail | orphan | answer => exact hsame rfl
  | settle => exact hsame (congrArg (Table.get? · id) (links_release _ _))
  | forward hl₁ | refuse hl₁ => exact hreserve hl₁
  | close k error =>
    refine hsame ((links_detach n k id).trans (if_neg ?_))
    rintro rfl
    exact hend error rfl
  | choke hl₁ hd hw => exact absurd hw (send_ne_fault hc hkeeps hcap hl₁)
  | sever hl₁ hd ht hw => exact absurd hw (offerTo_ne_fault hc hkeeps hcap hl₁ ht)
  | enter kind =>
    have hne : id ≠ n.nextLink := by
      rintro rfl
      rw [hc.fresh] at hl
      cases hl
    have hjoin : ∀ peers, (n.join kind peers).links.get? id = n.links.get? id := fun peers =>
      (links_join n kind peers id).trans (if_neg hne)
    have key : ∀ {q : Node Sockets × List (Tag × String)}, n.Entered kind q →
        q.1.links.get? id = n.links.get? id := by
      intro q hq
      cases hq with
      | plain | alone => exact hjoin _
      | @instead shard old hold =>
        refine (links_detach _ old id).trans ((if_neg ?_).trans (hjoin _))
        rintro rfl
        have hdialed := (hc.peers shard id).1 hold
        rw [kind?_eq_some.2 ⟨l, hl, hk⟩] at hdialed
        cases hdialed
    exact hsame (key (n.enter_cases kind))

/-- Where something is left to do once an action has opened, nothing waits for the writers. -/
theorem Opens.queued (hp : n.Opens a p) (hc : Phase.Coherent ⟨n, [], []⟩)
    (hkeeps : n.keepsUp capacity a = true) (hcap : 0 < capacity)
    (hl : n.links.get? id = some l) (hleft : ¬ (p.lost = [] ∧ p.held = [])) :
    p.node.wires.Queued id capacity 0 := by
  have hqueued : n.isIdle capacity = true → n.wires.Queued id capacity 0 := fun hidle =>
    queued_of_isIdle hidle hl
  cases hp with
  | elapse | rewire | trail | answer | forward | orphan => exact absurd ⟨rfl, rfl⟩ hleft
  | expire => exact hqueued hkeeps
  | refuse => exact hqueued hkeeps
  | choke hl₁ hd hw => exact absurd hw (send_ne_fault hc hkeeps hcap hl₁)
  | sever hl₁ hd ht hw => exact absurd hw (offerTo_ne_fault hc hkeeps hcap hl₁ ht)
  | @settle k m reply l₁ tag store =>
    show (Node.release { n with store } tag).wires.Queued id capacity 0
    rw [wires_release]
    exact hqueued hkeeps
  | close k => exact queued_detach (hqueued hkeeps) k
  | enter kind =>
    have key : ∀ {q : Node Sockets × List (Tag × String)}, n.Entered kind q →
        q.1.wires.Queued id capacity 0 := by
      intro q hq
      cases hq with
      | plain | alone => exact hqueued hkeeps
      | @instead shard old =>
        have hjoin : (n.join (.dialed shard) (n.peers.insert shard n.nextLink)).wires.Queued
          id capacity 0 := hqueued hkeeps
        exact queued_detach hjoin old
    exact key (n.enter_cases kind)

/-! ## Actions -/

/-- Once everything that is in order is sent, the reply that comes next is not there. -/
theorem not_keeps_first (h : Phase.Matched ⟨n, [], []⟩) (hl : n.links.get? id = some l) :
    ¬ l.order.Keeps l.order.first :=
  ReplyOrder.not_keeps_first (h.front id l hl)

/-- A reply that is there when the action is over is to a request that was forwarded before, or
    that the action brings. -/
theorem Ready.lt (hmt : Phase.Matched ⟨n, [], []⟩) (hl : n.links.get? id = some l) {slot : Nat}
    (h : n.Ready a (id, slot)) : slot < l.order.next + (n.forwarded? id a).toList.length := by
  have hwaits : ∀ {tag o}, n.waiting.get? tag = some o → o.requester = some (id, slot) →
      slot < l.order.next + (n.forwarded? id a).toList.length := by
    intro tag o ho hr
    obtain ⟨l', hl', -, howed⟩ := hmt.owes ⟨o, ho, hr⟩
    cases hl.symm.trans hl'
    exact Nat.lt_add_right _ (ReplyOrder.lt_next_of_isOwed howed)
  rcases (ready_iff hl).1 h with hkeep | ⟨m, hres⟩
  · exact Nat.lt_add_right _ (ReplyOrder.lt_next_of_keeps hkeep)
  · cases hres with
    | answered ha hd ho hr => exact hwaits (Option.filter_eq_some_iff.1 ho).1 hr
    | expired ha ho hr => exact hwaits ho hr
    | lost ho hr => exact hwaits ho hr
    | refused ha hl' hs hd =>
      subst ha
      cases hl.symm.trans hl'
      rw [(asks_forward id hl (duty_eq_forward_iff.2 hd)).2, if_pos rfl, show slot = l.order.next from hs]
      exact Nat.lt_succ_self _

/-- A client whose queue is empty goes in an action that is not the end of its link if the
    replies that are in order then are more than the queue holds.  The queue is full then. -/
theorem act_bursts (hc : Phase.Coherent ⟨n, [], []⟩) (hmt : Phase.Matched ⟨n, [], []⟩)
    (ha : n.admits a = true) (hkeeps : n.keepsUp capacity a = true) (hcap : 0 < capacity)
    (hl : n.links.get? id = some l) (hk : l.kind = .client)
    (hend : ∀ error, a ≠ .event (.closed id error)) :
    ((n.act a).links.get? id = none ↔
      ∀ slot, l.order.first ≤ slot → slot ≤ l.order.first + capacity → n.Ready a (id, slot)) ∧
    ((n.act a).links.get? id = none → (n.act a).wires.Queued id capacity capacity) := by
  obtain ⟨p, hp, hm⟩ := n.act_opens a
  have hready : ∀ slot, n.Ready a (id, slot) ↔ l.order.Keeps slot ∨ p.Due (id, slot) := fun slot =>
    (ready_iff hl).trans (or_congr_right (hp.due_iff hm ha hc hmt).symm)
  obtain ⟨l₁, hl₁, hk₁, hfirst, hkept⟩ := hp.client hc hkeeps hcap hl hk hend
  by_cases hleft : p.lost = [] ∧ p.held = []
  · -- Nothing is due, and the reply that comes next is not there.
    obtain ⟨m, lost, held⟩ := p
    obtain ⟨rfl, rfl⟩ := hleft
    have hact : n.act a = m := congrArg Phase.node hm.rest
    have hstays : (n.act a).links.get? id ≠ none := by
      rw [hact, hl₁]
      exact Option.some_ne_none _
    refine ⟨iff_of_false hstays fun hall => ?_, fun hgone => absurd hgone hstays⟩
    rcases (hready _).1 (hall _ (Nat.le_refl _) (Nat.le_add_right ..)) with hkeep | hdue
    · exact not_keeps_first hmt hl hkeep
    · exact Phase.not_due hdue
  · have hopened : p.Bursts id l.order.first capacity (n.Ready a) := by
      refine .there ⟨hl₁, hk₁, Nat.le_of_eq hfirst.symm, by omega, ?_, fun slot hle hlt => ?_,
        fun slot _ => ?_⟩
      · rw [hfirst, Nat.sub_self]
        exact hp.queued hc hkeeps hcap hl hleft
      · omega
      · rw [hkept]
        exact hready slot
    obtain ⟨hmt', hburst⟩ :=
      (hmt.opens hp ha hc).moves Phase.Bursts.move hm (hc.opens hp) hopened
    cases hburst with
    | gone hgone hfull hall => exact ⟨iff_of_true hgone hall, fun _ => hfull⟩
    | @there l' h =>
      have hstays : (n.act a).links.get? id ≠ none := by
        rw [show (n.act a).links.get? id = some l' from h.link]
        exact Option.some_ne_none _
      refine ⟨iff_of_false hstays fun hall => ?_, fun hgone => absurd hgone hstays⟩
      rcases (h.rest _ (Nat.le_refl _)).1 (hall _ h.first_le h.room) with hkeep | hdue
      · exact not_keeps_first hmt' h.link hkeep
      · exact Phase.not_due hdue

/-! ## Runs -/

/-- In a run in which every writer has written all there is when the next action comes, an
    action that is not the end of its link closes a client exactly if the replies to its first
    unreleased requests, one more than its queue holds, are all there once the action is over.
    Its queue is full then.  So a client that is owed no more replies than its queue holds stays. -/
theorem run_bursts {c : Config} {wires : Sockets} {actions : List (Action Sockets)}
    {a : Action Sockets} {id : LinkId} {l : Link} (hcheck : c.check = .ok ())
    (hadmits : (ofConfig c wires).admitsAll (actions ++ [a]) = true)
    (hkeeps : (ofConfig c wires).keepsUpAll c.queueCapacity (actions ++ [a]) = true)
    (hl : ((ofConfig c wires).run actions).links.get? id = some l) (hk : l.kind = .client)
    (hend : ∀ error, a ≠ .event (.closed id error)) :
    let n := (ofConfig c wires).run actions
    let closes := (n.act a).links.get? id = none
    (closes ↔ ∀ slot, l.order.first ≤ slot → slot ≤ l.order.first + c.queueCapacity →
      n.Ready a (id, slot)) ∧
    (closes → (n.act a).wires.Queued id c.queueCapacity c.queueCapacity) ∧
    (l.owed + (n.forwarded? id a).toList.length ≤ c.queueCapacity → ¬ closes) := by
  intro n closes
  rw [admitsAll_concat, Bool.and_eq_true] at hadmits
  rw [keepsUpAll_concat, Bool.and_eq_true] at hkeeps
  have hmt : Phase.Matched ⟨n, [], []⟩ := Phase.Matched.run hadmits.1
  obtain ⟨hiff, hfull⟩ := act_bursts (Phase.Coherent.run c wires actions) hmt hadmits.2 hkeeps.2
    (Config.queueCapacity_pos hcheck) hl hk hend
  refine ⟨hiff, hfull, fun hroom hgone => ?_⟩
  have hlast : n.Ready a (id, l.order.first + c.queueCapacity) :=
    hiff.1 hgone _ (Nat.le_add_right ..) (Nat.le_refl _)
  have hlt := hlast.lt hmt hl
  rw [show l.order.next = l.order.first + l.owed from rfl] at hlt
  omega

/-! ## Replies that come early -/

/-- The near end of a connection whose far end reads what it is sent as it comes. -/
def promptSocket (capacity : Nat) : Socket where
  writer := Writer.ofCapacity capacity
  sink := {}
  pipe := none
  reader := Reader.ofHop .client Deframer.defaultLimit
  farDrains := true

/-- Two requests may be out. -/
def promptConfig (capacity : Nat) : Config := { tagCapacity := 2, queueCapacity := capacity }

/-- A node with the near ends of two connections. -/
def prompt (capacity : Nat) : Node Sockets :=
  ofConfig (promptConfig capacity)
    { table := Table.ofList [(0, promptSocket capacity), (1, promptSocket capacity)] }

/-- The client asks for an object of shard 1. -/
def wants (name : Bytes) : Action Sockets := .event (.message 0 (.client (.peerLookup name 1)))

/-- Shard 1 answers. -/
def finds (tag : Tag) (name : Bytes) : Action Sockets :=
  .event (.message 1 (.peer tag (.store name [49])))

/-- The client asks for three objects; the replies to the second and the third come, and wait
    for the first.  The writers go on after each request. -/
def earlyRun : List (Action Sockets) :=
  let writes : Action Sockets := .rewire fun ps => ps.settle.1
  [.attach .client, .attach (.dialed 1), wants [97], writes, wants [98], writes, finds 1 [98],
    wants [99], writes, finds 1 [99]]

/-- A queue for three frames holds the three replies that go at once. -/
theorem run_bursts_three :
    (prompt 3).admitsAll (earlyRun ++ [finds 0 [97]]) = true ∧
      (prompt 3).keepsUpAll 3 (earlyRun ++ [finds 0 [97]]) = true ∧
      (((prompt 3).run earlyRun).links.get? 0).map Link.owed = some 3 ∧
      (((prompt 3).run earlyRun).act (finds 0 [97])).links.get? 0 ≠ none := by
  have ha : (prompt 3).admitsAll (earlyRun ++ [finds 0 [97]]) = true := by cbv
  have hkeeps : (prompt 3).keepsUpAll 3 (earlyRun ++ [finds 0 [97]]) = true := by cbv
  have hlink : (((prompt 3).run earlyRun).links.get? 0).map (fun l => (l.kind, l.owed)) =
      some (.client, 3) := by cbv
  have hquiet : (((prompt 3).run earlyRun).forwarded? 0 (finds 0 [97])).toList.length = 0 := by cbv
  obtain ⟨l, hl, hboth⟩ := Option.map_eq_some_iff.1 hlink
  obtain ⟨hk, howed⟩ := Prod.mk.inj hboth
  obtain ⟨-, -, hstays⟩ := run_bursts (c := promptConfig 3) rfl ha hkeeps hl hk
    (by rintro fault ⟨⟩)
  refine ⟨ha, hkeeps, by rw [hl, Option.map_some, howed], hstays ?_⟩
  rw [howed]
  exact Nat.le_of_eq (congrArg (3 + ·) hquiet)

/-- A queue for two frames, as many as requests may be out, does not: the client, who has read all
    it was sent, is closed when the reply to its first request comes. -/
theorem run_bursts_early :
    (promptConfig 2).check = .ok () ∧
      (promptConfig 2).tagCapacity ≤ (promptConfig 2).queueCapacity ∧
      (prompt 2).admitsAll (earlyRun ++ [finds 0 [97]]) = true ∧
      (prompt 2).keepsUpAll (promptConfig 2).queueCapacity (earlyRun ++ [finds 0 [97]]) = true ∧
      ((prompt 2).run earlyRun).kind? 0 = some .client ∧
      (((prompt 2).run earlyRun).act (finds 0 [97])).kind? 0 = none :=
  ⟨rfl, Nat.le_refl 2, by cbv, by cbv, by cbv, by cbv⟩

end Node

end Depot
