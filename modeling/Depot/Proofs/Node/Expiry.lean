/-
  Depot — requests that expire or lose their link.

  `Node.Failed D text n m` says what is left of `n` once its requests with `D` have failed
  with this text: their tags are back, each requester that is there has one error in its slot,
  and nothing else has changed.  It fixes every table of `m`, and does not mention an order in
  which the requests are worked off.  So the order makes no difference (`run_fails`).
-/
import Depot.Proofs.Node.Failing
import Depot.Proofs.Node.KeepsUp

namespace Depot

/-- A pool is known by its capacity and the tags that are out. -/
theorem TagPool.ext_isOut {p q : TagPool} (hc : p.capacity = q.capacity)
    (ho : ∀ tag, p.isOut tag = q.isOut tag) : p = q := by
  have hmem : ∀ tag, tag ∈ p.live ↔ tag ∈ q.live := fun tag => by
    rw [← isOut_eq_true, ho, isOut_eq_true]
  have hnodup : ∀ r : TagPool, r.live.Nodup := fun r => r.sorted.imp fun hab => UInt32.ne_of_lt hab
  have hperm : p.live.Perm q.live := (List.perm_ext_iff_of_nodup (hnodup p) (hnodup q)).2 hmem
  have hlive : p.live = q.live := hperm.eq_of_pairwise
    (fun a b _ _ hab hba => absurd hba (UInt32.lt_asymm hab)) p.sorted q.sorted
  cases p
  cases q
  cases hc
  cases hlive
  rfl

namespace Node

/-- What is left of `n` once its requests with `D` have failed with this text. -/
structure Failed (D : PendingRequest → Bool) (text : String) (n m : Node Sockets) : Prop where
  rest : m = { n with
    tags := m.tags, links := m.links, waiting := m.waiting, wires := m.wires }
  capacity : m.tags.capacity = n.tags.capacity
  isOut : ∀ tag, m.tags.isOut tag = (n.tags.isOut tag && !(n.waiting.get? tag).any D)
  waiting : ∀ tag, m.waiting.get? tag =
    ((n.waiting.get? tag).filter fun o => !D o).map fun o =>
      { o with requester := o.requester.filter fun r => m.links.contains r.1 }
  /-- Each requester is owed a reply in its slot. -/
  owed : ∀ tag o r, n.waiting.get? tag = some o → D o = true → o.requester = some r → n.Owes r
  /-- Links other than clients' are as they were. -/
  aside : ∀ id, n.kind? id ≠ some .client → m.links.get? id = n.links.get? id ∧
    m.wires.table.get? id = n.wires.table.get? id
  /-- The errors stand in the slots of the requests.  What is in order then is sent, if there is
      room for it; if not, the link is filled up and goes. -/
  client : ∀ id l, n.links.get? id = some l → l.kind = .client →
    let order := l.order.fillAll (n.failing D id) (Frame.ofMessage (Message.failure text))
    let frames := order.release.2
    let socket := n.wires.table.get? id
    if frames.length ≤ n.wires.room id then
      m.links.get? id = some { l with order := order.release.1 } ∧
        m.wires.table.get? id = socket.map fun s => s.queue frames
    else
      m.links.get? id = none ∧
        m.wires.table.get? id = socket.map fun s => (s.queue (frames.take s.writer.room)).hangUp

/-- The nodes differ at most in the order in which the writers have something to do. -/
structure Agrees (n m : Node Sockets) : Prop where
  rest : n = { m with links := n.links, waiting := n.waiting, wires := n.wires }
  links : ∀ id, n.links.get? id = m.links.get? id
  waiting : ∀ tag, n.waiting.get? tag = m.waiting.get? tag
  sockets : ∀ id, n.wires.table.get? id = m.wires.table.get? id

namespace Failed

variable {D : PendingRequest → Bool} {text : String} {n m m' : Node Sockets}

/-- A client's link and its writer come out the same. -/
theorem client_eq (h : Failed D text n m) (h' : Failed D text n m') {id : LinkId} {l : Link}
    (hl : n.links.get? id = some l) (hk : l.kind = .client) :
    m.links.get? id = m'.links.get? id ∧ m.wires.table.get? id = m'.wires.table.get? id := by
  have hc := h.client id l hl hk
  have hc' := h'.client id l hl hk
  dsimp only at hc hc'
  split at hc
  · rename_i hroom
    rw [if_pos hroom] at hc'
    exact ⟨hc.1.trans hc'.1.symm, hc.2.trans hc'.2.symm⟩
  · rename_i hroom
    rw [if_neg hroom] at hc'
    exact ⟨hc.1.trans hc'.1.symm, hc.2.trans hc'.2.symm⟩

/-- What is left is the same, however the requests were worked off. -/
theorem agrees (h : Failed D text n m) (h' : Failed D text n m') : m.Agrees m' := by
  have hboth : ∀ id, m.links.get? id = m'.links.get? id ∧
      m.wires.table.get? id = m'.wires.table.get? id := by
    intro id
    by_cases hk : n.kind? id = some .client
    · obtain ⟨l, hl, hclient⟩ := kind?_eq_some.1 hk
      exact h.client_eq h' hl hclient
    · obtain ⟨hl, hw⟩ := h.aside id hk
      obtain ⟨hl', hw'⟩ := h'.aside id hk
      exact ⟨hl.trans hl'.symm, hw.trans hw'.symm⟩
  have htags : m.tags = m'.tags := by
    refine TagPool.ext_isOut (h.capacity.trans h'.capacity.symm) fun tag => ?_
    rw [h.isOut, h'.isOut]
  refine ⟨?_, fun id => (hboth id).1, fun tag => ?_, fun id => (hboth id).2⟩
  · rw [h.rest, h'.rest, htags]
  · have hlinks : ∀ id, m.links.contains id = m'.links.contains id := fun id =>
      congrArg Option.isSome (hboth id).1
    rw [h.waiting, h'.waiting]
    simp only [hlinks]

end Failed

end Node

/-! ## On the way -/

section

variable {σ : Type u} [Outbound σ]

/-- Failures touch nothing but the requests that wait, their tags, and the links and wires of
    clients. -/
theorem Phase.Move.rest {p q : Phase σ} (hm : p.Move q) (hc : p.Coherent) (hmt : p.Matched) :
    q.node = { p.node with
      tags := q.node.tags, links := q.node.links, waiting := q.node.waiting
      wires := q.node.wires } := by
  have hfulfil : ∀ {n told : Node σ} {r m lost held refused}, p = ⟨n, lost, (r, m) :: held⟩ →
      n.fulfil (some r) m = (told, refused) →
      told = { n with links := told.links, wires := told.wires } := by
    rintro n told r m lost held refused rfl hf
    have key : ∀ {q : Node σ × Option LinkId}, n.Fulfilled r.1 r.2 m q →
        q.1 = { n with links := q.1.links, wires := q.1.wires } := by
      intro q hq
      cases hq with
      | gone | kept => rfl
      | stray hl ho =>
        -- Every reply on its way is for a slot that is owed one, if the link is there.
        rcases (hmt.held (r := r) (List.mem_cons_self ..)).1 with hnone | ⟨l, hl', -, howed⟩
        · cases hl.symm.trans hnone
        · cases hl.symm.trans hl'
          cases ho.symm.trans howed
    have h := key (n.fulfil_cases r.1 r.2 m)
    rwa [hf] at h
  cases hm with
  | skip => rfl
  | @release n tag text lost held o ho =>
    have hout : n.tags.isOut tag = true := by
      rw [hc.tags, Table.contains_eq_true]
      exact ⟨o, ho⟩
    obtain ⟨tags, hr, -⟩ := Node.release_eq hout
    rw [hr]
  | @tell n told r m lost held hf =>
    have htold := hfulfil rfl hf
    show told = _
    rw [htold]
  | @refuse n told r m lost held id hf =>
    have htold := hfulfil rfl hf
    have hclient : told.kind? id = some .client := hmt.refused hf
    have ha : n.Alike told := Node.fulfil_alike hf
    obtain ⟨l, hl, hk⟩ := Node.kind?_eq_some.1 hclient
    have hct : Phase.Coherent ⟨told, lost, held⟩ := hc.alike ha fun _ hx => hx
    have hs := (hct.links id l hl).2.1
    have hd : (told.detach id).1 = { told with
        links := told.links.erase id
        wires := Outbound.hangUp told.wires id
        waiting := told.waiting.map fun _ o => o.forget id } := by
      have hactive : l.toClosing.2 = true := by simp [Link.toClosing, hs]
      simp only [Node.detach, hl, hactive, hk, if_true]
    show (told.detach id).1 = _
    rw [hd]
    dsimp only
    rw [htold]

end

namespace Phase

variable {D : PendingRequest → Bool} {text : String} {n : Node Sockets} {p q : Phase Sockets}

/-- How far the failures have got. -/
structure Failing (D : PendingRequest → Bool) (text : String) (n : Node Sockets)
    (p : Phase Sockets) : Prop extends p.Fails D text n where
  rest : p.node = { n with
    tags := p.node.tags, links := p.node.links, waiting := p.node.waiting, wires := p.node.wires }
  doomed : ∀ tag o, n.waiting.get? tag = some o → D o = true → p.Doomed tag
  aside : ∀ id, n.kind? id ≠ some .client → p.node.links.get? id = n.links.get? id ∧
    p.node.wires.table.get? id = n.wires.table.get? id
  clients : ∀ id l, n.links.get? id = some l → l.kind = .client →
    p.Fills id n l (n.failing D id) (Frame.ofMessage (Message.failure text))

namespace Failing

theorem start {work : List (Tag × String)} (hmt : Phase.Matched ⟨n, work, []⟩)
    (hwork : ∀ tag t, (tag, t) ∈ work ↔
      t = text ∧ ∃ o, n.waiting.get? tag = some o ∧ D o = true) :
    Phase.Failing D text n ⟨n, work, []⟩ where
  toSpares := .start hmt fun tag t o hin ho => by
    obtain ⟨-, o', ho', hD⟩ := (hwork tag t).1 hin
    cases ho.symm.trans ho'
    exact hD
  texts e he := ((hwork e.1 e.2).1 he).1
  replies _ _ _ hin := absurd hin List.not_mem_nil
  rest := rfl
  doomed tag o ho hD _ := ⟨text, (hwork tag text).2 ⟨rfl, o, ho, hD⟩⟩
  aside _ _ := ⟨rfl, rfl⟩
  clients id l hl _ := by
    suffices hs : Phase.Sends id n l (n.failing D id) (Frame.ofMessage (Message.failure text))
      l.order [] ⟨n, work, []⟩ from .there hs
    refine ⟨hl, rfl, Nat.zero_le _, ?_, fun i => ?_⟩
    · simp only [Socket.queue_nil, Option.map_id']
    · rw [List.map_nil, List.nil_append, ReplyOrder.getElem?_fillAll]
      cases hS : n.failing D id (l.order.first + i) with
      | false =>
        left
        simp
      | true =>
        obtain ⟨tag, o, ho, hD, hr⟩ := Node.failing_iff.1 hS
        have hawaits : n.Awaits tag (id, l.order.first + i) := ⟨o, ho, hr⟩
        obtain ⟨l', hl', -, howed⟩ := hmt.owes hawaits
        cases hl.symm.trans hl'
        have hnone : l.order.window[l.order.first + i - l.order.first]? = some none :=
          (ReplyOrder.isOwed_iff.1 howed).2
        rw [Nat.add_sub_cancel_left] at hnone
        rw [hnone]
        exact .inr ⟨rfl, rfl, .inr ⟨tag, text, (hwork tag text).2 ⟨rfl, o, ho, hD⟩, hawaits⟩⟩

theorem move (hm : p.Move q) (hc : p.Coherent) (hmt : p.Matched) (h : p.Failing D text n) :
    q.Failing D text n where
  toFails := h.toFails.move hm hc hmt
  rest := by
    have hrest := hm.rest hc hmt
    rw [h.rest] at hrest
    exact hrest
  doomed tag o ho hD := (h.doomed tag o ho hD).move hm
  aside id hk := by
    obtain ⟨hl, hw⟩ := h.aside id hk
    -- Only clients are told anything.
    have hclient : ∀ {l slot m}, p.node.links.get? id = some l → ((id, slot), m) ∈ p.held →
        False := by
      intro l slot m hl' hin
      have howes := (hmt.held (List.mem_map_of_mem hin)).1.resolve_left (by simp [hl'])
      obtain ⟨l', hl'', hkind, -⟩ := howes
      exact hk (Node.kind?_eq_some.2 ⟨l', hl.symm.trans hl'', hkind⟩)
    cases hm.seen hc hmt id with
    | aside hl' hw' => exact ⟨hl'.trans hl, hw'.trans hw⟩
    | told hl' hin => exact (hclient hl' hin).elim
    | refused hl' hin => exact (hclient hl' hin).elim
  clients id l hl hk := (h.clients id l hl hk).move hm hc hmt h.toFails

/-- Once nothing is left to do, a client has been sent all that is in order, or is gone. -/
theorem client_of_done {m : Node Sockets} {id : LinkId} {l : Link} {S : Nat → Bool} {f : Frame}
    (hmt : Phase.Matched ⟨m, [], []⟩) (h : Phase.Fills id n l S f ⟨m, [], []⟩) :
    let order := l.order.fillAll S f
    if order.release.2.length ≤ n.wires.room id then
      m.links.get? id = some { l with order := order.release.1 } ∧
        m.wires.table.get? id = (n.wires.table.get? id).map fun s => s.queue order.release.2
    else
      m.links.get? id = none ∧ m.wires.table.get? id = (n.wires.table.get? id).map fun s =>
        (s.queue (order.release.2.take s.writer.room)).hangUp := by
  intro filled
  cases h with
  | gone hl hover hw =>
    rw [if_neg (Nat.not_le.2 hover)]
    exact ⟨hl, hw⟩
  | @there order sent h =>
    have hwindow : sent.map some ++ order.window = filled.window :=
      List.ext_getElem? fun i => (h.known i).resolve_right fun hdue => Phase.not_due hdue.2.2
    have hfront : ReplyOrder.ready order.window = [] := hmt.front id _ h.link
    have hsent : filled.release.2 = sent := by
      show ReplyOrder.ready filled.window = sent
      rw [← hwindow, ReplyOrder.ready_map_append, hfront, List.append_nil]
    have horder : filled.release.1 = order := by
      have hdrop : filled.window.drop sent.length = order.window := by
        rw [← hwindow, List.drop_append_of_le_length (by rw [List.length_map]),
          List.drop_of_length_le (by rw [List.length_map]), List.nil_append]
      show ReplyOrder.mk (l.order.first + filled.release.2.length)
        (filled.window.drop filled.release.2.length) = order
      rw [hsent, hdrop, ← h.first]
    rw [hsent, horder, if_pos h.room]
    exact ⟨h.link, h.queued⟩

/-- Once nothing is left to do, the requests have failed. -/
theorem failed {m : Node Sockets} {work : List (Tag × String)}
    (hc : Phase.Coherent ⟨n, work, []⟩) (hmt : Phase.Matched ⟨n, work, []⟩)
    (hc' : Phase.Coherent ⟨m, [], []⟩) (hmt' : Phase.Matched ⟨m, [], []⟩)
    (h : Phase.Failing D text n ⟨m, [], []⟩) : n.Failed D text m := by
  have hwaiting : ∀ tag, m.waiting.get? tag =
      ((n.waiting.get? tag).filter fun o => !D o).map m.still := by
    intro tag
    cases ho : n.waiting.get? tag with
    | none =>
      refine Option.eq_none_iff_forall_not_mem.2 fun o' ho' => ?_
      obtain ⟨o, ho'', -⟩ := h.old tag o' ho'
      cases ho.symm.trans ho''
    | some o =>
      cases hD : D o with
      | true =>
        rw [Option.filter_some, if_neg (by simp [hD])]
        refine Option.eq_none_iff_forall_not_mem.2 fun o' ho' => ?_
        obtain ⟨t, hin⟩ := h.doomed tag o ho hD (Table.contains_eq_true.2 ⟨o', ho'⟩)
        cases hin
      | false =>
        rw [Option.filter_some, if_pos (by simp [hD])]
        exact h.get? ho (by simp [hD])
  refine ⟨h.rest, h.capacity, fun tag => ?_, hwaiting, fun tag o r ho _ hr => hmt.owes ⟨o, ho, hr⟩,
    h.aside, fun id l hl hk => client_of_done hmt' (h.clients id l hl hk)⟩
  rw [show m.tags.isOut tag = m.waiting.contains tag from hc'.tags tag,
    show n.tags.isOut tag = n.waiting.contains tag from hc.tags tag, Table.contains, hwaiting,
    Option.isSome_map, Table.contains]
  cases n.waiting.get? tag with
  | none => rfl
  | some o => cases hD : D o <;> simp [hD]

end Failing

end Phase

namespace Node

/-- Requests that fail together, worked off in any order. -/
theorem failAll_failed {D : PendingRequest → Bool} {text : String} {n : Node Sockets}
    {work : List (Tag × String)} (hc : Phase.Coherent ⟨n, work, []⟩)
    (hmt : Phase.Matched ⟨n, work, []⟩)
    (hwork : ∀ tag t, (tag, t) ∈ work ↔
      t = text ∧ ∃ o, n.waiting.get? tag = some o ∧ D o = true) :
    n.Failed D text (n.failAll work) := by
  have hm := failAll_moves n work []
  obtain ⟨hmt', h⟩ := hmt.moves Phase.Failing.move hm hc (Phase.Failing.start hmt hwork)
  exact h.failed hc hmt (hm.keeps Phase.Coherent.move hc) hmt'

/-- The requests with `D`, with what their requesters are told. -/
theorem mem_work {n : Node Sockets} {D : PendingRequest → Bool} {text : String}
    {work : List (Tag × String)}
    (hwork : work.Perm ((n.waiting.entries.filter fun e => D e.2).map fun e => (e.1, text)))
    (tag : Tag) (t : String) :
    (tag, t) ∈ work ↔ t = text ∧ ∃ o, n.waiting.get? tag = some o ∧ D o = true := by
  rw [hwork.mem_iff, List.mem_map]
  constructor
  · rintro ⟨⟨tag', o⟩, hin, heq⟩
    cases heq
    obtain ⟨hin, hD⟩ := List.mem_filter.1 hin
    exact ⟨rfl, o, Table.mem_entries.1 hin, hD⟩
  · rintro ⟨rfl, o, ho, hD⟩
    exact ⟨(tag, o), List.mem_filter.2 ⟨Table.mem_entries.2 ho, hD⟩, rfl⟩

/-- At any time of any run, the requests that are late fail when the node looks for them, and
    with a link to a shard fail the requests that left on it: their tags come back, each
    requester that is there has an error in its slot, and all else is as it was.  The order in
    which they are worked off makes no difference to the store, the tags, the tables, the
    replies that clients are owed and the frames that wait for the writers. -/
theorem run_fails {c : Config} {wires : Sockets} {actions : List (Action Sockets)}
    (h : (ofConfig c wires).admitsAll actions = true) :
    let n := (ofConfig c wires).run actions
    (∀ now work, work.Perm (n.late now) →
      n.Failed (fun o => o.deadline ≤ now) timeoutText (n.failAll work) ∧
        (n.failAll work).Agrees (n.expire now)) ∧
    ∀ id shard, n.kind? id = some (.dialed shard) →
      let gone : Node Sockets := { n with
        links := n.links.erase id
        wires := Outbound.hangUp n.wires id
        peers := n.peers.erase shard }
      let lost := (n.waiting.entries.filter fun e => e.2.target = id).map fun e =>
        (e.1, lostText shard)
      ∀ work, work.Perm lost →
        gone.Failed (fun o => o.target = id) (lostText shard) (gone.failAll work) ∧
          (gone.failAll work).Agrees (n.close id) := by
  intro n
  have hc : Phase.Coherent ⟨n, [], []⟩ := Phase.Coherent.run c wires actions
  have hmt : Phase.Matched ⟨n, [], []⟩ := Phase.Matched.run h
  refine ⟨fun now work hwork => ?_, fun id shard hk => ?_⟩
  · have hfails : ∀ {work}, work.Perm (n.late now) →
        n.Failed (fun o => o.deadline ≤ now) timeoutText (n.failAll work) := fun hwork =>
      failAll_failed (hc.alike {} nofun) hmt.same (mem_work hwork)
    exact ⟨hfails hwork, (hfails hwork).agrees (hfails (List.Perm.refl _))⟩
  · intro gone lost
    obtain ⟨l, hl, hkind⟩ := kind?_eq_some.1 hk
    have hs : ∀ l, n.links.get? id = some l → l.state = .active := fun l hl =>
      (hc.links id l hl).2.1
    have hd : n.detach id = (gone, lost) := by
      rw [detach_dialed hl (hs l hl) hkind, if_pos ((hc.peers shard id).2 hk)]
    have hclose : n.close id = gone.failAll lost := by rw [close, hd]
    have hgone : ∀ {work}, work.Perm lost →
        Phase.Coherent ⟨gone, work, []⟩ ∧ Phase.Matched ⟨gone, work, []⟩ := by
      intro work hwork
      have hcd : Phase.Coherent ⟨(n.detach id).1, (n.detach id).2 ++ [], []⟩ := hc.detach id
      have hmd : Phase.Matched ⟨(n.detach id).1, work, []⟩ := hmt.detach id hs
      rw [hd] at hcd hmd
      refine ⟨hcd.alike {} fun x hx => ?_, hmd⟩
      rw [List.append_nil] at hx
      exact hwork.mem_iff.2 hx
    have hfails : ∀ {work}, work.Perm lost →
        gone.Failed (fun o => o.target = id) (lostText shard) (gone.failAll work) := fun hwork =>
      failAll_failed (hgone hwork).1 (hgone hwork).2 (mem_work hwork)
    intro work hwork
    rw [hclose]
    exact ⟨hfails hwork, (hfails hwork).agrees (hfails (List.Perm.refl _))⟩

/-- The client asks for two objects of shard 1, which does not answer.  The writers go on after
    each request. -/
def silentRun : List (Action Sockets) :=
  let writes : Action Sockets := .rewire fun ps => ps.settle.1
  [.attach .client, .attach (.dialed 1), wants [97], writes, wants [98], writes]

/-- In whichever order the two requests expire, the client's queue holds one of the errors and
    the client goes. -/
theorem run_fails_silent :
    let n := (prompt 1).run silentRun
    (prompt 1).admitsAll silentRun = true ∧ (n.late 5000).length = 2 ∧
      ∀ work, work.Perm (n.late 5000) → (n.failAll work).links.get? 0 = none ∧
        ((n.failAll work).wires.table.get? 0).map (fun s => s.writer.inbox) =
          some [Frame.ofMessage (Message.failure timeoutText)] := by
  have ha : (prompt 1).admitsAll silentRun = true := by cbv
  have hlate : (((prompt 1).run silentRun).late 5000).length = 2 := by cbv
  have hkind : (((prompt 1).run silentRun).expire 5000).kind? 0 = none := by cbv
  have hinbox : ((((prompt 1).run silentRun).expire 5000).wires.table.get? 0).map
      (fun s => s.writer.inbox) = some [Frame.ofMessage (Message.failure timeoutText)] := by cbv
  obtain ⟨expires, -⟩ := run_fails ha
  refine ⟨ha, hlate, fun work hwork => ?_⟩
  obtain ⟨-, hagrees⟩ := expires 5000 work hwork
  refine ⟨?_, ?_⟩
  · exact (hagrees.links 0).trans (Option.map_eq_none_iff.1 hkind)
  · exact (congrArg (Option.map fun s => s.writer.inbox) (hagrees.sockets 0)).trans hinbox

end Node

end Depot
