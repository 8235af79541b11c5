/-
  Depot — requests that cannot be forwarded.

  A slot is reserved for the reply and a tag is drawn before a request is offered to the link to
  its shard.  `Refuses` lists why the request may not leave, with what becomes of the node then:
  nothing, or what becomes of it when that link is closed.  `ToldLast` says what becomes of the
  error in the new slot.  There is nothing else (`run_refuses`).
-/
import Depot.Proofs.Node.Closed
import Depot.Proofs.Node.Errand
import Depot.Proofs.Node.KeepsUp
import Depot.Proofs.Node.Slots

namespace Depot.Node

variable {n base : Node Sockets} {id : LinkId} {shard : ShardId} {request : PeerBody}
  {text : String}

/-- A link to a shard that refuses a request goes as if it had not been offered it. -/
theorem close_refused {target : LinkId} {f : Frame} {wires : Sockets} {fault : Fault}
    (hc : Phase.Coherent ⟨n, [], []⟩) (ht : n.peers.get? shard = some target)
    (hw : n.offerTo target shard f = (wires, some fault)) :
    { n with wires }.close target = n.close target := by
  obtain ⟨l, hl, hk⟩ := kind?_eq_some.1 ((hc.peers shard target).1 ht)
  obtain ⟨hid, hs, -⟩ := hc.links target l hl
  have hhang : Outbound.hangUp wires target = Outbound.hangUp n.wires target := by
    simp only [offerTo, hl, Link.send_of_active hs, hid] at hw
    obtain ⟨rfl, hfault⟩ := Prod.mk.inj hw
    exact Sockets.hangUp_offer (by rw [hfault]; exact Option.some_ne_none _)
  unfold close
  rw [detach_dialed hl hs hk, detach_dialed (n := { n with wires }) hl hs hk, hhang]

/-! ## Requests that do not leave -/

/-- Why a request to a shard does not leave, with what the node is like then but for the slot of
    the reply, and what the requester is told. -/
inductive Refuses (n : Node Sockets) (shard : ShardId) (request : PeerBody) :
    Node Sockets → String → Prop
  /-- There is no link to the shard. -/
  | unknown (ht : n.peers.get? shard = none) :
      Refuses n shard request n (Fault.noLink shard).message
  /-- There is no tag. -/
  | exhausted {target : LinkId} {e : TagError} (ht : n.peers.get? shard = some target)
      (hg : n.tags.draw = .error e) : Refuses n shard request n (Fault.tag e).message
  /-- The link to the shard does not take the request, and is closed. -/
  | severed {target : LinkId} {tags : TagPool} {tag : Tag} {fault : Fault}
      (ht : n.peers.get? shard = some target) (hg : n.tags.draw = .ok (tags, tag))
      (hw : (n.offerTo target shard (Frame.ofMessage (.peer tag request))).2 = some fault) :
      Refuses n shard request (n.close target) (severedText shard fault)

theorem offerTo_withSlot (n : Node Sockets) (id target : LinkId) (shard : ShardId) (f : Frame) :
    (n.withSlot id).offerTo target shard f = n.offerTo target shard f := by
  unfold offerTo
  rw [get?_withSlot]
  cases n.links.get? target with
  | none => rfl
  | some l =>
    dsimp only [Option.map_some]
    split <;> rfl

/-- Of the attempt the slot is left, and nothing else. -/
theorem Refuses.issue (h : n.Refuses shard request base text) (hc : Phase.Coherent ⟨n, [], []⟩)
    (hmt : Phase.Matched ⟨n, [], []⟩) (id : LinkId) (r : LinkId × Nat) :
    ∃ fault, Fault.message fault = text ∧
      (n.withSlot id).issue r shard request = (base.withSlot id, .error fault) := by
  cases h with
  | unknown ht =>
    refine ⟨.noLink shard, rfl, ?_⟩
    simp only [Node.issue, show (n.withSlot id).peers.get? shard = none from ht]
  | @exhausted target e ht hg =>
    refine ⟨.tag e, rfl, ?_⟩
    simp only [Node.issue, show (n.withSlot id).peers.get? shard = some target from ht,
      show (n.withSlot id).tags.draw = .error e from hg]
  | @severed target tags tag fault ht hg hw =>
    refine ⟨.invalid (severedText shard fault), rfl, ?_⟩
    obtain ⟨⟨wires, refused⟩, hoffer⟩ : ∃ w,
      n.offerTo target shard (Frame.ofMessage (.peer tag request)) = w := ⟨_, rfl⟩
    rw [hoffer] at hw
    cases hw
    -- The offer makes no difference once the link goes, and the slot none to what goes with it.
    have hclose : ({ n.withSlot id with wires } : Node Sockets).close target =
        (n.close target).withSlot id := by
      have hc' : Phase.Coherent ⟨{ n with wires }, [], []⟩ := hc.alike {} fun _ hx => hx
      have hmt' : Phase.Matched ⟨{ n with wires }, [], []⟩ := hmt.same
      have hslot := close_withSlot hc' hmt' id target
      rwa [close_refused hc ht hoffer] at hslot
    simp only [Node.issue, show (n.withSlot id).peers.get? shard = some target from ht,
      show (n.withSlot id).tags.draw = .ok (tags, tag) from hg, offerTo_withSlot, hoffer,
      reclaim_drawn (n := n.withSlot id) wires hg, hclose]

/-- A request leaves unless it is refused. -/
theorem sends?_eq_none_iff {l : Link} {m : Message} (hc : Phase.Coherent ⟨n, [], []⟩)
    (hmt : Phase.Matched ⟨n, [], []⟩) (hl : n.links.get? id = some l)
    (hd : m.forwarded? = some (shard, request)) :
    n.sends? (.event (.message id m)) = none ↔ ∃ base text, n.Refuses shard request base text := by
  constructor
  · intro hnone
    cases ht : n.peers.get? shard with
    | none => exact ⟨_, _, .unknown ht⟩
    | some target =>
      cases hg : n.tags.draw with
      | error e => exact ⟨_, _, .exhausted ht hg⟩
      | ok drawn =>
        obtain ⟨tags, tag⟩ := drawn
        obtain ⟨⟨wires, refused⟩, hoffer⟩ : ∃ w,
          n.offerTo target shard (Frame.ofMessage (.peer tag request)) = w := ⟨_, rfl⟩
        cases refused with
        | some fault => exact ⟨_, _, .severed ht hg (by rw [hoffer])⟩
        | none =>
          simp only [sends?, hl, hd, ht, reserve_eq_withSlot hl, Node.issue,
            show (n.withSlot id).peers.get? shard = some target from ht,
            show (n.withSlot id).tags.draw = .ok (tags, tag) from hg, offerTo_withSlot, hoffer]
            at hnone
          cases hnone
  · rintro ⟨base, text, h⟩
    obtain ⟨fault, -, hi⟩ := h.issue hc hmt id (id, l.order.next)
    simp only [sends?, hl, hd, reserve_eq_withSlot hl, hi]
    split <;> trivial

/-! ## The error in the new slot -/

/-- The requester's last slot has its reply, behind all its earlier ones; other than that the node
    is as it was, unless the requester goes. -/
inductive ToldLast (n : Node Sockets) (r : LinkId × Nat) (m : Message) : Node Sockets → Prop
  /-- The requester is gone already. -/
  | gone (hl : n.links.get? r.1 = none) : ToldLast n r m n
  /-- Earlier replies are owed, and the reply waits behind them. -/
  | behind {l : Link} (hl : n.links.get? r.1 = some l) (hslot : l.order.next = r.2)
      (howed : l.owed ≠ 0) :
      ToldLast n r m { n with
        links := n.links.modify r.1 fun _ => { l with
          order := { l.order with window := l.order.window ++ [some (Frame.ofMessage m)] } } }
  /-- No other reply is owed, and this one is queued. -/
  | queued {l : Link} (hl : n.links.get? r.1 = some l) (hslot : l.order.next = r.2)
      (howed : l.owed = 0) (hroom : 0 < n.wires.room r.1) :
      ToldLast n r m { n with
        links := n.links.modify r.1 fun _ => { l with order := ⟨r.2 + 1, []⟩ }
        wires := (Outbound.offer n.wires r.1 (Frame.ofMessage m)).1 }
  /-- No other reply is owed, but there is no room for this one, and the requester goes. -/
  | choked {l : Link} (hl : n.links.get? r.1 = some l) (hslot : l.order.next = r.2)
      (howed : l.owed = 0) (hroom : n.wires.room r.1 = 0) : ToldLast n r m (n.close r.1)

theorem fulfil_last {l : Link} (hl : n.links.get? id = some l) (m : Message) :
    (n.withSlot id).fulfil (some (id, l.order.next)) m =
      let told := l.reserve.1.fulfil n.wires l.order.next (Frame.ofMessage m)
      ({ n with links := n.links.modify id fun _ => told.1, wires := told.2.1 },
        told.2.2.map fun _ => id) := by
  have hget := n.get?_withSlot id id
  rw [hl, Option.map_some, if_pos rfl] at hget
  have howes : l.reserve.1.owes l.order.next = true := (ReplyOrder.isOwed_reserve ..).2 (.inr rfl)
  unfold fulfil
  simp only [hget, howes, if_true]
  simp only [withSlot, Table.modify_modify]

/-- A client's link that refuses a frame goes as if it had not been offered it. -/
theorem close_choked {told : Node Sockets} {l : Link} {f : Frame} {order : ReplyOrder Frame}
    (hl : n.links.get? id = some l) (hs : l.state = .active) (hk : l.kind = .client)
    (hw : (Outbound.offer n.wires id f).2.fault? ≠ none)
    (ht : told = { n with
      links := n.links.modify id fun _ => { l with order }
      wires := (Outbound.offer n.wires id f).1 }) : told.close id = n.close id := by
  have hl' : told.links.get? id = some { l with order } := by
    rw [ht]
    show (n.links.modify id _).get? id = _
    rw [Table.get?_replace hl, if_pos rfl]
  rw [close_client hl' hs hk, close_client hl hs hk, ht]
  simp only [Table.erase_modify_self, Sockets.hangUp_offer hw]

theorem tell_withSlot {slot : Nat} (hc : Phase.Coherent ⟨n, [], []⟩)
    (hmt : Phase.Matched ⟨n, [], []⟩) (hnext : n.NextSlot id slot) (m : Message) :
    n.ToldLast (id, slot) m ((n.withSlot id).tell (some (id, slot)) m) := by
  cases hl : n.links.get? id with
  | none =>
    have hsame : n.withSlot id = n := by
      rw [withSlot, Table.modify_eq_self]
      intro l hl'
      rw [hl] at hl'
      cases hl'
    have htell : n.tell (some (id, slot)) m = n := by
      simp only [tell, fulfil, hl]
    rw [hsame, htell]
    exact .gone hl
  | some l =>
    obtain ⟨hk, rfl⟩ := hnext l hl
    obtain ⟨hid, hs, -⟩ := hc.links id l hl
    unfold tell
    rw [fulfil_last hl]
    by_cases howed : l.owed = 0
    · have hsend := Link.send_of_active hs n.wires (Frame.ofMessage m)
      rw [hid] at hsend
      rw [Link.fulfil_next_of_free howed, hsend]
      have hroom := Sockets.fault?_offer n.wires id (Frame.ofMessage m)
      cases hfault : (Outbound.offer n.wires id (Frame.ofMessage m)).2.fault? with
      | none =>
        rw [hfault] at hroom
        exact .queued hl rfl howed (hroom.1 rfl)
      | some fault =>
        rw [hfault] at hroom
        have htold : n.ToldLast (id, l.order.next) m (n.close id) :=
          .choked hl rfl howed (by simpa using hroom)
        rw [← close_choked hl hs hk (by rw [hfault]; exact Option.some_ne_none _) rfl] at htold
        exact htold
    · rw [Link.fulfil_next_of_owed (hmt.front id l hl) howed]
      exact .behind hl rfl howed

/-! ## One action -/

/-- The tables agree as before, and the slot is next as before. -/
theorem Refuses.keeps {slot : Nat} (h : n.Refuses shard request base text)
    (hc : Phase.Coherent ⟨n, [], []⟩) (hmt : Phase.Matched ⟨n, [], []⟩)
    (hnext : n.NextSlot id slot) : Phase.Coherent ⟨base, [], []⟩ ∧
      Phase.Matched ⟨base, [], []⟩ ∧ base.NextSlot id slot := by
  cases h with
  | unknown | exhausted => exact ⟨hc, hmt, hnext⟩
  | @severed target =>
    have hadmits : n.admits (.event (.closed target none)) = true := rfl
    exact ⟨hc.act (.event (.closed target none)), hmt.act hadmits hc, hnext.close target⟩

variable {l : Link} {m : Message}

theorem act_refused (hc : Phase.Coherent ⟨n, [], []⟩) (hmt : Phase.Matched ⟨n, [], []⟩)
    (hl : n.links.get? id = some l) (hk : l.kind = .client)
    (hd : duty n.store m = .forward shard request) (h : n.Refuses shard request base text) :
    base.ToldLast (id, l.order.next) (Message.failure text)
      (n.act (.event (.message id m))) := by
  obtain ⟨fault, rfl, hissue⟩ := h.issue hc hmt id (id, l.order.next)
  rw [← reserve_eq_withSlot hl] at hissue
  have hact : n.act (.event (.message id m)) = n.forward id shard request := by
    show n.receive id m = _
    rw [receive, if_pos (Table.contains_eq_true.2 ⟨l, hl⟩), hd]
  have hnext : n.NextSlot id l.order.next := by
    intro l' hl'
    cases hl.symm.trans hl'
    exact ⟨hk, rfl⟩
  obtain ⟨hc', hmt', hnext'⟩ := h.keeps hc hmt hnext
  rw [hact, forward_error hl hissue]
  exact tell_withSlot hc' hmt' hnext' _

/-! ## Runs -/

/-- **A request that cannot be forwarded leaves nothing behind but its error.**  In a run in which
    links bring messages of their hop, a client's request to look up or to delete an object of
    another shard either leaves or is refused for one of the reasons of `Refuses`.  If it is refused, the node does what it would
    have done without the request, which is nothing or, if the link to the shard did not take it,
    to close that link; then the error stands in the client's new slot, behind its earlier ones,
    if the client is still there.  The error closes the client exactly if it is next to be sent and
    there is no room for it.  No tag is out that was not, so the one that was drawn is free, and no
    request waits for the new slot. -/
theorem run_refuses {c : Config} {wires : Sockets} {actions : List (Action Sockets)}
    (h : (ofConfig c wires).admitsAll actions = true) :
    let n := (ofConfig c wires).run actions
    ∀ id l m shard request, n.links.get? id = some l → l.kind = .client →
      m.forwarded? = some (shard, request) →
      let a : Action Sockets := .event (.message id m)
      (n.sends? a = none ↔ ∃ base text, n.Refuses shard request base text) ∧
      ∀ base text, n.Refuses shard request base text →
        base.ToldLast (id, l.order.next) (Message.failure text) (n.act a) ∧
        (∀ tag, (n.act a).tags.isOut tag = true → n.tags.isOut tag = true) ∧
        (∀ tags tag, n.tags.draw = .ok (tags, tag) → (n.act a).tags.isOut tag = false) ∧
        (∀ tag, (n.act a).waiting.contains tag = true → n.waiting.contains tag = true) ∧
        ∀ tag, ¬ (n.act a).Awaits tag (id, l.order.next) := by
  intro n id l m shard request hl hk hd a
  have hc : Phase.Coherent ⟨n, [], []⟩ := Phase.Coherent.run c wires actions
  have hmt : Phase.Matched ⟨n, [], []⟩ := Phase.Matched.run h
  have hrefused := sends?_eq_none_iff hc hmt hl hd
  refine ⟨hrefused, fun base text hr => ?_⟩
  have hthins : n.Thins (n.act a) := thins_act (hrefused.2 ⟨base, text, hr⟩)
  have hwaiting : ∀ tag, (n.act a).waiting.contains tag = true →
      n.waiting.contains tag = true := by
    intro tag hin
    obtain ⟨o', ho'⟩ := Table.contains_eq_true.1 hin
    obtain ⟨o, ho, -⟩ := hthins.waiting tag o' ho'
    exact Table.contains_eq_true.2 ⟨o, ho⟩
  have htags : ∀ tag, (n.act a).tags.isOut tag = true → n.tags.isOut tag = true := by
    intro tag hout
    rw [(hc.act a).tags tag] at hout
    rw [hc.tags tag]
    exact hwaiting tag hout
  refine ⟨act_refused hc hmt hl hk (duty_eq_forward_iff.2 hd) hr, htags, fun tags tag hg => ?_, hwaiting, ?_⟩
  · rw [← Bool.not_eq_true]
    intro hout
    have hfree := (TagPool.draw_spec hg).1
    rw [htags tag hout] at hfree
    cases hfree
  · rintro tag ⟨o', ho', hr'⟩
    obtain ⟨o, ho, -, hsame⟩ := hthins.waiting tag o' ho'
    obtain ⟨l', hl', -, howes⟩ := hmt.owes ⟨o, ho, hsame _ hr'⟩
    cases hl.symm.trans hl'
    exact Nat.lt_irrefl _ (ReplyOrder.lt_next_of_isOwed howes)

/-- A client with room for four frames, and a link to shard 1 with room for one. -/
def uneven : Node Sockets :=
  ofConfig (promptConfig 4)
    { table := Table.ofList [(0, promptSocket 4), (1, promptSocket 1)] }

/-- The client asks for an object of shard 1. -/
def fullRun : List (Action Sockets) := [.attach .client, .attach (.dialed 1), wants [97]]

/-- It asks to delete another one, and the link to the shard is full. -/
theorem run_refuses_full :
    let n := uneven.run fullRun
    let text := severedText 1 (.queueFull 1)
    let a : Action Sockets := .event (.message 0 (.client (.peerDelete [98] 1)))
    uneven.admitsAll fullRun = true ∧
      n.Refuses 1 (.delete [98]) (n.close 1) text ∧
      (n.close 1).ToldLast (0, 1) (Message.failure text) (n.act a) ∧
      (n.act a).tags.isOut 1 = false := by
  intro n text a
  have ha : uneven.admitsAll fullRun = true := by cbv
  have hlink : ((uneven.run fullRun).links.get? 0).map (fun l => (l.kind, l.order.next)) =
      some (.client, 1) := by cbv
  have hpeer : (uneven.run fullRun).peers.get? 1 = some 1 := by cbv
  have hdraw : (uneven.run fullRun).tags.draw.toOption.map Prod.snd = some 1 := by cbv
  have hoffer : ((uneven.run fullRun).offerTo 1 1
      (Frame.ofMessage (.peer 1 (.delete [98])))).2 = some (.queueFull 1) := by cbv
  obtain ⟨l, hl, hboth⟩ := Option.map_eq_some_iff.1 hlink
  obtain ⟨hk, hnext⟩ := Prod.mk.inj hboth
  obtain ⟨tags, hg⟩ : ∃ tags, n.tags.draw = .ok (tags, 1) := by
    cases hg : (uneven.run fullRun).tags.draw with
    | error e =>
      rw [hg] at hdraw
      cases hdraw
    | ok drawn =>
      rw [hg] at hdraw
      obtain ⟨tags, tag⟩ := drawn
      cases hdraw
      exact ⟨tags, rfl⟩
  have hr : n.Refuses 1 (.delete [98]) (n.close 1) text := .severed hpeer hg hoffer
  obtain ⟨-, hrefuses⟩ :=
    run_refuses ha 0 l (.client (.peerDelete [98] 1)) 1 (.delete [98]) hl hk rfl
  obtain ⟨htold, -, hfree, -⟩ := hrefuses _ _ hr
  rw [hnext] at htold
  exact ⟨ha, hr, htold, hfree tags 1 hg⟩

end Depot.Node
