/-
  Depot — requests that fail together.

  Requests that fail together are worked off in some order, and each brings an error to its
  requester, which may have to wait for earlier replies, may release replies that waited, and
  may be more than the client's queue holds.  What becomes of a client does not depend on the
  order: with all the errors in their slots, either what is in order fits and is sent, or as
  much of it is sent as there is room for and the link goes.  `Phase.Fills` says how far a
  client has got with that on the way.
-/
import Depot.Proofs.Node.Seen
import Depot.Proofs.Node.Spared

namespace Depot

/-! ## Orders with several replies filled in -/

namespace ReplyOrder

variable {α : Type u} {o : ReplyOrder α} {S : Nat → Bool} {reply : α}

/-- The order once the slots of `S` have this reply. -/
def fillAll (o : ReplyOrder α) (S : Nat → Bool) (reply : α) : ReplyOrder α :=
  { o with window := o.window.mapIdx fun i x => if S (o.first + i) then some reply else x }

theorem getElem?_fillAll (i : Nat) : (o.fillAll S reply).window[i]? =
    (o.window[i]?).map fun x => if S (o.first + i) then some reply else x :=
  List.getElem?_mapIdx

/-- Replies in front of a window are ready. -/
theorem ready_map_append (gs : List α) (w : List (Option α)) :
    ready (gs.map some ++ w) = gs ++ ready w := by
  induction gs with
  | nil => rfl
  | cons g gs ih => rw [List.map_cons, List.cons_append, ready, ih, List.cons_append]

theorem prefix_ready {gs : List α} {w : List (Option α)} (h : gs.map some <+: w) :
    gs <+: ready w := by
  obtain ⟨rest, rfl⟩ := h
  rw [ready_map_append]
  exact List.prefix_append _ _

end ReplyOrder

namespace Node

variable {σ : Type u}

/-- A request with `D` waits for the slot of the client. -/
def failing (n : Node σ) (D : PendingRequest → Bool) (id : LinkId) (slot : Nat) : Bool :=
  n.waiting.entries.any fun e => D e.2 && decide (e.2.requester = some (id, slot))

theorem failing_iff {n : Node σ} {D : PendingRequest → Bool} {id : LinkId} {slot : Nat} :
    n.failing D id slot = true ↔ ∃ tag o, n.waiting.get? tag = some o ∧ D o = true ∧
      o.requester = some (id, slot) := by
  rw [failing, List.any_eq_true]
  constructor
  · rintro ⟨⟨tag, o⟩, he, hboth⟩
    rw [Bool.and_eq_true, decide_eq_true_eq] at hboth
    exact ⟨tag, o, Table.mem_entries.1 he, hboth⟩
  · rintro ⟨tag, o, ho, hboth⟩
    refine ⟨(tag, o), Table.mem_entries.2 ho, ?_⟩
    rwa [Bool.and_eq_true, decide_eq_true_eq]

end Node

/-! ## The requests that fail -/

section

variable {σ : Type u}

/-- The requests of `n` with `D` fail with this text, and no others. -/
structure Phase.Fails (D : PendingRequest → Bool) (text : String) (n : Node σ)
    (p : Phase σ) : Prop extends p.Spares (fun o => D o = true) n where
  texts : ∀ e ∈ p.lost, e.2 = text
  replies : ∀ id slot m, ((id, slot), m) ∈ p.held →
    m = Message.failure text ∧ n.failing D id slot = true

namespace Phase.Fails

variable {D : PendingRequest → Bool} {text : String} {n : Node σ} {p q : Phase σ}

/-- The requester of a request that fails is one that is to be told. -/
theorem failing_of_lost (h : p.Spares (fun o => D o = true) n) {tag : Tag} {t : String}
    {id : LinkId} {slot : Nat} (hin : (tag, t) ∈ p.lost) (hw : p.node.Awaits tag (id, slot)) :
    n.failing D id slot = true := by
  obtain ⟨o', ho', hr⟩ := hw
  obtain ⟨o, ho, rfl⟩ := h.old tag o' ho'
  exact Node.failing_iff.2 ⟨tag, o, ho, h.lost tag t o hin ho, (Option.filter_eq_some_iff.1 hr).1⟩

variable [Outbound σ]

theorem move (hm : p.Move q) (hc : p.Coherent) (hmt : p.Matched) (h : p.Fails D text n) :
    q.Fails D text n := by
  have hs : q.Spares (fun o => D o = true) n := h.toSpares.move hm hc hmt
  cases hm with
  | skip => exact ⟨hs, fun e he => h.texts e (List.mem_cons_of_mem _ he), h.replies⟩
  | @release m tag t lost held o ho =>
    refine ⟨hs, fun e he => h.texts e (List.mem_cons_of_mem _ he), fun id slot msg hin => ?_⟩
    rcases List.mem_append.1 hin with hin | hin
    · obtain ⟨hr, rfl⟩ := PendingRequest.mem_replies.1 hin
      have ht : t = text := h.texts (tag, t) List.mem_cons_self
      exact ⟨by rw [ht], failing_of_lost h.toSpares List.mem_cons_self ⟨o, ho, hr⟩⟩
    · exact h.replies id slot msg hin
  | tell => exact ⟨hs, h.texts, fun id slot m hin => h.replies id slot m (List.mem_cons_of_mem _ hin)⟩
  | @refuse m told r msg lost held k hf =>
    refine ⟨hs, ?_, fun id slot m hin => h.replies id slot m (List.mem_cons_of_mem _ hin)⟩
    dsimp only
    rw [Node.lost_detach_client (hmt.refused hf), List.nil_append]
    exact h.texts

end Phase.Fails

end

/-! ## What a client is sent -/

/-- How far a client's link has got with what is in order once the slots of `S` have the reply
    `f`: it has sent these frames, and its order is `order` now.  A slot that does not have its
    reply yet is due one. -/
structure Phase.Sends (id : LinkId) (n : Node Sockets) (l : Link) (S : Nat → Bool) (f : Frame)
    (order : ReplyOrder Frame) (sent : List Frame) (p : Phase Sockets) : Prop where
  link : p.node.links.get? id = some { l with order }
  first : order.first = l.order.first + sent.length
  room : sent.length ≤ n.wires.room id
  queued : p.node.wires.table.get? id = (n.wires.table.get? id).map fun s => s.queue sent
  known : ∀ i, (sent.map some ++ order.window)[i]? = (l.order.fillAll S f).window[i]? ∨
    (sent.map some ++ order.window)[i]? = some none ∧
      (l.order.fillAll S f).window[i]? = some (some f) ∧ p.Due (id, l.order.first + i)

/-- A client's link sends what is in order, or there is no room for all of it and it goes. -/
inductive Phase.Fills (id : LinkId) (n : Node Sockets) (l : Link) (S : Nat → Bool) (f : Frame)
    (p : Phase Sockets) : Prop
  | there {order : ReplyOrder Frame} {sent : List Frame} (h : p.Sends id n l S f order sent)
  | gone (hl : p.node.links.get? id = none)
      (hover : n.wires.room id < (l.order.fillAll S f).release.2.length)
      (hw : p.node.wires.table.get? id = (n.wires.table.get? id).map fun s =>
        (s.queue ((l.order.fillAll S f).release.2.take s.writer.room)).hangUp)

variable {id : LinkId} {n : Node Sockets} {l : Link} {S : Nat → Bool} {f : Frame}
  {p q : Phase Sockets}

namespace Phase.Sends

variable {order order' : ReplyOrder Frame} {sent : List Frame} {slot : Nat}

/-- The slot has its reply, and the others are as before. -/
theorem fill (h : p.Sends id n l S f order sent) (hS : S slot = true)
    (hfill : order.fill? slot f = some order') (i : Nat) :
    (sent.map some ++ order'.window)[i]? = (l.order.fillAll S f).window[i]? ∨
      (sent.map some ++ order'.window)[i]? = some none ∧
        (l.order.fillAll S f).window[i]? = some (some f) ∧ p.Due (id, l.order.first + i) ∧
        l.order.first + i ≠ slot := by
  obtain ⟨-, hnone⟩ := ReplyOrder.isOwed_iff.1 (ReplyOrder.isOwed_of_fill? hfill)
  obtain ⟨hle, rfl⟩ := ReplyOrder.fill?_eq hfill
  obtain ⟨hlt, -⟩ := List.getElem?_eq_some_iff.1 hnone
  have hfirst := h.first
  have hset : sent.map some ++ order.window.set (slot - order.first) (some f) =
      (sent.map some ++ order.window).set (slot - l.order.first) (some f) := by
    rw [List.set_append_right _ _ (by rw [List.length_map]; omega), List.length_map,
      show slot - l.order.first - sent.length = slot - order.first by omega]
  have hold : (sent.map some ++ order.window)[slot - l.order.first]? = some none := by
    rw [List.getElem?_append_right (by rw [List.length_map]; omega), List.length_map,
      show slot - l.order.first - sent.length = slot - order.first by omega, hnone]
  show (sent.map some ++ order.window.set _ _)[i]? = _ ∨
    (sent.map some ++ order.window.set _ _)[i]? = _ ∧ _
  rw [hset]
  by_cases hi : slot - l.order.first = i
  · subst hi
    left
    obtain ⟨hin, -⟩ := List.getElem?_eq_some_iff.1 hold
    rw [List.getElem?_set_self hin]
    rcases h.known (slot - l.order.first) with hknown | ⟨-, hknown, -⟩
    · -- The slot is one of `S`, so it is not owed its reply once all are filled in.
      rw [hold, ReplyOrder.getElem?_fillAll,
        show l.order.first + (slot - l.order.first) = slot by omega, hS] at hknown
      obtain ⟨x, -, hx⟩ := Option.map_eq_some_iff.1 hknown.symm
      cases hx
    · exact hknown.symm
  · rw [List.getElem?_set_ne hi]
    refine (h.known i).imp_right ?_
    rintro ⟨hwindow, hfilled, hdue⟩
    exact ⟨hwindow, hfilled, hdue, by omega⟩

/-- What has been sent and what is released next are in order once all slots are filled. -/
theorem released (h : p.Sends id n l S f order sent) (hS : S slot = true)
    (hfill : order.fill? slot f = some order') :
    sent ++ order'.release.2 <+: (l.order.fillAll S f).release.2 := by
  refine ReplyOrder.prefix_ready (List.prefix_iff_getElem?.2 fun i hi => ?_)
  have hwindow : sent.map some ++ order'.window = (sent ++ order'.release.2).map some ++
      order'.window.drop order'.release.2.length := by
    rw [List.map_append, List.append_assoc]
    exact congrArg (sent.map some ++ ·) (ReplyOrder.ready_append_drop order'.window).symm
  have hget : (sent.map some ++ order'.window)[i]? = some ((sent ++ order'.release.2).map some)[i] := by
    rw [hwindow, List.getElem?_append_left hi, List.getElem?_eq_getElem hi]
  rcases h.fill hS hfill i with hknown | ⟨hnone, -⟩
  · rw [← hknown, hget]
  · rw [hget, List.getElem_map] at hnone
    cases hnone

/-- The room that is left. -/
theorem room_left (h : p.Sends id n l S f order sent) :
    p.node.wires.room id = n.wires.room id - sent.length := by
  rw [Sockets.room, h.queued, Sockets.room]
  cases n.wires.table.get? id with
  | none => exact (Nat.zero_sub _).symm
  | some s => simp

/-- What a link sends next waits behind what it has sent. -/
theorem sendAll (h : p.Sends id n l S f order sent) (hid : l.id = id) (hs : l.state = .active)
    (fs : List Frame) :
    (Link.sendAll { l with order } p.node.wires fs).1.table.get? id =
      (n.wires.table.get? id).map fun s => s.queue ((sent ++ fs).take s.writer.room) := by
  have hroom := h.room
  rw [Sockets.get?_sendAll (l := { l with order }) hs, h.queued, Option.map_map]
  cases hw : n.wires.table.get? id with
  | none => rfl
  | some s =>
    rw [Sockets.room_of_get? hw] at hroom
    simp only [Option.map_some, Function.comp_apply, hid, if_true, Socket.queue_take hroom]

/-- The client is told, and there is room for what is in order then. -/
theorem tell (h : p.Sends id n l S f order sent) (hid : l.id = id) (hs : l.state = .active)
    (hS : S slot = true) (hfill : order.fill? slot f = some order')
    (hw : Link.sendAll { l with order } p.node.wires order'.release.2 = (q.node.wires, none))
    (hl : q.node.links.get? id = some { l with order := order'.release.1 })
    (hd : ∀ s, s ≠ slot → (q.Due (id, s) ↔ p.Due (id, s))) :
    q.Sends id n l S f order'.release.1 (sent ++ order'.release.2) := by
  have hfits := (Sockets.sendAll_eq_none_iff (l := { l with order }) hs p.node.wires
    order'.release.2).1 (by rw [hw])
  replace hfits : order'.release.2.length ≤ p.node.wires.room l.id := hfits
  have hroom := h.room
  rw [hid, h.room_left] at hfits
  have hlength : (sent ++ order'.release.2).length ≤ n.wires.room id := by
    rw [List.length_append]
    omega
  have hwindow : (sent ++ order'.release.2).map some ++ order'.release.1.window =
      sent.map some ++ order'.window := by
    rw [List.map_append, List.append_assoc]
    exact congrArg (sent.map some ++ ·) (ReplyOrder.ready_append_drop order'.window)
  refine ⟨hl, ?_, hlength, ?_, fun i => ?_⟩
  · have hfirst : order'.first = order.first := by
      obtain ⟨-, rfl⟩ := ReplyOrder.fill?_eq hfill
      rfl
    show order'.first + order'.release.2.length = _
    rw [hfirst, h.first, List.length_append, Nat.add_assoc]
  · have hqueue := h.sendAll hid hs order'.release.2
    rw [hw] at hqueue
    rw [hqueue]
    cases hget : n.wires.table.get? id with
    | none => rfl
    | some s =>
      rw [Sockets.room_of_get? hget] at hlength
      rw [Option.map_some, Option.map_some, List.take_of_length_le hlength]
  · rw [hwindow]
    refine (h.fill hS hfill i).imp_right ?_
    rintro ⟨hnone, hfilled, hdue, hne⟩
    exact ⟨hnone, hfilled, (hd _ hne).2 hdue⟩

/-- There is no room for what is in order. -/
theorem refuse {wires : Sockets} {fault : Fault} (h : p.Sends id n l S f order sent)
    (hid : l.id = id) (hs : l.state = .active) (hS : S slot = true)
    (hfill : order.fill? slot f = some order')
    (hw : Link.sendAll { l with order } p.node.wires order'.release.2 = (wires, some fault)) :
    n.wires.room id < (l.order.fillAll S f).release.2.length ∧
      wires.table.get? id = (n.wires.table.get? id).map fun s =>
        s.queue ((l.order.fillAll S f).release.2.take s.writer.room) := by
  have hover := (Sockets.sendAll_eq_none_iff (l := { l with order }) hs p.node.wires
    order'.release.2).not.1 (by rw [hw]; exact Option.some_ne_none _)
  replace hover : ¬ order'.release.2.length ≤ p.node.wires.room l.id := hover
  have hroom := h.room
  rw [hid, h.room_left] at hover
  obtain ⟨rest, hrest⟩ := h.released hS hfill
  have hlength : n.wires.room id < (sent ++ order'.release.2).length := by
    rw [List.length_append]
    omega
  refine ⟨?_, ?_⟩
  · rw [← hrest, List.length_append]
    omega
  · have hqueue := h.sendAll hid hs order'.release.2
    rw [hw] at hqueue
    rw [hqueue]
    cases hget : n.wires.table.get? id with
    | none => rfl
    | some s =>
      rw [Sockets.room_of_get? hget] at hlength
      rw [Option.map_some, Option.map_some, ← hrest,
        List.take_append_of_le_length (Nat.le_of_lt hlength)]

end Phase.Sends

namespace Phase.Fills

variable {D : PendingRequest → Bool} {text : String} {m : Node Sockets}

theorem move (hm : p.Move q) (hc : p.Coherent) (hmt : p.Matched) (hf : p.Fails D text m)
    (h : p.Fills id n l (m.failing D id) (Frame.ofMessage (Message.failure text))) :
    q.Fills id n l (m.failing D id) (Frame.ofMessage (Message.failure text)) := by
  cases hm.seen hc hmt id with
  | aside hl hw hd =>
    cases h with
    | gone hnone hover hqueue => exact .gone (hl.trans hnone) hover (hw.trans hqueue)
    | there h =>
      have hthere : p.node.links.get? id ≠ none := by
        rw [h.link]
        exact Option.some_ne_none _
      refine .there { h with link := hl.trans h.link, queued := hw.trans h.queued, known := ?_ }
      intro i
      rw [hd hthere]
      exact h.known i
  | @told l' slot msg order' hl hin hfill hw hl' hd =>
    obtain ⟨hid, hs, -⟩ := hc.links id l' hl
    obtain ⟨rfl, hS⟩ := hf.replies id slot msg hin
    cases h with
    | gone hnone => cases hl.symm.trans hnone
    | there h =>
      cases hl.symm.trans h.link
      exact .there (h.tell hid hs hS hfill hw hl' hd)
  | @refused l' slot msg order' wires fault hl hin hfill hw hl' hq =>
    obtain ⟨hid, hs, -⟩ := hc.links id l' hl
    obtain ⟨rfl, hS⟩ := hf.replies id slot msg hin
    cases h with
    | gone hnone => cases hl.symm.trans hnone
    | there h =>
      cases hl.symm.trans h.link
      obtain ⟨hover, hqueue⟩ := h.refuse hid hs hS hfill hw
      refine .gone hl' hover ?_
      rw [hq, Sockets.get?_hangUp, hqueue, Option.map_map]
      simp only [if_true]
      rfl

end Phase.Fills

end Depot
