/-
  Depot — how many replies go to a client at once.

  Within one action any number of replies may get in order for a client.  `Phase.Streams` says
  how far its link has got with them while it is there, and `Phase.Bursts` what is known of a
  link whose queue was empty when the action began: it has sent all that is in order, or there
  was more than its queue holds and it is gone.
-/
import Depot.Proofs.Node.Calm
import Depot.Proofs.Node.Seen

namespace Depot

/-! ## Replies that wait in their order -/

namespace ReplyOrder

variable {α : Type u} {o o' : ReplyOrder α} {slot s : Nat} {reply : α}

/-- The reply of the slot is there, and waits for those before it. -/
def Keeps (o : ReplyOrder α) (slot : Nat) : Prop :=
  o.first ≤ slot ∧ ∃ reply, o.window[slot - o.first]? = some (some reply)

theorem keeps_reserve : o.reserve.1.Keeps slot ↔ o.Keeps slot := by
  refine and_congr_right fun h => exists_congr fun reply => ?_
  show (o.window ++ [none])[slot - o.first]? = _ ↔ _
  rw [List.getElem?_append]
  split
  · rfl
  · rename_i hlt
    rw [List.getElem?_eq_none (Nat.not_lt.1 hlt), List.getElem?_singleton]
    split <;> simp

theorem keeps_fill? (h : o.fill? slot reply = some o') : o'.Keeps s ↔ o.Keeps s ∨ s = slot := by
  obtain ⟨-, hnone⟩ := isOwed_iff.1 (isOwed_of_fill? h)
  obtain ⟨hle, rfl⟩ := fill?_eq h
  obtain ⟨hlt, -⟩ := List.getElem?_eq_some_iff.1 hnone
  unfold Keeps
  dsimp only
  by_cases hs : s = slot
  · subst hs
    simp [hle, hlt]
  · constructor
    · rintro ⟨hfirst, reply', hreply⟩
      rw [List.getElem?_set_ne (by omega)] at hreply
      exact .inl ⟨hfirst, reply', hreply⟩
    · rintro (⟨hfirst, reply', hreply⟩ | hslot)
      · exact ⟨hfirst, reply', by rw [List.getElem?_set_ne (by omega), hreply]⟩
      · exact absurd hslot hs

/-- The replies that are released are the first that are there. -/
theorem keeps_of_ready (h : s < (ready o.window).length) : o.Keeps (o.first + s) := by
  have hwindow : ((ready o.window).map some ++ o.window.drop (ready o.window).length)[s]? =
      o.window[s]? := by rw [ready_append_drop]
  refine ⟨Nat.le_add_right _ _, (ready o.window)[s], ?_⟩
  rw [Nat.add_sub_cancel_left, ← hwindow, List.getElem?_append_left (by simpa using h),
    List.getElem?_map, List.getElem?_eq_getElem h]
  rfl

theorem keeps_release :
    o.release.1.Keeps s ↔ o.Keeps s ∧ o.first + (ready o.window).length ≤ s := by
  unfold Keeps
  show (o.first + (ready o.window).length ≤ s ∧ ∃ reply,
    (o.window.drop (ready o.window).length)[s - (o.first + (ready o.window).length)]? =
      some (some reply)) ↔ _
  rw [List.getElem?_drop]
  constructor
  · rintro ⟨hle, reply, hreply⟩
    refine ⟨⟨by omega, reply, ?_⟩, hle⟩
    rwa [show s - o.first = (ready o.window).length + (s - (o.first + (ready o.window).length)) by
      omega]
  · rintro ⟨⟨-, reply, hreply⟩, hle⟩
    refine ⟨hle, reply, ?_⟩
    rwa [show (ready o.window).length + (s - (o.first + (ready o.window).length)) = s - o.first by
      omega]

theorem first_release : o.release.1.first = o.first + (ready o.window).length := rfl

/-- The replies that are there once one is filled in, and are not released then. -/
theorem keeps_fill?_release (h : o.fill? slot reply = some o') :
    o'.release.1.Keeps s ↔ (o.Keeps s ∨ s = slot) ∧ o'.release.1.first ≤ s := by
  rw [keeps_release, keeps_fill? h, first_release]

theorem first_release_fill? (h : o.fill? slot reply = some o') :
    o'.release.1.first = o.first + o'.release.2.length := by
  obtain ⟨-, rfl⟩ := fill?_eq h
  rfl

/-- The replies that are released once one is filled in. -/
theorem released_fill? (h : o.fill? slot reply = some o') (hle : o.first ≤ s)
    (hlt : s < o'.release.1.first) : o.Keeps s ∨ s = slot := by
  obtain ⟨-, horder⟩ := fill?_eq h
  have hsame : o'.first = o.first := by rw [horder]
  rw [first_release] at hlt
  have hkept : o'.Keeps (o'.first + (s - o'.first)) := keeps_of_ready (by omega)
  rw [show o'.first + (s - o'.first) = s by omega] at hkept
  exact (keeps_fill? h).1 hkept

theorem not_keeps_first (h : ready o.window = []) : ¬ o.Keeps o.first := by
  rintro ⟨-, reply, hreply⟩
  rw [Nat.sub_self] at hreply
  cases hw : o.window with
  | nil => simp [hw] at hreply
  | cons x w =>
    cases x with
    | none => simp [hw] at hreply
    | some reply' => simp [hw, ready] at h

theorem lt_next_of_keeps (h : o.Keeps slot) : slot < o.next := by
  obtain ⟨hle, reply, hreply⟩ := h
  obtain ⟨hlt, -⟩ := List.getElem?_eq_some_iff.1 hreply
  unfold next
  omega

end ReplyOrder

/-! ## A burst -/

/-- What a client's link has sent within an action, from the slot `first` on.  `S` are the
    requesters whose replies are there once the action is over; those that the link has not
    sent are kept or due. -/
structure Phase.Streams (id : LinkId) (first capacity : Nat) (S : LinkId × Nat → Prop) (l : Link)
    (p : Phase Sockets) : Prop where
  link : p.node.links.get? id = some l
  client : l.kind = .client
  first_le : first ≤ l.order.first
  room : l.order.first ≤ first + capacity
  queued : p.node.wires.Queued id capacity (l.order.first - first)
  sent : ∀ slot, first ≤ slot → slot < l.order.first → S (id, slot)
  rest : ∀ slot, l.order.first ≤ slot → (S (id, slot) ↔ l.order.Keeps slot ∨ p.Due (id, slot))

/-- A client's link sends what is in order while there is room, or there was more and it is
    gone. -/
inductive Phase.Bursts (id : LinkId) (first capacity : Nat) (S : LinkId × Nat → Prop)
    (p : Phase Sockets) : Prop
  | there {l : Link} (h : p.Streams id first capacity S l)
  | gone (hl : p.node.links.get? id = none) (hq : p.node.wires.Queued id capacity capacity)
      (hall : ∀ slot, first ≤ slot → slot ≤ first + capacity → S (id, slot))

theorem Node.queued_detach {n : Node Sockets} {id : LinkId} {capacity count : Nat}
    (h : n.wires.Queued id capacity count) (k : LinkId) :
    (n.detach k).1.wires.Queued id capacity count := by
  have key : ∀ {q : Node Sockets × List (Tag × String)}, n.Detached k q →
      q.1.wires.Queued id capacity count := by
    intro q hq
    cases hq with
    | absent => exact h
    | idle | client | dialed | accepted => exact h.hangUp k
  exact key (n.detach_cases k)

variable {id : LinkId} {first capacity : Nat} {S : LinkId × Nat → Prop} {p q : Phase Sockets}

namespace Phase.Streams

variable {l : Link} {slot : Nat} {m : Message} {order : ReplyOrder Frame}

/-- What is released once the client is told are replies that are there. -/
theorem released (h : p.Streams id first capacity S l) (hm : ((id, slot), m) ∈ p.held)
    (hfill : l.order.fill? slot (Frame.ofMessage m) = some order) {s : Nat} (hle : first ≤ s)
    (hlt : s < order.release.1.first) : S (id, s) := by
  by_cases hold : s < l.order.first
  · exact h.sent s hle hold
  · have hle' := Nat.le_of_not_lt hold
    refine (h.rest s hle').2 ((ReplyOrder.released_fill? hfill hle' hlt).imp_right ?_)
    rintro rfl
    exact .inl (List.mem_map_of_mem hm)

/-- What is in order once the client is told goes if there is room. -/
theorem tell (h : p.Streams id first capacity S l) (hm : ((id, slot), m) ∈ p.held)
    (hid : l.id = id) (hs : l.state = .active)
    (hfill : l.order.fill? slot (Frame.ofMessage m) = some order)
    (hw : l.sendAll p.node.wires order.release.2 = (q.node.wires, none))
    (hl : q.node.links.get? id = some { l with order := order.release.1 })
    (hd : ∀ s, s ≠ slot → (q.Due (id, s) ↔ p.Due (id, s))) :
    q.Streams id first capacity S { l with order := order.release.1 } := by
  have hfirst := h.first_le
  have hbefore := h.room
  have hlast := ReplyOrder.first_release_fill? hfill
  have hfits := (Sockets.sendAll_eq_none_iff hs p.node.wires order.release.2).1 (by rw [hw])
  rw [hid, h.queued.room_eq] at hfits
  have hcount : l.order.first - first + order.release.2.length ≤ capacity := by omega
  obtain ⟨wires, hsend, hq⟩ := h.queued.sendAll hcount hid hs
  cases hsend.symm.trans hw
  refine ⟨hl, h.client, ?_, ?_, ?_, fun s => h.released hm hfill, fun s hle => ?_⟩
  · show first ≤ order.release.1.first
    omega
  · show order.release.1.first ≤ first + capacity
    omega
  · show q.node.wires.Queued id capacity (order.release.1.first - first)
    rwa [show order.release.1.first - first =
      l.order.first - first + order.release.2.length by omega]
  · replace hle : order.release.1.first ≤ s := hle
    have hrest := h.rest s (by omega)
    show S (id, s) ↔ order.release.1.Keeps s ∨ _
    rw [ReplyOrder.keeps_fill?_release hfill]
    by_cases hslot : s = slot
    · subst hslot
      exact iff_of_true (hrest.2 (.inr (.inl (List.mem_map_of_mem hm)))) (.inl ⟨.inr rfl, hle⟩)
    · refine hrest.trans (or_congr ?_ (hd s hslot).symm)
      simp [hslot, hle]

/-- If there is no room the link refuses, and its queue is full. -/
theorem refuse {wires : Sockets} {fault : Fault} (h : p.Streams id first capacity S l)
    (hm : ((id, slot), m) ∈ p.held) (hid : l.id = id) (hs : l.state = .active)
    (hfill : l.order.fill? slot (Frame.ofMessage m) = some order)
    (hw : l.sendAll p.node.wires order.release.2 = (wires, some fault)) :
    wires.Queued id capacity capacity ∧
      ∀ s, first ≤ s → s ≤ first + capacity → S (id, s) := by
  have hfirst := h.first_le
  have hroom := h.room
  have hlast := ReplyOrder.first_release_fill? hfill
  have hover := (Sockets.sendAll_eq_none_iff hs p.node.wires order.release.2).not.1
    (by rw [hw]; exact Option.some_ne_none _)
  rw [hid, h.queued.room_eq] at hover
  have hcount : capacity < l.order.first - first + order.release.2.length := by omega
  obtain ⟨wires', fault', hsend, hfull⟩ := h.queued.sendAll_over (by omega) hcount hid hs
  cases hsend.symm.trans hw
  exact ⟨hfull, fun s hle hlt => h.released hm hfill hle (by omega)⟩

end Phase.Streams

namespace Phase.Bursts

/-- Nothing changes for the client. -/
theorem same (h : p.Bursts id first capacity S)
    (hl : q.node.links.get? id = p.node.links.get? id)
    (hw : q.node.wires.table.get? id = p.node.wires.table.get? id)
    (hd : p.node.links.get? id ≠ none → ∀ slot, q.Due (id, slot) ↔ p.Due (id, slot)) :
    q.Bursts id first capacity S := by
  cases h with
  | gone hnone hfull hall => exact .gone (hl.trans hnone) (hfull.congr hw) hall
  | there h =>
    refine .there { h with link := hl.trans h.link, queued := h.queued.congr hw, rest := ?_ }
    intro slot hle
    rw [hd (by rw [h.link]; exact Option.some_ne_none _)]
    exact h.rest slot hle

theorem move (hm : p.Move q) (hc : p.Coherent) (hmt : p.Matched)
    (h : p.Bursts id first capacity S) : q.Bursts id first capacity S := by
  cases hm.seen hc hmt id with
  | aside hl hw hd => exact h.same hl hw hd
  | told hl hin hf hw hl' hd =>
    obtain ⟨hid, hs, -⟩ := hc.links id _ hl
    cases h with
    | gone hnone => cases hl.symm.trans hnone
    | there h =>
      cases hl.symm.trans h.link
      exact .there (h.tell hin hid hs hf hw hl' hd)
  | refused hl hin hf hw hl' hq =>
    obtain ⟨hid, hs, -⟩ := hc.links id _ hl
    cases h with
    | gone hnone => cases hl.symm.trans hnone
    | there h =>
      cases hl.symm.trans h.link
      obtain ⟨hfull, hall⟩ := h.refuse hin hid hs hf hw
      exact .gone hl' (hq ▸ hfull.hangUp id) hall

end Phase.Bursts

end Depot
