/-
  Depot — frames that wait for a writer.

  What a link sends goes into the inbox of its writer, as far as there is room:
  `get?_sendAll` and `sendAll_eq_none_iff` say what becomes of it, and that nothing changes
  for other links.

  `Queued ps id capacity count` says that the writer of a link has not ended and that
  `count` frames wait in its inbox, which holds `capacity`.
-/
import Depot.Link.Socket
import Depot.Proofs.Table
import Mathlib

namespace Depot

/-- How many frames the inbox still takes. -/
def Writer.room (w : Writer) : Nat := if w.hasEnded then 0 else w.capacity - w.pending

/-- A frame that is refused leaves the writer as it is. -/
theorem Writer.offer_refused {w : Writer} {f : Frame} (h : (w.offer f).2.fault? ≠ none) :
    (w.offer f).1 = w := by
  unfold offer at h ⊢
  split
  · rfl
  · rename_i hopen
    split
    · rfl
    · rename_i hroom
      rw [if_neg hopen, if_neg hroom] at h
      exact absurd rfl h

namespace Socket

/-- The socket once these frames wait too. -/
def queue (p : Socket) (fs : List Frame) : Socket :=
  { p with writer := { p.writer with inbox := p.writer.inbox ++ fs } }

/-- The socket once its link is given up. -/
def hangUp (p : Socket) : Socket := { p with writer := p.writer.hangUp, isReading := false }

@[simp] theorem queue_nil (p : Socket) : p.queue [] = p := by
  simp only [queue, List.append_nil]

theorem queue_append (p : Socket) (fs gs : List Frame) :
    p.queue (fs ++ gs) = (p.queue fs).queue gs := by
  simp only [queue, List.append_assoc]

@[simp] theorem hasEnded_queue (p : Socket) (fs : List Frame) :
    (p.queue fs).writer.hasEnded = p.writer.hasEnded := rfl

@[simp] theorem room_queue (p : Socket) (fs : List Frame) :
    (p.queue fs).writer.room = p.writer.room - fs.length := by
  unfold Writer.room
  rw [hasEnded_queue]
  split
  · exact (Nat.zero_sub _).symm
  · show p.writer.capacity - (p.writer.inbox ++ fs).length = _
    rw [List.length_append, Nat.sub_add_eq]
    rfl

/-- What there is room for waits. -/
theorem queue_take {p : Socket} {fs : List Frame} (h : fs.length ≤ p.writer.room)
    (gs : List Frame) :
    (p.queue fs).queue (gs.take (p.queue fs).writer.room) =
      p.queue ((fs ++ gs).take p.writer.room) := by
  rw [room_queue, ← queue_append, List.take_append, List.take_of_length_le h]

theorem writer_offer (p : Socket) (f : Frame) :
    { p with writer := (p.writer.offer f).1 } = p.queue ([f].take p.writer.room) := by
  unfold Writer.offer Writer.room
  split
  · exact (queue_nil p).symm
  · split
    · rename_i hfull
      rw [Nat.sub_eq_zero_of_le hfull]
      exact (queue_nil p).symm
    · rename_i hroom
      rw [List.take_of_length_le (by simp only [List.length_singleton]; omega)]
      rfl

theorem fault?_offer (p : Socket) (f : Frame) :
    (p.writer.offer f).2.fault? = none ↔ 0 < p.writer.room := by
  unfold Writer.offer Writer.room
  split
  · simp [Offer.fault?]
  · split
    · rename_i hfull
      simpa [Offer.fault?] using hfull
    · rename_i hroom
      simpa [Offer.fault?] using hroom

end Socket

namespace Sockets

/-- How many frames the writer of a link still takes. -/
def room (ps : Sockets) (id : LinkId) : Nat :=
  ((ps.table.get? id).map fun p => p.writer.room).getD 0

/-- So many frames wait for the writer of the link, which has not ended, in an inbox of this
    capacity. -/
def Queued (ps : Sockets) (id : LinkId) (capacity count : Nat) : Prop :=
  ∃ p, ps.table.get? id = some p ∧ p.writer.hasEnded = false ∧ p.writer.capacity = capacity ∧
    p.writer.pending = count

theorem room_of_get? {ps : Sockets} {id : LinkId} {p : Socket} (h : ps.table.get? id = some p) :
    ps.room id = p.writer.room := by
  rw [room, h]
  rfl

@[simp] theorem table_wake (ps : Sockets) (id : LinkId) : (ps.wake id).table = ps.table := by
  unfold wake
  split <;> rfl

theorem get?_hangUp (ps : Sockets) (id k : LinkId) :
    (Outbound.hangUp ps id).table.get? k =
      (ps.table.get? k).map fun p => if k = id then p.hangUp else p := by
  show ((ps.modify id _).wake id).table.get? k = _
  rw [table_wake, modify, Table.get?_modify]
  rfl

theorem get?_hangUp_other {id k : LinkId} (h : k ≠ id) (ps : Sockets) :
    (Outbound.hangUp ps id).table.get? k = ps.table.get? k := by
  rw [get?_hangUp]
  simp only [h, if_false, Option.map_id']

/-! ## What a link sends -/

theorem get?_offer (ps : Sockets) (k : LinkId) (f : Frame) (id : LinkId) :
    (Outbound.offer ps k f).1.table.get? id = (ps.table.get? id).map fun p =>
      if id = k then p.queue ([f].take p.writer.room) else p := by
  show (ps.offer k f).1.table.get? id = _
  unfold offer
  cases hk : ps.table.get? k with
  | none =>
    by_cases hid : id = k
    · subst hid
      simp [hk]
    · simp [hid]
  | some p =>
    simp only [table_wake, modify, Table.get?_modify]
    by_cases hid : id = k
    · subst hid
      simp [hk, Socket.writer_offer]
    · simp [hid]

theorem fault?_offer (ps : Sockets) (id : LinkId) (f : Frame) :
    (Outbound.offer ps id f).2.fault? = none ↔ 0 < ps.room id := by
  show (ps.offer id f).2.fault? = none ↔ _
  unfold offer
  cases h : ps.table.get? id with
  | none => simp [room, h, Offer.fault?]
  | some p => simpa [room, h] using p.fault?_offer f

theorem room_offer (ps : Sockets) (id : LinkId) (f : Frame) :
    (Outbound.offer ps id f).1.room id = ps.room id - 1 := by
  rw [room, get?_offer, room]
  cases ps.table.get? id with
  | none => rfl
  | some p =>
    simp only [Option.map_some, Option.getD_some, if_true, Socket.room_queue, List.length_take,
      List.length_singleton]
    omega

/-- A link that is given up after it refused a frame is as if nothing had been offered. -/
theorem hangUp_offer {ps : Sockets} {id : LinkId} {f : Frame}
    (h : (Outbound.offer ps id f).2.fault? ≠ none) :
    Outbound.hangUp (Outbound.offer ps id f).1 id = Outbound.hangUp ps id := by
  have hwake : (ps.wake id).hangUp id = ps.hangUp id := by
    by_cases hin : id ∈ ps.woken <;> simp [hangUp, wake, modify, hin]
  replace h : (ps.offer id f).2.fault? ≠ none := h
  show (ps.offer id f).1.hangUp id = ps.hangUp id
  unfold offer at h ⊢
  cases hp : ps.table.get? id with
  | none => rfl
  | some p =>
    simp only [hp] at h ⊢
    have hsame : (ps.modify id fun q => { q with writer := (p.writer.offer f).1 }) = ps := by
      rw [Writer.offer_refused h, modify, Table.modify_eq_self]
      intro q hq
      cases hp.symm.trans hq
      rfl
    rw [hsame, hwake]

/-- What a link sends waits for its writer, as far as there is room. -/
theorem get?_sendAll {l : Link} (hs : l.state = .active) (ps : Sockets) (fs : List Frame)
    (k : LinkId) :
    (l.sendAll ps fs).1.table.get? k = (ps.table.get? k).map fun p =>
      if k = l.id then p.queue (fs.take p.writer.room) else p := by
  induction fs generalizing ps with
  | nil => simp [Link.sendAll]
  | cons f fs ih =>
    unfold Link.sendAll
    rw [Link.send_of_active hs]
    cases hfault : (Outbound.offer ps l.id f).2.fault? with
    | some fault =>
      have hroom : ps.room l.id = 0 := by
        have := (fault?_offer ps l.id f).not.1 (by rw [hfault]; exact Option.some_ne_none _)
        omega
      dsimp only
      rw [get?_offer]
      cases hp : ps.table.get? k with
      | none => rfl
      | some p =>
        by_cases hk : k = l.id
        · subst hk
          rw [room_of_get? hp] at hroom
          simp [hroom]
        · simp [hk]
    | none =>
      dsimp only
      rw [ih, get?_offer, Option.map_map]
      have hroom := (fault?_offer ps l.id f).1 hfault
      cases hp : ps.table.get? k with
      | none => rfl
      | some p =>
        by_cases hk : k = l.id
        · subst hk
          rw [room_of_get? hp] at hroom
          have hfits : [f].length ≤ p.writer.room := hroom
          simp only [Option.map_some, Function.comp_apply, if_true, List.take_of_length_le hfits,
            Socket.queue_take hfits, List.singleton_append]
        · simp [hk]

/-- All of it, unless that is more than there is room for. -/
theorem sendAll_eq_none_iff {l : Link} (hs : l.state = .active) (ps : Sockets) (fs : List Frame) :
    (l.sendAll ps fs).2 = none ↔ fs.length ≤ ps.room l.id := by
  induction fs generalizing ps with
  | nil => simp [Link.sendAll]
  | cons f fs ih =>
    have hroom := fault?_offer ps l.id f
    unfold Link.sendAll
    rw [Link.send_of_active hs, List.length_cons]
    cases hfault : (Outbound.offer ps l.id f).2.fault? with
    | some fault =>
      rw [hfault] at hroom
      simp only [reduceCtorEq, false_iff] at hroom ⊢
      omega
    | none =>
      rw [hfault] at hroom
      simp only [true_iff] at hroom
      dsimp only
      rw [ih, room_offer]
      omega

/-- Nothing of it goes to other links. -/
theorem get?_sendAll_other {l : Link} {k : LinkId} (hk : l.id ≠ k) (ps : Sockets)
    (fs : List Frame) : (l.sendAll ps fs).1.table.get? k = ps.table.get? k := by
  by_cases hs : l.state = .active
  · rw [get?_sendAll hs]
    simp only [Ne.symm hk, if_false, Option.map_id']
  · cases fs with
    | nil => rfl
    | cons f fs =>
      unfold Link.sendAll Link.send
      rw [if_neg hs]

/-! ## Inboxes by their counts -/

namespace Queued

variable {ps : Sockets} {id k : LinkId} {capacity count : Nat} {l : Link}

theorem congr {ps' : Sockets} (h : ps.Queued id capacity count)
    (hw : ps'.table.get? id = ps.table.get? id) : ps'.Queued id capacity count := by
  rwa [Queued, hw]

theorem room_eq (h : ps.Queued id capacity count) : ps.room id = capacity - count := by
  obtain ⟨p, hp, hopen, rfl, rfl⟩ := h
  rw [room_of_get? hp, Writer.room, hopen]
  rfl

theorem hangUp (h : ps.Queued id capacity count) (k : LinkId) :
    (Outbound.hangUp ps k).Queued id capacity count := by
  obtain ⟨p, hp, hopen, hcapacity, hcount⟩ := h
  refine ⟨if id = k then p.hangUp else p, ?_, ?_⟩
  · rw [get?_hangUp, hp]
    rfl
  · split
    · exact ⟨hopen, hcapacity, hcount⟩
    · exact ⟨hopen, hcapacity, hcount⟩

/-- What is sent waits, as far as the inbox holds it. -/
theorem queue (h : ps.Queued id capacity count) (hid : l.id = id) (hs : l.state = .active)
    (fs : List Frame) :
    (l.sendAll ps fs).1.Queued id capacity (count + min fs.length (capacity - count)) := by
  have hroom := h.room_eq
  obtain ⟨p, hp, hopen, hcapacity, hcount⟩ := h
  rw [room_of_get? hp] at hroom
  refine ⟨p.queue (fs.take p.writer.room), ?_, hopen, hcapacity, ?_⟩
  · rw [get?_sendAll hs, hp, Option.map_some, if_pos hid.symm]
  · show (p.writer.inbox ++ fs.take p.writer.room).length = _
    rw [List.length_append, List.length_take, hroom, Nat.min_comm, ← hcount]
    rfl

/-- What there is room for is sent. -/
theorem sendAll {fs : List Frame} (h : ps.Queued id capacity count)
    (hroom : count + fs.length ≤ capacity) (hid : l.id = id) (hs : l.state = .active) :
    ∃ ps', l.sendAll ps fs = (ps', none) ∧ ps'.Queued id capacity (count + fs.length) := by
  have hfits : (l.sendAll ps fs).2 = none := by
    rw [sendAll_eq_none_iff hs, hid, h.room_eq]
    omega
  have hq := h.queue hid hs fs
  rw [Nat.min_eq_left (by omega)] at hq
  exact ⟨_, Prod.ext rfl hfits, hq⟩

/-- Sending more than there is room for fails, and leaves the inbox full. -/
theorem sendAll_over {fs : List Frame} (h : ps.Queued id capacity count)
    (hcount : count ≤ capacity) (hover : capacity < count + fs.length) (hid : l.id = id)
    (hs : l.state = .active) :
    ∃ ps' fault, l.sendAll ps fs = (ps', some fault) ∧ ps'.Queued id capacity capacity := by
  have hfault : (l.sendAll ps fs).2 ≠ none := by
    rw [Ne, sendAll_eq_none_iff hs, hid, h.room_eq]
    omega
  obtain ⟨fault, hfault⟩ := Option.ne_none_iff_exists'.1 hfault
  have hq := h.queue hid hs fs
  rw [Nat.min_eq_right (by omega), Nat.add_sub_cancel' hcount] at hq
  exact ⟨_, fault, Prod.ext rfl hfault, hq⟩

/-- A link takes a frame while there is room. -/
theorem send (h : ps.Queued id capacity count) (hroom : count < capacity) (hid : l.id = id)
    (hs : l.state = .active) (f : Frame) : (l.send ps f).2 = none := by
  rw [Link.send_of_active hs, fault?_offer, hid, h.room_eq]
  omega

end Queued

end Sockets

end Depot
