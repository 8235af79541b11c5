/-
  Depot — writers with their handles and their outlets.

  An `Outbox` is a writer with the handles through which frames are offered to it, at an
  outlet that may answer anything.  Offers, handles that come and go, single steps of the
  writer and changes of the outlet follow each other in any order (`Outbox.run`).

  `Split` says where the frames are that were taken: some are written, some are with the
  writer, and the rest has not reached it.  `Staged` says what that means at each stage, and
  which calls were made by then.  `Sound.run` has both at every moment.
-/
import Depot.Proofs.Link.Stepped
import Mathlib

namespace Depot

/-- The bytes that a writer holds and has still to write. -/
def Writer.unwritten (w : Writer) : Bytes :=
  match w.stage with
  | .gathering batch _ | .writing batch => batch.bytes
  | .idle | .ended _ => []

/-- A writer, its handles and its outlet. -/
structure Outbox (σ : Type u) where
  writer : Writer
  outlet : Logged σ
  /-- The number of handles. -/
  handles : Nat := 1
  /-- The frames that were taken, in order. -/
  queued : List Frame := []

/-- What can happen to an outbox. -/
inductive OutboxAct (σ : Type u) where
  /-- A frame is offered through some handle. -/
  | offer (f : Frame)
  | clone
  | drop
  /-- The writer goes on by one step. -/
  | step
  /-- The outlet changes without the writer. -/
  | outside (change : σ → σ)

/-- Whether the writer goes on. -/
def OutboxAct.isStep : OutboxAct σ → Bool
  | step => true
  | _ => false

namespace Outbox

variable {σ : Type u}

/-- A writer that has not begun, with one handle. -/
def opened (capacity : Nat) (outlet : σ) : Outbox σ where
  writer := .ofCapacity capacity
  outlet := ⟨outlet, []⟩

/-- One thing happens; only who has a handle can offer a frame, or make another handle. -/
def act [Outlet σ] (x : Outbox σ) : OutboxAct σ → Outbox σ
  | .offer f =>
    if x.handles = 0 then x
    else match x.writer.offer f with
      | (writer, .taken) => { x with writer, queued := x.queued ++ [f] }
      | (writer, _) => { x with writer }
  | .clone => if x.handles = 0 then x else { x with handles := x.handles + 1 }
  | .drop =>
    let handles := x.handles - 1
    { x with handles, writer := if handles = 0 then x.writer.hangUp else x.writer }
  | .step =>
    let (writer, outlet, _) := x.writer.step x.outlet
    { x with writer, outlet }
  | .outside change => { x with outlet := { x.outlet with outlet := change x.outlet.outlet } }

def run [Outlet σ] (x : Outbox σ) (acts : List (OutboxAct σ)) : Outbox σ := acts.foldl act x

/-- How often the writer had to wait for the outlet. -/
def waits (x : Outbox σ) : Nat := x.outlet.calls.countP OutletCall.waits

theorem act_step [Outlet σ] (x : Outbox σ) : x.act .step =
    { x with writer := (x.writer.step x.outlet).1, outlet := (x.writer.step x.outlet).2.1 } := rfl

/-! ## Where the frames are -/

/-- Of the frames taken some are done, some are held by the writer, with these bytes still to
    write, and the rest has not reached it. -/
structure Split (queued : List Frame) (calls : List OutletCall) (done held rest : List Frame)
    (left : Bytes) : Prop where
  queued_eq : queued = done ++ held ++ rest
  few : held.length ≤ maxBatch
  suffix : left <:+ held.flatMap Frame.bytes
  accepted_eq : accepted calls ++ left = (done ++ held).flatMap Frame.bytes

namespace Split

variable {queued done held rest : List Frame} {calls : List OutletCall} {left : Bytes} {f : Frame}

theorem offer (h : Split queued calls done held rest left) (f : Frame) :
    Split (queued ++ [f]) calls done held (rest ++ [f]) left where
  queued_eq := by rw [h.queued_eq, List.append_assoc]
  few := h.few
  suffix := h.suffix
  accepted_eq := h.accepted_eq

/-- The writer takes a frame. -/
theorem take (h : Split queued calls done held (f :: rest) left) (hfew : held.length < maxBatch) :
    Split queued calls done (held ++ [f]) rest (left ++ f.bytes) where
  queued_eq := by
    rw [h.queued_eq]
    simp only [List.append_assoc, List.cons_append, List.nil_append]
  few := by
    rw [List.length_append]
    exact hfew
  suffix := by
    obtain ⟨written, hw⟩ := h.suffix
    refine ⟨written, ?_⟩
    rw [← List.append_assoc, hw, List.flatMap_append, List.flatMap_singleton]
  accepted_eq := by
    rw [← List.append_assoc, h.accepted_eq, ← List.append_assoc done,
      ← List.flatMap_singleton Frame.bytes f, ← List.flatMap_append]

/-- Calls take bytes of the frames held, or none. -/
theorem write {more : List OutletCall} {bytes : Bytes} (hmore : accepted more = bytes)
    (h : Split queued calls done held rest (bytes ++ left)) :
    Split queued (calls ++ more) done held rest left where
  queued_eq := h.queued_eq
  few := h.few
  suffix := (List.suffix_append _ _).trans h.suffix
  accepted_eq := by rw [accepted_append, hmore, List.append_assoc, h.accepted_eq]

/-- Frames whose bytes are all written are done. -/
theorem settle (h : Split queued calls done held rest []) :
    Split queued calls (done ++ held) [] rest [] where
  queued_eq := by rw [List.append_nil, h.queued_eq]
  few := Nat.zero_le _
  suffix := List.suffix_rfl
  accepted_eq := by rw [List.append_nil (done ++ held), h.accepted_eq]

/-- What was taken by the outlet, what the writer holds and what has not reached it are the
    frames queued. -/
theorem bytes_eq (h : Split queued calls done held rest left) :
    accepted calls ++ (left ++ rest.flatMap Frame.bytes) = queued.flatMap Frame.bytes := by
  rw [h.queued_eq, List.flatMap_append, ← h.accepted_eq, List.append_assoc]

theorem left_eq_nil (h : Split queued calls done [] rest left) : left = [] :=
  List.suffix_nil.1 h.suffix

end Split

/-! ## What each stage says -/

/-- All that was taken is flushed, and then the outlet was shut down, which it may have
    waited with, and let go of. -/
def ShutDown (calls : List OutletCall) : Prop :=
  ∃ before tries answer, calls = before ++ List.replicate tries (.shutdown .wait) ++
      [.shutdown answer, .release] ∧
    answer ≠ .wait ∧ Smooth before ∧ unflushed before = []

/-- A write or a flush failed, and after that the outlet was only let go of. -/
def BrokenOff (calls : List OutletCall) (kind : IoKind) : Prop :=
  ∃ before call, calls = before ++ [call, .release] ∧ Smooth before ∧ call.fault? = some kind

/-- What each stage says of the calls made, and of the frames that are not written. -/
inductive Staged (w : Writer) (calls : List OutletCall) (held rest : List Frame) (left : Bytes) :
    WriterStage → Prop
  | idle {before : List OutletCall} {tries : Nat}
      (hcalls : calls = before ++ List.replicate tries (.shutdown .wait))
      (hsmooth : Smooth before) (hflushed : unflushed before = [])
      (htries : tries ≠ 0 → w.isOpen = false ∧ w.inbox = []) (hheld : held = [])
      (hrest : rest = w.inbox) :
      Staged w calls held rest left .idle
  | gathering {batch : Backlog} {count : Nat} (hsmooth : Smooth calls)
      (hbytes : batch.bytes = left) (hcounted : batch.Counted) (hcount : held.length = count)
      (hrest : rest = w.inbox) :
      Staged w calls held rest left (.gathering batch count)
  | writing {batch : Backlog} (hsmooth : Smooth calls) (hbytes : batch.bytes = left)
      (hcounted : batch.Counted) (hrest : rest = w.inbox) :
      Staged w calls held rest left (.writing batch)
  | finished (hshut : ShutDown calls) (ho : w.isOpen = false) (hheld : held = [])
      (hrest : rest = []) :
      Staged w calls held rest left (.ended none)
  | failed {kind : IoKind} (hbroken : BrokenOff calls kind) :
      Staged w calls held rest left (.ended (some kind))

namespace Staged

variable {w : Writer} {calls : List OutletCall} {held rest : List Frame} {left : Bytes}
  {stage : WriterStage}

theorem offer (h : Staged w calls held rest left stage) (ho : w.isOpen = true) (f : Frame) :
    Staged { w with inbox := w.inbox ++ [f] } calls held (rest ++ [f]) left stage := by
  cases h with
  | idle hcalls hsmooth hflushed htries hheld hrest =>
    refine .idle hcalls hsmooth hflushed (fun hne => ?_) hheld (by rw [hrest])
    rw [(htries hne).1] at ho
    cases ho
  | gathering hsmooth hbytes hcounted hcount hrest =>
    exact .gathering hsmooth hbytes hcounted hcount (by rw [hrest])
  | writing hsmooth hbytes hcounted hrest =>
    exact .writing hsmooth hbytes hcounted (by rw [hrest])
  | finished _ ho' =>
    rw [ho'] at ho
    cases ho
  | failed hbroken => exact .failed hbroken

theorem hangUp (h : Staged w calls held rest left stage) :
    Staged w.hangUp calls held rest left stage := by
  cases h with
  | idle hcalls hsmooth hflushed htries hheld hrest =>
    exact .idle hcalls hsmooth hflushed (fun hne => ⟨rfl, (htries hne).2⟩) hheld hrest
  | gathering hsmooth hbytes hcounted hcount hrest =>
    exact .gathering hsmooth hbytes hcounted hcount hrest
  | writing hsmooth hbytes hcounted hrest => exact .writing hsmooth hbytes hcounted hrest
  | finished hshut ho hheld hrest => exact .finished hshut rfl hheld hrest
  | failed hbroken => exact .failed hbroken

theorem of_idle (h : Staged w calls held rest left w.stage) (hs : w.stage = .idle) :
    ∃ before tries, calls = before ++ List.replicate tries (.shutdown .wait) ∧
      Smooth before ∧ unflushed before = [] ∧
      (tries ≠ 0 → w.isOpen = false ∧ w.inbox = []) ∧ held = [] ∧ rest = w.inbox := by
  rw [hs] at h
  cases h with
  | idle hcalls hsmooth hflushed htries hheld hrest =>
    exact ⟨_, _, hcalls, hsmooth, hflushed, htries, hheld, hrest⟩

theorem of_gathering {batch : Backlog} {count : Nat} (h : Staged w calls held rest left w.stage)
    (hs : w.stage = .gathering batch count) :
    Smooth calls ∧ batch.bytes = left ∧ batch.Counted ∧ held.length = count ∧
      rest = w.inbox := by
  rw [hs] at h
  cases h with
  | gathering hsmooth hbytes hcounted hcount hrest =>
    exact ⟨hsmooth, hbytes, hcounted, hcount, hrest⟩

theorem of_writing {batch : Backlog} (h : Staged w calls held rest left w.stage)
    (hs : w.stage = .writing batch) :
    Smooth calls ∧ batch.bytes = left ∧ batch.Counted ∧ rest = w.inbox := by
  rw [hs] at h
  cases h with
  | writing hsmooth hbytes hcounted hrest => exact ⟨hsmooth, hbytes, hcounted, hrest⟩

/-- A writer that goes on has to write what is left of its batch, and what waits. -/
theorem unwritten {queued done : List Frame} (h : Staged w calls held rest left w.stage)
    (hsplit : Split queued calls done held rest left) (he : w.hasEnded = false) :
    left = w.unwritten ∧ rest = w.inbox := by
  rw [Writer.hasEnded] at he
  rw [Writer.unwritten]
  generalize w.stage = stage at h he
  cases h with
  | idle _ _ _ _ hheld hrest =>
    subst hheld
    exact ⟨hsplit.left_eq_nil, hrest⟩
  | gathering _ hbytes _ _ hrest | writing _ hbytes _ hrest => exact ⟨hbytes.symm, hrest⟩
  | finished | failed => cases he

/-- What failed is the error that the writer ended with. -/
theorem faults_eq (h : Staged w calls held rest left w.stage) :
    faults calls = w.error?.toList := by
  rw [Writer.error?]
  generalize w.stage = stage at h
  cases h with
  | idle hcalls hsmooth =>
    rw [hcalls, faults_lingers]
    exact hsmooth.faults
  | gathering hsmooth | writing hsmooth => exact hsmooth.faults
  | finished hshut =>
    obtain ⟨before, tries, answer, rfl, -, hsmooth, -⟩ := hshut
    rw [faults_append, faults_lingers, hsmooth.faults]
    rfl
  | failed hbroken =>
    obtain ⟨before, call, rfl, hsmooth, hf⟩ := hbroken
    rw [faults_append, hsmooth.faults, List.nil_append]
    exact List.filterMap_cons_some hf

end Staged

/-- The frames taken are where the stage of the writer has them. -/
def Holds (x : Outbox σ) : Prop :=
  ∃ done held rest left, Split x.queued x.outlet.calls done held rest left ∧
    Staged x.writer x.outlet.calls held rest left x.writer.stage

theorem Holds.idle {x : Outbox σ} (h : x.Holds) (hs : x.writer.stage = .idle) :
    accepted x.outlet.calls ++ x.writer.inbox.flatMap Frame.bytes =
        x.queued.flatMap Frame.bytes ∧
      unflushed x.outlet.calls = [] := by
  obtain ⟨done, held, rest, left, hsplit, hstaged⟩ := h
  obtain ⟨before, tries, hcalls, -, hflushed, -, rfl, rfl⟩ := hstaged.of_idle hs
  have hbytes := hsplit.bytes_eq
  rw [hsplit.left_eq_nil, List.nil_append] at hbytes
  refine ⟨hbytes, ?_⟩
  rw [hcalls, unflushed_lingers, hflushed]

theorem Holds.finished {x : Outbox σ} (h : x.Holds) (hs : x.writer.stage = .ended none) :
    accepted x.outlet.calls = x.queued.flatMap Frame.bytes ∧ x.writer.isOpen = false ∧
      ShutDown x.outlet.calls := by
  obtain ⟨done, held, rest, left, hsplit, hstaged⟩ := h
  rw [hs] at hstaged
  cases hstaged with
  | finished hshut ho hheld hrest =>
    subst hheld hrest
    have hbytes := hsplit.bytes_eq
    rw [hsplit.left_eq_nil, List.flatMap_nil, List.append_nil, List.append_nil] at hbytes
    exact ⟨hbytes, ho, hshut⟩

theorem Holds.failed {x : Outbox σ} {kind : IoKind} (h : x.Holds)
    (hs : x.writer.stage = .ended (some kind)) : BrokenOff x.outlet.calls kind := by
  obtain ⟨_, _, _, _, -, hstaged⟩ := h
  rw [hs] at hstaged
  cases hstaged with
  | failed hbroken => exact hbroken

/-- A writer that ends when nothing failed ends without an error. -/
theorem Holds.stage_eq {x : Outbox σ} (h : x.Holds) (he : x.writer.hasEnded = true)
    (hnone : faults x.outlet.calls = []) : x.writer.stage = .ended none := by
  obtain ⟨_, _, _, _, -, hstaged⟩ := h
  rw [hstaged.faults_eq, Option.toList_eq_nil_iff] at hnone
  exact Writer.stage_eq_of_error? he hnone

theorem Holds.step [Outlet σ] {x : Outbox σ} (h : x.Holds) : (x.act .step).Holds := by
  obtain ⟨done, held, rest, left, hsplit, hstaged⟩ := h
  have hstepped := x.writer.step_cases x.outlet
  rw [act_step]
  generalize x.writer.step x.outlet = stepped at hstepped ⊢
  obtain ⟨writer, outlet, goes⟩ := stepped
  cases hstepped with
  | ended | rests => exact ⟨done, held, rest, left, hsplit, hstaged⟩
  | @starts f inbox hs hi =>
    obtain ⟨before, tries, hcalls, hsmooth, -, htries, rfl, rfl⟩ := hstaged.of_idle hs
    rw [hi] at hsplit htries
    -- The outlet has not been asked to shut down, since a frame waits.
    obtain rfl : tries = 0 := Decidable.byContradiction fun hne => by cases (htries hne).2
    rw [List.replicate_zero, List.append_nil] at hcalls
    have hleft := hsplit.left_eq_nil
    subst hcalls hleft
    have hcounted : (Backlog.push {} f).Counted := Backlog.Counted.append (b := {}) rfl _
    refine ⟨done, [f], inbox, f.bytes, hsplit.take (by decide), ?_⟩
    exact .gathering hsmooth (Backlog.bytes_push {} f) hcounted rfl rfl
  | @gathers batch count f inbox hs hi hcount =>
    obtain ⟨hsmooth, rfl, hcounted, rfl, rfl⟩ := hstaged.of_gathering hs
    rw [hi] at hsplit
    refine ⟨done, held ++ [f], inbox, _, hsplit.take hcount, ?_⟩
    exact .gathering hsmooth (Backlog.bytes_push batch f) (hcounted.append _)
      (List.length_append ..) rfl
  | begins hs =>
    obtain ⟨hsmooth, hbytes, hcounted, -, hrest⟩ := hstaged.of_gathering hs
    exact ⟨done, held, rest, left, hsplit, .writing hsmooth hbytes hcounted hrest⟩
  | takes hs hb hc hne =>
    obtain ⟨hsmooth, rfl, hcounted, hrest⟩ := hstaged.of_writing hs
    rw [← hb] at hsplit
    refine ⟨done, held, rest, _, .write (accepted_singleton _) hsplit, ?_⟩
    exact .writing (hsmooth.concat (decide_eq_true hne)) rfl (hc hcounted) hrest
  | flushes hs hpending =>
    obtain ⟨hsmooth, hbytes, hcounted, hrest⟩ := hstaged.of_writing hs
    rw [hcounted, List.length_eq_zero_iff, hbytes] at hpending
    subst hpending
    refine ⟨done ++ held, [], rest, [], .write (accepted_singleton _) hsplit.settle, ?_⟩
    exact .idle (List.append_nil _).symm (hsmooth.concat rfl)
      ((unflushed_concat ..).trans (if_pos rfl)) (absurd rfl) rfl hrest
  | waits hs hw hcall hn =>
    obtain ⟨hsmooth, hbytes, hcounted, hrest⟩ := hstaged.of_writing hs
    refine ⟨done, held, rest, left, .write ((accepted_singleton _).trans hn) hsplit, ?_⟩
    rw [hs]
    exact .writing (hsmooth.concat hcall) hbytes hcounted hrest
  | fails hs hf hn =>
    obtain ⟨hsmooth, -⟩ := hstaged.of_writing hs
    exact ⟨done, held, rest, left, .write ((accepted_release _).trans hn) hsplit,
      .failed ⟨_, _, rfl, hsmooth, hf⟩⟩
  | lingers hs hi ho =>
    obtain ⟨before, tries, hcalls, hsmooth, hflushed, -, hheld, hrest⟩ := hstaged.of_idle hs
    have hmore : x.outlet.calls ++ [.shutdown .wait] =
        before ++ List.replicate (tries + 1) (.shutdown .wait) := by
      rw [hcalls, List.replicate_succ', List.append_assoc]
    refine ⟨done, held, rest, left, .write (accepted_singleton _) hsplit, ?_⟩
    rw [hs]
    exact .idle hmore hsmooth hflushed (fun _ => ⟨ho, hi⟩) hheld hrest
  | shuts hs hi ho ha =>
    obtain ⟨before, tries, hcalls, hsmooth, hflushed, -, hheld, hrest⟩ := hstaged.of_idle hs
    have hshut : ShutDown (x.outlet.calls ++ [.shutdown _, .release]) :=
      ⟨before, tries, _, congrArg (· ++ _) hcalls, ha, hsmooth, hflushed⟩
    refine ⟨done, held, rest, left, .write (accepted_release _) hsplit, ?_⟩
    exact .finished hshut ho hheld (hrest.trans hi)

/-! ## Every moment -/

/-- What holds of an outbox at every moment. -/
structure Sound (capacity : Nat) (x : Outbox σ) : Prop where
  capacity_eq : x.writer.capacity = max capacity 1
  room : x.writer.pending ≤ x.writer.capacity
  isOpen : x.writer.isOpen = decide (x.handles ≠ 0)
  holds : x.Holds

theorem sound_opened (capacity : Nat) (outlet : σ) : (opened capacity outlet).Sound capacity where
  capacity_eq := rfl
  room := Nat.zero_le _
  isOpen := rfl
  holds := ⟨[], [], [], [], ⟨rfl, Nat.zero_le _, List.suffix_rfl, rfl⟩,
    .idle (List.append_nil _).symm (List.forall_mem_nil _) rfl (absurd rfl) rfl rfl⟩

namespace Sound

variable {capacity : Nat} {x : Outbox σ}

theorem isOpen_eq_false (h : x.Sound capacity) :
    x.writer.isOpen = false ↔ x.handles = 0 := by
  rw [h.isOpen, decide_eq_false_iff_not, not_not]

/-- A frame is taken. -/
theorem offer {f : Frame} {writer : Writer} (h : x.Sound capacity) (hne : x.handles ≠ 0)
    (hoffer : x.writer.offer f = (writer, .taken)) :
    Sound capacity { x with writer, queued := x.queued ++ [f] } := by
  obtain ⟨hroom, rfl⟩ := Writer.eq_of_offer_taken hoffer
  obtain ⟨done, held, rest, left, hsplit, hstaged⟩ := h.holds
  have ho : x.writer.isOpen = true := h.isOpen.trans (decide_eq_true hne)
  refine ⟨h.capacity_eq, ?_, h.isOpen, done, held, rest ++ [f], left, hsplit.offer f,
    hstaged.offer ho f⟩
  show (x.writer.inbox ++ [f]).length ≤ _
  rw [List.length_append]
  exact hroom

/-- The last handle is let go of. -/
theorem hangUp {handles : Nat} (h : x.Sound capacity) (hlast : handles = 0) :
    Sound capacity { x with handles, writer := x.writer.hangUp } := by
  obtain ⟨done, held, rest, left, hsplit, hstaged⟩ := h.holds
  refine ⟨h.capacity_eq, h.room, ?_, done, held, rest, left, hsplit, hstaged.hangUp⟩
  exact (decide_eq_false fun hne => hne hlast).symm

variable [Outlet σ]

theorem act (h : x.Sound capacity) (a : OutboxAct σ) : (x.act a).Sound capacity := by
  cases a with
  | offer f =>
    simp only [Outbox.act]
    split
    · exact h
    · rename_i hne
      split
      · rename_i hoffer
        exact h.offer hne hoffer
      · rename_i hrefused hoffer
        obtain rfl := Writer.eq_of_offer hoffer hrefused
        exact h
  | clone =>
    simp only [Outbox.act]
    split
    · exact h
    · rename_i hne
      exact ⟨h.capacity_eq, h.room, h.isOpen.trans (decide_eq_true hne), h.holds⟩
  | drop =>
    show Sound capacity { x with
      handles := x.handles - 1, writer := if x.handles - 1 = 0 then x.writer.hangUp else x.writer }
    split
    · rename_i hlast
      exact h.hangUp hlast
    · rename_i hmore
      refine ⟨h.capacity_eq, h.room, h.isOpen.trans ?_, h.holds⟩
      exact decide_eq_decide.2 ⟨fun _ => hmore, fun _ => by omega⟩
  | step =>
    obtain ⟨hcapacity, hisOpen, hinbox⟩ := (x.writer.step_cases x.outlet).same
    exact ⟨hcapacity.trans h.capacity_eq, (hinbox.trans h.room).trans hcapacity.ge,
      hisOpen.trans h.isOpen, h.holds.step⟩
  | outside change => exact ⟨h.capacity_eq, h.room, h.isOpen, h.holds⟩

theorem run (h : x.Sound capacity) (acts : List (OutboxAct σ)) :
    (x.run acts).Sound capacity := by
  induction acts generalizing x with
  | nil => exact h
  | cons a acts ih => exact ih (h.act a)

end Sound

end Outbox

end Depot
