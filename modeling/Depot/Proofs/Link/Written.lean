/-
  Depot — what a writer writes.

  A writer writes the frames queued, in order, and no byte twice; `Outbox.run_writes` says
  what that comes to at each stage.  Once the last handle is gone every step that does not
  find the outlet waiting leaves less work (`Outbox.paid_act`), so that the writer ends.
-/
import Depot.Proofs.Link.Outbox
import Depot.Wire.Sink
import Mathlib

namespace Depot.Outbox

variable {σ : Type u} [Outlet σ] {capacity : Nat} {x : Outbox σ}

/-! ## Writers that have ended -/

/-- A writer that has ended does nothing more. -/
theorem ended_act (h : x.writer.hasEnded = true) (a : OutboxAct σ) :
    (x.act a).writer.stage = x.writer.stage ∧ (x.act a).outlet.calls = x.outlet.calls := by
  cases a with
  | offer f =>
    simp only [act, Writer.offer, if_pos h]
    split <;> exact ⟨rfl, rfl⟩
  | clone =>
    rw [act]
    split <;> exact ⟨rfl, rfl⟩
  | drop =>
    rw [act]
    refine ⟨?_, rfl⟩
    show (if _ then _ else _ : Writer).stage = _
    split <;> rfl
  | step =>
    rw [act_step, Writer.step_of_hasEnded h]
    exact ⟨rfl, rfl⟩
  | outside change => exact ⟨rfl, rfl⟩

theorem hasEnded_act (h : x.writer.hasEnded = true) (a : OutboxAct σ) :
    (x.act a).writer.hasEnded = true := by
  rw [Writer.hasEnded, (ended_act h a).1]
  exact h

theorem ended_run (h : x.writer.hasEnded = true) (acts : List (OutboxAct σ)) :
    (x.run acts).writer.stage = x.writer.stage ∧
      (x.run acts).outlet.calls = x.outlet.calls := by
  induction acts generalizing x with
  | nil => exact ⟨rfl, rfl⟩
  | cons a acts ih =>
    obtain ⟨hstage, hcalls⟩ := ih (hasEnded_act h a)
    exact ⟨hstage.trans (ended_act h a).1, hcalls.trans (ended_act h a).2⟩

/-! ## Outboxes without a handle -/

/-- Without a handle no frame is taken any more, and no handle is made. -/
theorem gone_act (h : x.handles = 0) (a : OutboxAct σ) :
    (x.act a).handles = 0 ∧ (x.act a).queued = x.queued := by
  cases a with
  | offer f | clone =>
    simp only [act, if_pos h]
    exact ⟨h, trivial⟩
  | drop => exact ⟨by rw [act, h], rfl⟩
  | step | outside change => exact ⟨h, rfl⟩

theorem gone_run (h : x.handles = 0) (acts : List (OutboxAct σ)) :
    (x.run acts).handles = 0 ∧ (x.run acts).queued = x.queued := by
  induction acts generalizing x with
  | nil => exact ⟨h, rfl⟩
  | cons a acts ih =>
    obtain ⟨hgone, hqueued⟩ := gone_act h a
    exact ⟨(ih hgone).1, (ih hgone).2.trans hqueued⟩

/-- Without a handle each step of the writer is paid for, by work that is done or by a wait
    for the outlet. -/
theorem paid_act (h : x.Sound capacity) (hgone : x.handles = 0) (he : x.writer.hasEnded = false)
    (a : OutboxAct σ) :
    (x.act a).writer.work + [a].countP OutboxAct.isStep + x.waits ≤
      x.writer.work + (x.act a).waits := by
  have hopen : x.writer.isOpen = false := h.isOpen_eq_false.2 hgone
  cases a with
  | offer f | clone =>
    simp only [act, if_pos hgone]
    exact le_rfl
  | drop =>
    simp only [act, hgone]
    exact le_rfl
  | outside change => exact le_rfl
  | step =>
    have hstepped := x.writer.step_cases x.outlet
    obtain ⟨⟨w, t, goes⟩, hstep⟩ : ∃ stepped, x.writer.step x.outlet = stepped := ⟨_, rfl⟩
    rw [act_step, hstep]
    rw [hstep] at hstepped
    show w.work + 1 + x.waits ≤ x.writer.work + t.calls.countP OutletCall.waits
    cases goes with
    | true =>
      have hless := Writer.work_step hstep
      have hwaits : x.waits ≤ t.calls.countP OutletCall.waits :=
        hstepped.calls_prefix.sublist.countP_le
      omega
    | false =>
      obtain ⟨rfl, call, hcalls, hw⟩ := hstepped.waited hopen he
      rw [hcalls, List.countP_append, List.countP_singleton, if_pos hw]
      exact le_of_eq (by rw [add_right_comm, add_assoc]; rfl)

/-- The steps of a run without a handle are paid for, until the writer ends. -/
theorem paid_run (h : x.Sound capacity) (hgone : x.handles = 0) (acts : List (OutboxAct σ)) :
    (x.run acts).writer.hasEnded = true ∨
      (x.run acts).writer.work + acts.countP OutboxAct.isStep + x.waits ≤
        x.writer.work + (x.run acts).waits := by
  induction acts using List.reverseRecOn with
  | nil => exact .inr le_rfl
  | append_singleton acts a ih =>
    rw [show x.run (acts ++ [a]) = (x.run acts).act a from List.foldl_concat ..]
    cases he : (x.run acts).writer.hasEnded with
    | true => exact .inl (hasEnded_act he a)
    | false =>
      rw [he] at ih
      have hpaid := ih.resolve_left Bool.false_ne_true
      have hnext := paid_act (h.run acts) (gone_run hgone acts).1 he a
      rw [List.countP_append]
      omega

/-- Without a handle the writer ends, once it has gone on as often as there is work and as
    it had to wait. -/
theorem hasEnded_run (h : x.Sound capacity) (hgone : x.handles = 0) {acts : List (OutboxAct σ)}
    (hsteps : x.writer.work + (x.run acts).waits ≤ x.waits + acts.countP OutboxAct.isStep) :
    (x.run acts).writer.hasEnded = true := by
  cases he : (x.run acts).writer.hasEnded with
  | true => rfl
  | false =>
    have hwork := Writer.work_pos he
    rw [← Bool.not_eq_true] at he
    have hpaid := (paid_run h hgone acts).resolve_left he
    omega

/-! ## What is written -/

/-- **What a writer writes.**  The inbox holds so many frames, at least one.  Whatever the
    outlet answers, at every moment
    * what the outlet has taken is the beginning of the frames queued, in order;
    * no more frames wait than the inbox holds;
    * the writer holds at most `maxBatch` frames, after those that are written; as long as it
      goes on it has only to write them and the frames that wait;
    * when it waits for a frame, all that it took from the inbox is written and flushed;
    * when it has ended without an error, all frames queued are written, no handle is left,
      and the outlet was shut down once, after the last flush;
    * whatever failed is the error that it ended with, and it wrote nothing after that;
    * when it has ended it makes no more calls;
    * when no handle is left it ends, once it has gone on as often as there is work and as it
      had to wait; if nothing fails then all frames queued are written, and the outlet was
      shut down. -/
theorem run_writes (capacity : Nat) (outlet : σ) (acts : List (OutboxAct σ)) :
    let x := (opened capacity outlet).run acts
    let frames := x.queued.flatMap Frame.bytes
    accepted x.outlet.calls <+: frames ∧
    x.writer.pending ≤ max capacity 1 ∧
    (∃ done held rest left, Split x.queued x.outlet.calls done held rest left ∧
      (x.writer.hasEnded = false → left = x.writer.unwritten ∧ rest = x.writer.inbox)) ∧
    (x.writer.stage = .idle →
      accepted x.outlet.calls ++ x.writer.inbox.flatMap Frame.bytes = frames ∧
        unflushed x.outlet.calls = []) ∧
    (x.writer.stage = .ended none →
      accepted x.outlet.calls = frames ∧ x.handles = 0 ∧ ShutDown x.outlet.calls) ∧
    (faults x.outlet.calls = x.writer.error?.toList ∧
      ∀ kind, x.writer.stage = .ended (some kind) → BrokenOff x.outlet.calls kind) ∧
    (x.writer.hasEnded = true → ∀ later, (x.run later).writer.stage = x.writer.stage ∧
      (x.run later).outlet.calls = x.outlet.calls) ∧
    (x.handles = 0 → ∀ later,
      x.writer.work + (x.run later).waits ≤ x.waits + later.countP OutboxAct.isStep →
      (x.run later).writer.hasEnded = true ∧
        (faults (x.run later).outlet.calls = [] → (x.run later).writer.stage = .ended none ∧
          accepted (x.run later).outlet.calls = frames ∧
          ShutDown (x.run later).outlet.calls)) := by
  intro x frames
  have hsound : x.Sound capacity := (sound_opened capacity outlet).run acts
  obtain ⟨done, held, rest, left, hsplit, hstaged⟩ := hsound.holds
  refine ⟨⟨_, hsplit.bytes_eq⟩, hsound.room.trans hsound.capacity_eq.le,
    ⟨done, held, rest, left, hsplit, hstaged.unwritten hsplit⟩, hsound.holds.idle, fun hs => ?_,
    ⟨hstaged.faults_eq, fun kind => hsound.holds.failed⟩, ended_run,
    fun hgone later hsteps => ?_⟩
  · obtain ⟨hall, ho, hshut⟩ := hsound.holds.finished hs
    exact ⟨hall, hsound.isOpen_eq_false.1 ho, hshut⟩
  · have hlater := (hsound.run later).holds
    have hended := hasEnded_run hsound hgone hsteps
    refine ⟨hended, fun hnone => ?_⟩
    have hs : (x.run later).writer.stage = .ended none := hlater.stage_eq hended hnone
    obtain ⟨hall, -, hshut⟩ := hlater.finished hs
    rw [(gone_run hgone later).2] at hall
    exact ⟨hs, hall, hshut⟩

/-- An inbox for one frame, at an outlet that takes a byte at a time: the second frame is not
    taken while the first one waits. -/
example :
    let first : List (OutboxAct Sink) := [.offer ⟨[1], [2]⟩, .offer ⟨[3], []⟩, .step]
    let x := (opened 0 ({ perCall := some 1 } : Sink)).run
      (first ++ [.offer ⟨[4], []⟩, .drop] ++ List.replicate 7 .step)
    x.outlet.calls = [.write [1] (.took 1), .write [2] (.took 1), .write [4] (.took 1),
      .flush .done, .shutdown .done, .release] := by
  decide

end Depot.Outbox
