/-
  Depot — the steps of a writer.

  `step_cases` lists what one step of a writer can be, with the calls that it makes.  What
  every step leaves alone, and how much work a step that waits leaves, is read off the list.
-/
import Depot.Link.Writer
import Depot.Proofs.Wire.Logged
import Mathlib

namespace Depot.Writer

variable {σ : Type u}

theorem eq_of_offer_taken {w w' : Writer} {f : Frame} (h : w.offer f = (w', .taken)) :
    w.pending < w.capacity ∧ w' = { w with inbox := w.inbox ++ [f] } := by
  unfold offer at h
  split at h
  · cases h
  · split at h
    · cases h
    · rename_i hroom
      cases h
      exact ⟨not_le.1 hroom, rfl⟩

/-- A frame that is not taken leaves the writer as it was. -/
theorem eq_of_offer {w w' : Writer} {f : Frame} {offer : Offer} (h : w.offer f = (w', offer))
    (hne : offer ≠ .taken) : w' = w := by
  unfold Writer.offer at h
  split at h
  · cases h
    rfl
  · split at h
    · cases h
      rfl
    · cases h
      exact (hne rfl).elim

/-- What one step of a writer can be. -/
inductive Stepped (w : Writer) (t : Logged σ) : Writer × Logged σ × Bool → Prop
  | ended (h : w.hasEnded = true) : Stepped w t (w, t, false)
  | rests (hs : w.stage = .idle) (hi : w.inbox = []) (ho : w.isOpen = true) :
      Stepped w t (w, t, false)
  | starts {f : Frame} {inbox : List Frame} (hs : w.stage = .idle) (hi : w.inbox = f :: inbox) :
      Stepped w t ({ w with inbox, stage := .gathering (Backlog.push {} f) 1 }, t, true)
  | gathers {batch : Backlog} {count : Nat} {f : Frame} {inbox : List Frame}
      (hs : w.stage = .gathering batch count) (hi : w.inbox = f :: inbox)
      (hcount : count < maxBatch) :
      Stepped w t ({ w with inbox, stage := .gathering (batch.push f) (count + 1) }, t, true)
  | begins {batch : Backlog} {count : Nat} (hs : w.stage = .gathering batch count) :
      Stepped w t ({ w with stage := .writing batch }, t, true)
  | takes {batch left : Backlog} {bytes : Bytes} {outlet : σ} (hs : w.stage = .writing batch)
      (hb : bytes ++ left.bytes = batch.bytes) (hc : batch.Counted → left.Counted)
      (hne : bytes.length ≠ 0) :
      Stepped w t ({ w with stage := .writing left },
        ⟨outlet, t.calls ++ [.write bytes (.took bytes.length)]⟩, true)
  | flushes {batch : Backlog} {outlet : σ} (hs : w.stage = .writing batch)
      (hp : batch.pending = 0) :
      Stepped w t ({ w with stage := .idle }, ⟨outlet, t.calls ++ [.flush .done]⟩, true)
  | waits {batch : Backlog} {outlet : σ} {call : OutletCall} (hs : w.stage = .writing batch)
      (hw : call.waits = true) (hp : call.isPlain = true) (hn : call.taken = []) :
      Stepped w t (w, ⟨outlet, t.calls ++ [call]⟩, false)
  | fails {batch : Backlog} {outlet : σ} {call : OutletCall} {kind : IoKind}
      (hs : w.stage = .writing batch) (hf : call.fault? = some kind) (hn : call.taken = []) :
      Stepped w t ({ w with stage := .ended (some kind), inbox := [] },
        ⟨outlet, t.calls ++ [call, .release]⟩, true)
  | lingers {outlet : σ} (hs : w.stage = .idle) (hi : w.inbox = []) (ho : w.isOpen = false) :
      Stepped w t (w, ⟨outlet, t.calls ++ [.shutdown .wait]⟩, false)
  | shuts {outlet : σ} {answer : Flushed} (hs : w.stage = .idle) (hi : w.inbox = [])
      (ho : w.isOpen = false) (ha : answer ≠ .wait) :
      Stepped w t ({ w with stage := .ended none },
        ⟨outlet, t.calls ++ [.shutdown answer, .release]⟩, true)

theorem step_cases [Outlet σ] (w : Writer) (t : Logged σ) : Stepped w t (w.step t) := by
  obtain ⟨capacity, inbox, stage, isOpen⟩ := w
  cases stage with
  | idle =>
    cases inbox with
    | cons f inbox => exact .starts rfl rfl
    | nil =>
      cases isOpen with
      | true => exact .rests rfl rfl rfl
      | false =>
        simp only [step, Bool.false_eq_true, ↓reduceIte]
        split
        · rename_i hshut
          obtain ⟨outlet, rfl⟩ := Logged.eq_of_shutdown hshut
          exact .lingers rfl rfl rfl
        · rename_i hne hshut
          obtain ⟨outlet, rfl⟩ := Logged.eq_of_shutdown hshut
          rw [Logged.release_eq, List.append_assoc]
          exact .shuts rfl rfl rfl hne
  | gathering batch count =>
    cases inbox with
    | nil => exact .begins rfl
    | cons f inbox =>
      simp only [step]
      split
      · rename_i hcount
        exact .gathers rfl rfl hcount
      · exact .begins rfl
  | writing batch =>
    have hwrote := Logged.wrote_cases batch t
    simp only [step]
    split
    all_goals
      rename_i honce
      rw [honce] at hwrote
    · cases hwrote with
      | takes hb hc hne => exact .takes rfl hb hc hne
    · cases hwrote with
      | flushes hp => exact .flushes rfl hp
    · cases hwrote with
      | waits hw hp hn => exact .waits rfl hw hp hn
    · cases hwrote with
      | fails hf hn =>
        rw [Logged.release_eq, List.append_assoc]
        exact .fails rfl hf hn
  | ended error => exact .ended rfl

theorem step_of_hasEnded [Outlet σ] {w : Writer} (h : w.hasEnded = true) (t : Logged σ) :
    w.step t = (w, t, false) := by
  obtain ⟨capacity, inbox, stage, isOpen⟩ := w
  cases stage with
  | ended error => rfl
  | _ => cases h

theorem stage_eq_of_error? {w : Writer} (h : w.hasEnded = true) (he : w.error? = none) :
    w.stage = .ended none := by
  obtain ⟨capacity, inbox, stage, isOpen⟩ := w
  cases stage with
  | ended error => exact congrArg _ he
  | _ => cases h

theorem work_pos {w : Writer} (h : w.hasEnded = false) : 0 < w.work := by
  obtain ⟨capacity, inbox, stage, isOpen⟩ := w
  cases stage with
  | ended error => cases h
  | _ => exact Nat.add_pos_right _ (Nat.succ_pos _)

namespace Stepped

variable {w w' : Writer} {t t' : Logged σ} {goes : Bool} {stepped : Writer × Logged σ × Bool}

/-- A step only takes frames from the inbox. -/
theorem same (h : Stepped w t stepped) :
    stepped.1.capacity = w.capacity ∧ stepped.1.isOpen = w.isOpen ∧
      stepped.1.inbox.length ≤ w.inbox.length := by
  cases h with
  | starts hs hi | gathers hs hi =>
    rw [hi]
    exact ⟨rfl, rfl, Nat.le_succ _⟩
  | fails => exact ⟨rfl, rfl, Nat.zero_le _⟩
  | _ => exact ⟨rfl, rfl, le_rfl⟩

/-- A step only adds calls. -/
theorem calls_prefix (h : Stepped w t stepped) : t.calls <+: stepped.2.1.calls := by
  cases h with
  | takes | flushes | waits | fails | lingers | shuts => exact List.prefix_append _ _
  | _ => exact List.prefix_rfl

/-- Once no frame is offered any more, a writer that has not ended only waits for its
    outlet. -/
theorem waited (h : Stepped w t (w', t', false)) (ho : w.isOpen = false)
    (he : w.hasEnded = false) :
    w' = w ∧ ∃ call, t'.calls = t.calls ++ [call] ∧ call.waits = true := by
  cases h with
  | ended hended =>
    rw [hended] at he
    cases he
  | rests _ _ ho' =>
    rw [ho'] at ho
    cases ho
  | waits _ hw => exact ⟨rfl, _, rfl, hw⟩
  | lingers => exact ⟨rfl, _, rfl, rfl⟩

end Stepped

end Depot.Writer
