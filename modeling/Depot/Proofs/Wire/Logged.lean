/-
  Depot — the calls of an outlet.

  `Logged` stands in front of any outlet and writes down what it is asked and what it answers.
  From the calls one reads off the bytes that it took, those that are not flushed yet, and
  what failed.  `wrote_cases` lists what one call in a run of writes can be.
-/
import Depot.Proofs.Wire.Backlog

namespace Depot

/-- What an outlet is asked, and its answer. -/
inductive OutletCall where
  /-- A write, with the bytes that are taken. -/
  | write (bytes : Bytes) (answer : Written)
  | flush (answer : Flushed)
  | shutdown (answer : Flushed)
  | release
  deriving DecidableEq, Repr

namespace OutletCall

/-- The bytes that the outlet takes. -/
def taken : OutletCall → Bytes
  | write bytes _ => bytes
  | _ => []

/-- What fails.  A write that takes nothing fails; what is said of a shutdown does not count. -/
def fault? : OutletCall → Option IoKind
  | write _ (.took 0) => some .writeZero
  | write _ (.fail kind) | flush (.fail kind) => some kind
  | _ => none

/-- Whether the writer has to wait. -/
def waits : OutletCall → Bool
  | write _ .wait | flush .wait | shutdown .wait => true
  | _ => false

/-- Whether the call belongs to a run of writes and nothing fails in it. -/
def isPlain : OutletCall → Bool
  | write _ (.took n) => n ≠ 0
  | write _ .wait | flush .done | flush .wait => true
  | _ => false

theorem fault?_of_isPlain {call : OutletCall} (h : call.isPlain = true) : call.fault? = none := by
  cases call with
  | write bytes answer =>
    cases answer with
    | took n =>
      cases n with
      | zero => cases h
      | succ n => rfl
    | wait => rfl
    | fail => cases h
  | flush answer =>
    cases answer with
    | done | wait => rfl
    | fail => cases h
  | shutdown | release => cases h

/-- The bytes that are not flushed after a call, of these before it. -/
def unflushedAfter (before : Bytes) (call : OutletCall) : Bytes :=
  if call = .flush .done then [] else before ++ call.taken

end OutletCall

/-! ## What the calls say -/

/-- The bytes that were taken, in order. -/
def accepted (calls : List OutletCall) : Bytes := calls.flatMap OutletCall.taken

/-- The bytes that were taken since the last flush. -/
def unflushed (calls : List OutletCall) : Bytes := calls.foldl OutletCall.unflushedAfter []

/-- The calls belong to runs of writes, and nothing fails in them. -/
def Smooth (calls : List OutletCall) : Prop := ∀ call ∈ calls, call.isPlain = true

/-- What failed. -/
def faults (calls : List OutletCall) : List IoKind := calls.filterMap OutletCall.fault?

section

variable {calls : List OutletCall}

theorem accepted_append (calls more : List OutletCall) :
    accepted (calls ++ more) = accepted calls ++ accepted more :=
  List.flatMap_append

@[simp] theorem accepted_singleton (call : OutletCall) : accepted [call] = call.taken :=
  List.flatMap_singleton _ _

/-- To let go of the outlet takes nothing. -/
theorem accepted_release (call : OutletCall) : accepted [call, .release] = call.taken :=
  List.append_nil _

theorem unflushed_concat (calls : List OutletCall) (call : OutletCall) :
    unflushed (calls ++ [call]) = OutletCall.unflushedAfter (unflushed calls) call :=
  List.foldl_concat _ _ _ _

/-- A shutdown leaves what is not flushed as it is. -/
theorem unflushed_lingers (calls : List OutletCall) (tries : Nat) :
    unflushed (calls ++ List.replicate tries (.shutdown .wait)) = unflushed calls := by
  induction tries with
  | zero => rw [List.replicate_zero, List.append_nil]
  | succ tries ih =>
    rw [List.replicate_succ', ← List.append_assoc, unflushed_concat, ih]
    exact List.append_nil _

theorem faults_append (calls more : List OutletCall) :
    faults (calls ++ more) = faults calls ++ faults more :=
  List.filterMap_append

/-- What is said of a shutdown is no fault. -/
theorem faults_lingers (calls : List OutletCall) (tries : Nat) :
    faults (calls ++ List.replicate tries (.shutdown .wait)) = faults calls := by
  have hnone : faults (List.replicate tries (.shutdown .wait)) = [] :=
    List.filterMap_replicate_of_none rfl
  rw [faults_append, hnone, List.append_nil]

theorem Smooth.concat {call : OutletCall} (h : Smooth calls) (hc : call.isPlain = true) :
    Smooth (calls ++ [call]) :=
  List.forall_mem_append.2 ⟨h, List.forall_mem_singleton.2 hc⟩

theorem Smooth.faults (h : Smooth calls) : faults calls = [] :=
  List.filterMap_eq_nil_iff.2 fun call hin => OutletCall.fault?_of_isPlain (h call hin)

end

/-! ## Outlets that log -/

/-- An outlet that writes down its calls; of the bytes offered it takes no more than there
    are. -/
structure Logged (σ : Type u) where
  outlet : σ
  calls : List OutletCall := []

namespace Logged

variable {σ : Type u}

/-- Write down what became of an offer. -/
def note (t : Logged σ) (segments : List Bytes) : σ × Written → Logged σ × Written
  | (outlet, .took n) =>
    let bytes := takeBytes n segments
    (⟨outlet, t.calls ++ [.write bytes (.took bytes.length)]⟩, .took bytes.length)
  | (outlet, answer) => (⟨outlet, t.calls ++ [.write [] answer]⟩, answer)

instance [Outlet σ] : Outlet (Logged σ) where
  write t segments := t.note segments (Outlet.write t.outlet segments)
  flush t :=
    let (outlet, answer) := Outlet.flush t.outlet
    (⟨outlet, t.calls ++ [.flush answer]⟩, answer)
  shutdown t :=
    let (outlet, answer) := Outlet.shutdown t.outlet
    (⟨outlet, t.calls ++ [.shutdown answer]⟩, answer)
  release t := ⟨Outlet.release t.outlet, t.calls ++ [.release]⟩

variable [Outlet σ] {t t' : Logged σ} {segments : List Bytes}

theorem write_eq (t : Logged σ) (segments : List Bytes) :
    Outlet.write t segments = t.note segments (Outlet.write t.outlet segments) := rfl

theorem eq_of_write_took {n : Nat} (h : Outlet.write t segments = (t', .took n)) :
    ∃ outlet most, n = (takeBytes most segments).length ∧
      t' = ⟨outlet, t.calls ++ [.write (takeBytes most segments) (.took n)]⟩ := by
  rw [write_eq] at h
  unfold note at h
  split at h
  · rename_i outlet most _
    cases h
    exact ⟨outlet, most, rfl, rfl⟩
  · rename_i hne _
    injection h with _ hanswer
    exact (hne _ hanswer).elim

theorem eq_of_write {answer : Written} (h : Outlet.write t segments = (t', answer))
    (hne : ∀ n, answer ≠ .took n) : ∃ outlet, t' = ⟨outlet, t.calls ++ [.write [] answer]⟩ := by
  rw [write_eq] at h
  unfold note at h
  split at h
  · cases h
    exact (hne _ rfl).elim
  · cases h
    exact ⟨_, rfl⟩

theorem eq_of_flush {answer : Flushed} (h : Outlet.flush t = (t', answer)) :
    ∃ outlet, t' = ⟨outlet, t.calls ++ [.flush answer]⟩ := by
  cases h
  exact ⟨_, rfl⟩

theorem eq_of_shutdown {answer : Flushed} (h : Outlet.shutdown t = (t', answer)) :
    ∃ outlet, t' = ⟨outlet, t.calls ++ [.shutdown answer]⟩ := by
  cases h
  exact ⟨_, rfl⟩

theorem release_eq (t : Logged σ) :
    Outlet.release t = ⟨Outlet.release t.outlet, t.calls ++ [.release]⟩ := rfl

/-- What one call in a run of writes can be. -/
inductive Wrote (b : Backlog) (t : Logged σ) : Backlog × Logged σ × Option WriteEnd → Prop
  | takes {bytes : Bytes} {left : Backlog} {outlet : σ} (hb : bytes ++ left.bytes = b.bytes)
      (hc : b.Counted → left.Counted) (hne : bytes.length ≠ 0) :
      Wrote b t (left, ⟨outlet, t.calls ++ [.write bytes (.took bytes.length)]⟩, none)
  | flushes {outlet : σ} (hp : b.pending = 0) :
      Wrote b t (b, ⟨outlet, t.calls ++ [.flush .done]⟩, some .finished)
  | waits {outlet : σ} {call : OutletCall} (hw : call.waits = true) (hp : call.isPlain = true)
      (hn : call.taken = []) :
      Wrote b t (b, ⟨outlet, t.calls ++ [call]⟩, some .waiting)
  | fails {outlet : σ} {call : OutletCall} {kind : IoKind} (hf : call.fault? = some kind)
      (hn : call.taken = []) :
      Wrote b t (b, ⟨outlet, t.calls ++ [call]⟩, some (.failed kind))

theorem wrote_cases (b : Backlog) (t : Logged σ) : Wrote b t (b.writeOnce t) := by
  unfold Backlog.writeOnce
  split
  · rename_i hp
    split
    all_goals
      rename_i hflush
      obtain ⟨outlet, rfl⟩ := eq_of_flush hflush
    · exact .flushes hp
    · exact .waits rfl rfl rfl
    · exact .fails rfl rfl
  · split
    · rename_i hwrite
      obtain ⟨outlet, rfl⟩ := eq_of_write hwrite (by simp)
      exact .waits rfl rfl rfl
    · rename_i hwrite
      obtain ⟨outlet, rfl⟩ := eq_of_write hwrite (by simp)
      exact .fails rfl rfl
    · rename_i hwrite
      obtain ⟨outlet, most, rfl, rfl⟩ := eq_of_write_took hwrite
      split
      · rename_i hnone
        rw [hnone, List.eq_nil_of_length_eq_zero hnone]
        exact .fails rfl rfl
      · rename_i hsome
        exact .takes (b.front_append_dropFront most maxSegments) (fun h => h.dropFront _) hsome

end Logged

end Depot
