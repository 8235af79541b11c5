/-
  Depot — no byte of a backlog is lost.

  What a writer accepts, and then what is still in the backlog, is what was in it:
  `front_append_dropFront` says so of one call, `drain_conserves` of a drain and
  `writeAll_conserves` of a run of writes to any outlet.  An outlet only says how many
  bytes it takes; `Taped` writes down which these are.
-/
import Depot.Proofs.Wire.Framing
import Depot.Wire.Outlet
import Mathlib

namespace Depot

/-! ## Segments -/

theorem takeBytes_eq (n : Nat) (segments : List Bytes) :
    takeBytes n segments = segments.flatten.take n := by
  induction segments generalizing n with
  | nil => rw [takeBytes, List.flatten_nil, List.take_nil]
  | cons segment segments ih =>
    rw [takeBytes, List.flatten_cons, List.take_append, ih, List.length_take]
    congr 2
    omega

theorem flatten_dropBytes (n : Nat) (segments : List Bytes) :
    (dropBytes n segments).flatten = segments.flatten.drop n := by
  induction segments generalizing n with
  | nil => rw [dropBytes, List.flatten_nil, List.drop_nil]
  | cons segment segments ih =>
    rw [dropBytes, List.flatten_cons, List.drop_append]
    split
    · rename_i hnil
      rw [ih, hnil, List.nil_append]
    · rename_i hrest
      have hlt : n < segment.length := by
        rw [← not_le, ← List.drop_eq_nil_iff]
        exact hrest
      rw [List.flatten_cons, Nat.sub_eq_zero_of_le hlt.le, List.drop_zero]

namespace Backlog

/-- The bytes that wait, in order. -/
def bytes (b : Backlog) : Bytes := b.segments.flatten

/-- The bytes that wait are counted. -/
def Counted (b : Backlog) : Prop := b.pending = b.bytes.length

theorem Counted.isEmpty_iff {b : Backlog} (h : b.Counted) : b.isEmpty = true ↔ b.bytes = [] := by
  rw [isEmpty, decide_eq_true_iff, h, List.length_eq_zero_iff]

@[simp] theorem bytes_append (b : Backlog) (segments : List Bytes) :
    (b.append segments).bytes = b.bytes ++ segments.flatten := by
  rw [bytes, append, List.flatten_append, List.flatten_filter_not_isEmpty, bytes]

theorem Counted.append {b : Backlog} (h : b.Counted) (segments : List Bytes) :
    (b.append segments).Counted := by
  rw [Counted, bytes_append, List.length_append, Bytes.length_flatten, ← h]
  rfl

theorem bytes_push (b : Backlog) (f : Frame) : (b.push f).bytes = b.bytes ++ f.bytes := by
  rw [push, bytes_append, Frame.segments, Frame.bytes, List.flatten_cons, List.flatten_singleton]

@[simp] theorem bytes_dropFront (b : Backlog) (n : Nat) :
    (b.dropFront n).bytes = b.bytes.drop n :=
  flatten_dropBytes n b.segments

theorem Counted.dropFront {b : Backlog} (h : b.Counted) (n : Nat) : (b.dropFront n).Counted := by
  rw [Counted, bytes_dropFront, List.length_drop, ← h]
  rfl

/-- The bytes that a call accepts, and then the bytes left after it, are those that
    waited. -/
theorem front_append_dropFront (b : Backlog) (n most : Nat) :
    takeBytes n (b.front most) ++ (b.dropFront (takeBytes n (b.front most)).length).bytes =
      b.bytes := by
  have hfront : (b.front most).flatten <+: b.bytes :=
    ⟨(b.segments.drop most).flatten, by
      rw [front, bytes, ← List.flatten_append, List.take_append_drop]⟩
  have htaken : takeBytes n (b.front most) <+: b.bytes := by
    rw [takeBytes_eq]
    exact (List.take_prefix _ _).trans hfront
  rw [bytes_dropFront]
  nth_rewrite 1 [List.prefix_iff_eq_take.1 htaken]
  exact List.take_append_drop ..

/-! ## Draining -/

theorem took_eq_ok {b left : Backlog} {n : Nat} (h : b.took n = .ok left) :
    n ≠ 0 ∧ left = b.dropFront n := by
  unfold took at h
  split at h
  · cases h
  · cases h
    exact ⟨‹_›, rfl⟩

theorem took_eq_error {b : Backlog} {n : Nat} {kind : IoKind} (h : b.took n = .error kind) :
    n = 0 ∧ kind = .writeZero := by
  unfold took at h
  split at h
  · cases h
    exact ⟨‹_›, rfl⟩
  · cases h

theorem Counted.drain {b : Backlog} (h : b.Counted) (answers : List Answer) :
    (b.drain answers).left.Counted := by
  fun_induction Backlog.drain b answers with
  | case1 | case2 | case3 | case5 | case6 => exact h
  | case4 b answers _ ih => exact ih h
  | case7 b answers _ most bytes left htook d ih =>
    obtain ⟨-, rfl⟩ := took_eq_ok htook
    exact ih (h.dropFront _)

/-- A drain conserves the bytes, whatever the writer answers. -/
theorem drain_conserves (b : Backlog) (answers : List Answer) :
    (b.drain answers).accepted.flatten ++ (b.drain answers).left.bytes = b.bytes := by
  fun_induction Backlog.drain b answers with
  | case1 | case2 | case3 | case5 => rfl
  | case4 b answers _ ih => exact ih
  | case6 b answers _ most bytes kind htook =>
    rw [List.flatten_singleton, List.eq_nil_of_length_eq_zero (took_eq_error htook).1,
      List.nil_append]
  | case7 b answers _ most bytes left htook d ih =>
    obtain ⟨-, rfl⟩ := took_eq_ok htook
    rw [List.flatten_cons, List.append_assoc, ih]
    exact b.front_append_dropFront most maxSegments

end Backlog

/-! ## Writing -/

/-- An outlet that writes down the bytes it takes; of the bytes offered it takes no
    more than there are. -/
structure Taped (σ : Type u) where
  outlet : σ
  /-- The bytes taken. -/
  tape : Bytes := []

namespace Taped

variable {σ : Type u}

/-- Write down what became of an offer. -/
def note (t : Taped σ) (segments : List Bytes) : σ × Written → Taped σ × Written
  | (outlet, .took n) =>
    let bytes := takeBytes n segments
    (⟨outlet, t.tape ++ bytes⟩, .took bytes.length)
  | (outlet, answer) => ({ t with outlet }, answer)

instance [Outlet σ] : Outlet (Taped σ) where
  write t segments := t.note segments (Outlet.write t.outlet segments)
  flush t :=
    let (outlet, answer) := Outlet.flush t.outlet
    ({ t with outlet }, answer)
  shutdown t :=
    let (outlet, answer) := Outlet.shutdown t.outlet
    ({ t with outlet }, answer)
  release t := { t with outlet := Outlet.release t.outlet }

variable [Outlet σ] {t t' : Taped σ} {segments : List Bytes}

theorem write_eq (t : Taped σ) (segments : List Bytes) :
    Outlet.write t segments = t.note segments (Outlet.write t.outlet segments) := rfl

theorem write_took {n : Nat} (h : Outlet.write t segments = (t', .took n)) :
    ∃ most, n = (takeBytes most segments).length ∧ t'.tape = t.tape ++ takeBytes most segments := by
  rw [write_eq] at h
  unfold note at h
  split at h
  · rename_i outlet most _
    cases h
    exact ⟨most, rfl, rfl⟩
  · rename_i hne _
    injection h with _ hanswer
    exact (hne _ hanswer).elim

/-- Only bytes that are taken are written down. -/
theorem tape_write {answer : Written} (h : Outlet.write t segments = (t', answer))
    (hne : ∀ n, answer ≠ .took n) : t'.tape = t.tape := by
  rw [write_eq] at h
  unfold note at h
  split at h
  · cases h
    exact (hne _ rfl).elim
  · cases h
    rfl

theorem tape_flush {answer : Flushed} (h : Outlet.flush t = (t', answer)) :
    t'.tape = t.tape := by
  cases h
  rfl

end Taped

namespace Backlog

variable {σ : Type u} [Outlet σ]

theorem Counted.writeOnce {b : Backlog} (h : b.Counted) (s : σ) : (b.writeOnce s).1.Counted := by
  unfold Backlog.writeOnce
  split
  · split <;> exact h
  · split
    · exact h
    · exact h
    · split
      · exact h
      · exact h.dropFront _

/-- A call conserves the bytes, whatever the outlet takes. -/
theorem writeOnce_conserves (b : Backlog) (t : Taped σ) :
    (b.writeOnce t).2.1.tape ++ (b.writeOnce t).1.bytes = t.tape ++ b.bytes := by
  unfold writeOnce
  split
  · split
    all_goals
      rename_i hflush
      rw [Taped.tape_flush hflush]
  · split
    · rename_i hwrite
      rw [Taped.tape_write hwrite (by simp)]
    · rename_i hwrite
      rw [Taped.tape_write hwrite (by simp)]
    · rename_i hwrite
      obtain ⟨most, rfl, htape⟩ := Taped.write_took hwrite
      split
      · rename_i hnone
        rw [htape, List.eq_nil_of_length_eq_zero hnone, List.append_nil]
      · rw [htape, List.append_assoc, front_append_dropFront]

theorem Counted.writeAll {b : Backlog} (h : b.Counted) (s : σ) : (b.writeAll s).1.Counted := by
  fun_induction Backlog.writeAll b s with
  | case1 b s left s' result hwrite =>
    have hleft := h.writeOnce s
    rwa [hwrite] at hleft
  | case2 b s left s' hwrite ih =>
    have hleft := h.writeOnce s
    rw [hwrite] at hleft
    exact ih hleft

/-- A run of writes conserves the bytes, whatever the outlet takes. -/
theorem writeAll_conserves (b : Backlog) (t : Taped σ) :
    (b.writeAll t).2.1.tape ++ (b.writeAll t).1.bytes = t.tape ++ b.bytes := by
  fun_induction Backlog.writeAll b t with
  | case1 b t left t' result hwrite =>
    have honce := b.writeOnce_conserves t
    rwa [hwrite] at honce
  | case2 b t left t' hwrite ih =>
    have honce := b.writeOnce_conserves t
    rw [hwrite] at honce
    exact ih.trans honce

end Backlog

end Depot
