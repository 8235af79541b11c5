/-
  Depot — reading what was written between separators.

  Text put between separators is cut back at them (`pieces_flatMap`, `cut?_append`), text without
  blanks at its ends is left alone by `trim` (`trim_of_tight`), and a number is read back from
  its decimal digits (`word32?_toString`).
-/
import Depot.Text.Blank
import Depot.Text.Numeral
import Depot.Text.Split
import Mathlib

namespace Depot.Text

/-! ## Separators -/

variable {separator : Char}

theorem pieces_append_cons {cs : List Char} (h : separator ∉ cs) (rest : List Char) :
    pieces separator (cs ++ separator :: rest) = cs :: pieces separator rest := by
  induction cs with
  | nil => exact if_pos rfl
  | cons c cs ih =>
    obtain ⟨hc, hcs⟩ := List.ne_and_not_mem_of_not_mem_cons h
    rw [List.cons_append, pieces, if_neg (Ne.symm hc), ih hcs]

theorem pieces_of_not_mem {cs : List Char} (h : separator ∉ cs) : pieces separator cs = [cs] := by
  induction cs with
  | nil => rfl
  | cons c cs ih =>
    obtain ⟨hc, hcs⟩ := List.ne_and_not_mem_of_not_mem_cons h
    rw [pieces, if_neg (Ne.symm hc), ih hcs]

/-- Texts with the separator before each are cut at it. -/
theorem pieces_flatMap {α : Type} {text : α → List Char} {as : List α} {cs : List Char}
    (hcs : separator ∉ cs) (h : ∀ a ∈ as, separator ∉ text a) :
    pieces separator (cs ++ as.flatMap fun a => separator :: text a) = cs :: as.map text := by
  induction as generalizing cs with
  | nil => rw [List.flatMap_nil, List.append_nil, pieces_of_not_mem hcs, List.map_nil]
  | cons a as ih =>
    rw [List.flatMap_cons, List.cons_append, pieces_append_cons hcs,
      ih (h a List.mem_cons_self) fun b hb => h b (List.mem_cons_of_mem a hb), List.map_cons]

theorem cut?_append {cs : List Char} (h : separator ∉ cs) (rest : List Char) :
    cut? separator (cs ++ separator :: rest) = some (cs, rest) := by
  induction cs with
  | nil => exact if_pos rfl
  | cons c cs ih =>
    obtain ⟨hc, hcs⟩ := List.ne_and_not_mem_of_not_mem_cons h
    rw [List.cons_append, cut?, if_neg (Ne.symm hc), ih hcs]
    rfl

/-! ## Blanks -/

/-- No blank stands at either end. -/
def Tight (cs : List Char) : Prop :=
  (∀ c ∈ cs.head?, isBlank c = false) ∧ ∀ c ∈ cs.getLast?, isBlank c = false

instance (cs : List Char) : Decidable (Tight cs) := inferInstanceAs (Decidable (_ ∧ _))

theorem dropWhile_isBlank {cs : List Char} (h : ∀ c ∈ cs.head?, isBlank c = false) :
    cs.dropWhile isBlank = cs := by
  cases cs with
  | nil => rfl
  | cons c cs => rw [List.dropWhile_cons_of_neg (by simp [h c rfl])]

theorem trim_of_tight {cs : List Char} (h : Tight cs) : trim cs = cs := by
  have hlast : ∀ c ∈ cs.reverse.head?, isBlank c = false := by
    rw [List.head?_reverse]
    exact h.2
  rw [trim, dropWhile_isBlank h.1, dropWhile_isBlank hlast, List.reverse_reverse]

/-! ## Numbers -/

theorem digitsBelow?_append (base bound acc : Nat) (cs ds : List Char) :
    digitsBelow? base bound acc (cs ++ ds) =
      (digitsBelow? base bound acc cs).bind fun n => digitsBelow? base bound n ds := by
  induction cs generalizing acc with
  | nil => rfl
  | cons c cs ih =>
    rw [List.cons_append, digitsBelow?, digitsBelow?]
    split
    · rfl
    · simp only
      split
      · exact ih _
      · rfl

theorem hexDigit?_digitChar {d : Nat} (h : d < 10) : hexDigit? (Nat.digitChar d) = some d := by
  interval_cases d <;> rfl

theorem digitsBelow?_digit {bound acc d : Nat} (hd : d < 10) (h : acc * 10 + d < bound) :
    digitsBelow? 10 bound acc [Nat.digitChar d] = some (acc * 10 + d) := by
  have hdigit : (hexDigit? (Nat.digitChar d)).filter (· < 10) = some d := by
    rw [hexDigit?_digitChar hd, Option.filter_some, if_pos (decide_eq_true hd)]
  rw [digitsBelow?, hdigit]
  exact if_pos h

/-- Decimal digits are read back. -/
theorem digitsBelow?_toDigits {bound n : Nat} (h : n < bound) :
    digitsBelow? 10 bound 0 (Nat.toDigits 10 n) = some n := by
  induction n using Nat.strongRecOn with
  | ind n ih =>
    rw [Nat.toDigits_eq_if (by decide)]
    split
    · rename_i hdigit
      rw [digitsBelow?_digit hdigit (by omega), Nat.zero_mul, Nat.zero_add]
    · have hsum : n / 10 * 10 + n % 10 = n := by omega
      rw [digitsBelow?_append, ih (n / 10) (by omega) (by omega), Option.bind_some,
        digitsBelow?_digit (Nat.mod_lt _ (by decide)) (by omega), hsum]

theorem toList_toString (n : UInt32) : (toString n).toList = Nat.toDigits 10 n.toNat :=
  Nat.toList_repr

/-- A number is written in one digit or more. -/
theorem toString_cons (n : UInt32) :
    ∃ c cs, (toString n).toList = c :: cs ∧ ∀ d ∈ c :: cs, d.isDigit = true := by
  obtain ⟨c, cs, hcs⟩ := List.exists_cons_of_ne_nil (Nat.toDigits_ne_nil (b := 10) (n := n.toNat))
  rw [toList_toString, hcs]
  exact ⟨c, cs, rfl, fun d hd =>
    Nat.isDigit_of_mem_toDigits (by decide) (by decide) (hcs ▸ hd : d ∈ Nat.toDigits 10 n.toNat)⟩

theorem not_isBlank_of_isDigit {c : Char} (h : c.isDigit = true) : isBlank c = false := by
  have hrange : 48 ≤ c.toNat ∧ c.toNat ≤ 57 := by
    simpa [Char.isDigit, UInt32.le_iff_toNat_le] using h
  simp only [isBlank, Bool.or_eq_false_iff, Bool.and_eq_false_iff, decide_eq_false_iff_not]
  omega

/-- A number is read back from its text. -/
theorem word32?_toString (n : UInt32) : word32? (toString n).toList = some n := by
  obtain ⟨c, cs, hcs, hdigits⟩ := toString_cons n
  have hplus : c ≠ '+' := by
    rintro rfl
    exact absurd (hdigits '+' List.mem_cons_self) (by decide)
  have hread : natural? UInt32.size (c :: cs) = some n.toNat := by
    rw [natural?, whole?, if_neg (by simp), ← hcs, toList_toString]
    · exact digitsBelow?_toDigits n.toNat_lt
    · rintro rest hrest
      exact hplus (List.cons.inj hrest).1
  rw [word32?, hcs, hread, Option.map_some, UInt32.ofNat_toNat]

end Depot.Text
