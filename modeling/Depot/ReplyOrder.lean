/-
  Depot — replies put back into the order of their requests.

  Each forwarded request of a client reserves a slot.  Replies come in any order
  and wait until every earlier slot has its reply.  The window holds the slots
  from `first` on: `none` for a reply that is owed, `some` for one that waits.
-/

namespace Depot

/-- Replies of type `α` under numbered slots. -/
structure ReplyOrder (α : Type u) where
  /-- The first slot that is not released. -/
  first : Nat := 0
  /-- What is known of the slots from `first` on. -/
  window : List (Option α) := []
  deriving Repr

namespace ReplyOrder

variable {α : Type u}

def next (o : ReplyOrder α) : Nat := o.first + o.window.length

def reserve (o : ReplyOrder α) : ReplyOrder α × Nat :=
  ({ o with window := o.window ++ [none] }, o.next)

def isOwed (o : ReplyOrder α) (slot : Nat) : Bool :=
  decide (o.first ≤ slot) && (o.window[slot - o.first]?).any Option.isNone

/-- Keep the reply of a slot that is owed one; `none` for any other slot. -/
def fill? (o : ReplyOrder α) (slot : Nat) (reply : α) : Option (ReplyOrder α) :=
  if o.isOwed slot then some { o with window := o.window.set (slot - o.first) (some reply) }
  else none

/-- The replies at the front of a window. -/
def ready : List (Option α) → List α
  | some reply :: rest => reply :: ready rest
  | _ => []

/-- Release the longest run of replies from the first slot on. -/
def release (o : ReplyOrder α) : ReplyOrder α × List α :=
  let replies := ready o.window
  let count := replies.length
  ({ first := o.first + count, window := o.window.drop count }, replies)

def owed (o : ReplyOrder α) : Nat := o.window.length

/-! ## The slots after each operation -/

theorem isOwed_iff {o : ReplyOrder α} {slot : Nat} :
    o.isOwed slot = true ↔ o.first ≤ slot ∧ o.window[slot - o.first]? = some none := by
  rw [isOwed, Bool.and_eq_true, decide_eq_true_eq, Option.any_eq_true]
  simp only [Option.isNone_iff_eq_none, exists_eq_right]

theorem lt_next_of_isOwed {o : ReplyOrder α} {slot : Nat} (h : o.isOwed slot = true) :
    slot < o.next := by
  obtain ⟨h₁, h₂⟩ := isOwed_iff.1 h
  obtain ⟨h₃, -⟩ := List.getElem?_eq_some_iff.1 h₂
  unfold next
  omega

theorem isOwed_reserve (o : ReplyOrder α) (slot : Nat) :
    o.reserve.1.isOwed slot = true ↔ o.isOwed slot = true ∨ slot = o.next := by
  rw [isOwed_iff, isOwed_iff]
  show o.first ≤ slot ∧ (o.window ++ [none])[slot - o.first]? = some none ↔ _
  rw [next, List.getElem?_append]
  split
  · rename_i h
    exact ⟨Or.inl, fun hs => hs.resolve_right (by omega)⟩
  · rename_i h
    rw [List.getElem?_singleton]
    constructor
    · rintro ⟨h₁, h₂⟩
      split at h₂
      · right; omega
      · cases h₂
    · rintro (⟨-, h₂⟩ | rfl)
      · rw [List.getElem?_eq_none (by omega)] at h₂; cases h₂
      · exact ⟨by omega, by rw [if_pos (by omega)]⟩

theorem isOwed_of_fill? {o o' : ReplyOrder α} {slot : Nat} {reply : α}
    (h : o.fill? slot reply = some o') : o.isOwed slot = true := by
  unfold fill? at h
  split at h
  · assumption
  · cases h

theorem fill?_eq {o o' : ReplyOrder α} {slot : Nat} {reply : α} (h : o.fill? slot reply = some o') :
    o.first ≤ slot ∧ o' = { o with window := o.window.set (slot - o.first) (some reply) } := by
  unfold fill? at h
  split at h
  · rename_i ho
    cases h
    exact ⟨(isOwed_iff.1 ho).1, rfl⟩
  · cases h

theorem isOwed_fill? {o o' : ReplyOrder α} {slot : Nat} {reply : α}
    (h : o.fill? slot reply = some o') (s : Nat) :
    o'.isOwed s = true ↔ o.isOwed s = true ∧ s ≠ slot := by
  unfold fill? at h
  split at h
  · rename_i howed
    cases h
    obtain ⟨h₁, -⟩ := isOwed_iff.1 howed
    rw [isOwed_iff, isOwed_iff]
    show o.first ≤ s ∧ (o.window.set (slot - o.first) (some reply))[s - o.first]? = some none ↔ _
    by_cases hs : s = slot
    · subst hs
      rw [List.getElem?_set_self']
      cases o.window[s - o.first]? <;> simp
    · rw [and_assoc]
      refine and_congr_right fun h₂ => ?_
      rw [List.getElem?_set_ne (by omega)]
      exact ⟨fun h => ⟨h, hs⟩, And.left⟩
  · cases h

theorem ready_append_drop (w : List (Option α)) :
    (ready w).map some ++ w.drop (ready w).length = w := by
  induction w with
  | nil => rfl
  | cons x w ih =>
    cases x with
    | none => rfl
    | some reply => simpa [ready] using ih

theorem ready_drop (w : List (Option α)) : ready (w.drop (ready w).length) = [] := by
  induction w with
  | nil => rfl
  | cons x w ih =>
    cases x with
    | none => rfl
    | some reply => simpa [ready] using ih

/-- Once everything that is ready is released, the first slot is owed a reply. -/
theorem isOwed_first {o : ReplyOrder α} (h : ready o.window = []) (ho : o.owed ≠ 0) :
    o.isOwed o.first = true := by
  refine isOwed_iff.2 ⟨Nat.le_refl _, ?_⟩
  unfold owed at ho
  rw [Nat.sub_self]
  cases hw : o.window with
  | nil => exact absurd (by rw [hw]; rfl) ho
  | cons x w =>
    rw [hw] at h
    cases x with
    | none => rfl
    | some reply => cases h

/-- Every slot that is released has its reply. -/
theorem isOwed_release (o : ReplyOrder α) (slot : Nat) :
    o.release.1.isOwed slot = true ↔ o.isOwed slot = true := by
  rw [isOwed_iff, isOwed_iff]
  show o.first + (ready o.window).length ≤ slot ∧
    (o.window.drop (ready o.window).length)[slot - (o.first + (ready o.window).length)]? =
      some none ↔ _
  rw [List.getElem?_drop]
  constructor
  · rintro ⟨h₁, h₂⟩
    exact ⟨by omega, by rwa [show slot - o.first =
      (ready o.window).length + (slot - (o.first + (ready o.window).length)) by omega]⟩
  · rintro ⟨h₁, h₂⟩
    have hlen : (ready o.window).length ≤ slot - o.first := by
      refine Nat.le_of_not_lt fun hlt => ?_
      rw [← ready_append_drop o.window, List.getElem?_append_left (by simpa using hlt),
        List.getElem?_map] at h₂
      cases hr : (ready o.window)[slot - o.first]? <;> simp [hr] at h₂
    exact ⟨by omega, by rwa [show (ready o.window).length +
      (slot - (o.first + (ready o.window).length)) = slot - o.first by omega]⟩

theorem next_reserve (o : ReplyOrder α) : o.reserve.1.next = o.next + 1 := by
  show o.first + (o.window ++ [none]).length = o.first + o.window.length + 1
  rw [List.length_append, Nat.add_assoc]
  rfl

theorem next_fill? {o o' : ReplyOrder α} {slot : Nat} {reply : α}
    (h : o.fill? slot reply = some o') : o'.next = o.next := by
  obtain ⟨-, rfl⟩ := fill?_eq h
  rw [next, List.length_set, next]

theorem length_release_le (o : ReplyOrder α) : o.release.2.length ≤ o.window.length := by
  have h := congrArg List.length (ready_append_drop o.window)
  rw [List.length_append, List.length_map] at h
  show (ready o.window).length ≤ o.window.length
  omega

theorem next_release (o : ReplyOrder α) : o.release.1.next = o.next := by
  have h := congrArg List.length (ready_append_drop o.window)
  rw [List.length_append, List.length_map] at h
  show o.first + _ + (o.window.drop _).length = o.first + o.window.length
  omega

end ReplyOrder

end Depot
