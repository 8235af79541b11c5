/-
  Depot — a committed object stays.

  An operation that would change a committed object is refused on it
  (`refusalOnCommitted?`); committing it once more leaves it as it is, and only erasing it
  takes it away.  So it stays from one operation to the next (`Accounted.get?_after`), and
  `run_permanent` is about any operations after it was committed.
-/
import Depot.Proofs.Store.InPlace
import Mathlib

namespace Depot.Store

/-- Why an operation is refused where it finds a committed object, if it would change it. -/
def Operation.refusalOnCommitted? : Operation → Option StoreError
  | createZeros key _ | create key _ => some (.keyTaken key)
  | put key _ | extend key _ | write key _ _ => some (.committed key)
  | erase _ | commit _ => none

theorem refusal?_of_committed {s : Store} {op : Operation} {found : StoredObject} {e : StoreError}
    (hk : s.get? op.key = some found) (hm : found.isMutable = false)
    (he : op.refusalOnCommitted? = some e) : op.refusal? s = some e := by
  cases op with
  | createZeros | create | put | extend | write =>
    obtain rfl := Option.some.inj he
    rw [Operation.key] at hk
    simp [hk, hm]
  | erase | commit => cases he

/-- What an operation leaves of a committed object that may be done to it. -/
theorem leaves_of_committed {s : Store} {op : Operation} {found : StoredObject}
    (hk : s.get? op.key = some found) (hm : found.isMutable = false)
    (hr : op.refusal? s = none) : op = .erase op.key ∨ op.leaves (some found) = some found := by
  have hnone : op.refusalOnCommitted? = none := by
    cases he : op.refusalOnCommitted? with
    | none => rfl
    | some e => cases hr.symm.trans (refusal?_of_committed hk hm he)
  cases op with
  | createZeros | create | put | extend | write => cases hnone
  | erase key => exact .inl rfl
  | commit key =>
    right
    rw [Operation.leaves, Option.map_some, ← hm]

/-! ## What else fits -/

/-- The bytes of all objects but the one under the key. -/
def loadBeside (s : Store) (key : Bytes) : Nat := (s.set key none).load

theorem loadBeside_add {s : Store} {key : Bytes} {found : StoredObject}
    (hk : s.get? key = some found) : s.loadBeside key + found.size = s.load := by
  have hset := s.load_set key none
  rwa [sizeAt_of_some hk] at hset

namespace Accounted

variable {s : Store} {key : Bytes} {found : StoredObject} (h : s.Accounted)
  (hk : s.get? key = some found)
include h hk

/-- What is counted is the object, all others and what was lost. -/
theorem used_beside : s.used = s.loadBeside key + found.size + s.lost := by
  rw [loadBeside_add hk]
  exact h.used_eq

/-- More bytes fit as long as they do together with all that. -/
theorem ensureRoom_iff (requested : Nat) : s.ensureRoom requested = .ok () ↔
    s.loadBeside key + found.size + s.lost + requested ≤ s.budget := by
  have hused := h.used_beside hk
  have hle := h.used_le
  rw [ensureRoom_eq_ok_iff]
  omega

/-- Unless it is erased, a committed object is there after an operation as it was before. -/
theorem get?_after (hm : found.isMutable = false) (op : Operation)
    (hkept : op = .erase key → ∀ s', s.act op ≠ .ok s') : (s.after op).get? key = some found := by
  rw [h.after_eq]
  cases hr : op.refusal? s with
  | some e => exact hk
  | none =>
    show (s.leftBy (op.finish s)).get? key = some found
    rcases Nat.lt_or_ge Bytes.most (op.memory s) with hlt | hle
    · rw [Operation.finish_of_lt hlt]
      exact hk
    · rw [Operation.finish_of_le hle]
      show (s.set op.key _).get? key = some found
      rw [get?_set]
      split
      · rename_i heq
        subst heq
        rw [hk]
        refine (leaves_of_committed hk hm hr).resolve_left fun herase =>
          hkept herase (op.result s) ?_
        rw [h.act_eq, Operation.outcome_of_none hr, Operation.finish_of_le hle]
      · exact hk

end Accounted

/-- **A committed object stays until it is erased.**  After any operations that do not erase it,
    however they ended, it is there, committed and with the same bytes.  They count as used:
    what else is to fit has to fit beside them, and beside what was lost.  And whatever would
    change the object is refused and, done in place, leaves the store as it was. -/
theorem run_permanent (budget : UInt64) (ops later : List Operation) (key : Bytes)
    (found : StoredObject) (hk : (run budget.toNat ops).get? key = some found)
    (hm : found.isMutable = false)
    (hkept : ∀ before, before ++ [.erase key] <+: later →
      ∀ s', (run budget.toNat (ops ++ before)).act (.erase key) ≠ .ok s') :
    ∀ before, before <+: later →
      let s := run budget.toNat (ops ++ before)
      let lost := (ofBudget budget.toNat).lostIn (ops ++ before)
      s.get? key = some found ∧
      (s.used = s.loadBeside key + found.size + lost ∧ s.used ≤ budget.toNat ∧
        (∀ requested, s.ensureRoom requested = .ok () ↔
          s.loadBeside key + found.size + lost + requested ≤ budget.toNat) ∧
        ((ofBudget budget.toNat).allEnd (ops ++ before) = true → lost = 0)) ∧
      (∀ (op : Operation) e, op.key = key → op.refusalOnCommitted? = some e →
        s.act op = .error (.refused e) ∧ op.inPlace.on s = some (.error (.refused e), s)) ∧
      runInPlace? budget.toNat (ops ++ before) = some s := by
  intro before hbefore s lost
  have hfound : s.get? key = some found := by
    induction before using List.reverseRecOn with
    | nil => rwa [← List.append_nil ops] at hk
    | append_singleton before op ih =>
      have hk' := ih ((List.prefix_append before [op]).trans hbefore)
      have h := accounted_run budget.toNat (ops ++ before)
      show (run _ (ops ++ (before ++ [op]))).get? key = some found
      rw [← List.append_assoc, run_concat]
      refine h.get?_after hk' hm op fun herase s' => ?_
      subst herase
      exact hkept before hbefore s'
  have h : s.Accounted := accounted_run _ _
  have hbudget : s.budget = budget.toNat := budget_run _ _
  have hword : s.budget < UInt64.size := hbudget.trans_lt budget.toNat_lt
  have hlost : s.lost = lost := lost_run _ _
  refine ⟨hfound, ⟨?_, h.used_le.trans_eq hbudget, fun requested => ?_, fun hend => ?_⟩, ?_,
    runInPlace?_eq budget.toNat_lt _⟩
  · rw [h.used_beside hfound, hlost]
  · rw [h.ensureRoom_iff hfound, hlost, hbudget]
  · exact lostIn_of_allEnd (accounted_run _ []) hend
  · rintro op e rfl he
    have hact : s.act op = .error (.refused e) := by
      rw [h.act_eq, Operation.outcome_of_some e (refusal?_of_committed hfound hm he)]
    have hplace := h.on_inPlace hword op
    rw [hact] at hplace
    exact ⟨hact, hplace⟩

/-- Three bytes are committed, another object comes and goes, and a put is refused. -/
theorem run_permanent_three :
    let s := run 10 [.create [1] [7, 7, 7], .commit [1], .createZeros [2] 7, .put [1] [8],
      .erase [2], .createZeros [3] 8]
    s.get? [1] = some ⟨[7, 7, 7], false⟩ ∧ s.ensureRoom 7 = .ok () ∧ s.ensureRoom 8 ≠ .ok () ∧
      s.act (.put [1] [8]) = .error (.refused (.committed [1])) := by
  intro s
  let later : List Operation := [.createZeros [2] 7, .put [1] [8], .erase [2], .createZeros [3] 8]
  have hkept : ∀ before, ¬ before ++ [.erase [1]] <+: later := fun before hbefore =>
    absurd (hbefore.subset (List.mem_append_right before (List.mem_singleton_self _))) (by decide)
  obtain ⟨hfound, ⟨-, -, hroom, -⟩, hrefused, -⟩ :=
    run_permanent 10 [.create [1] [7, 7, 7], .commit [1]] later [1] ⟨[7, 7, 7], false⟩ rfl rfl
      (fun before hbefore => absurd hbefore (hkept before)) later (List.prefix_refl later)
  have hroom : ∀ n, s.ensureRoom n = .ok () ↔ 0 + 3 + 0 + n ≤ 10 := hroom
  exact ⟨hfound, (hroom 7).2 (by decide), fun hok => absurd ((hroom 8).1 hok) (by decide),
    (hrefused (.put [1] [8]) _ rfl rfl).1⟩

end Depot.Store
