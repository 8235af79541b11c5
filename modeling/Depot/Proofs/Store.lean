/-
  Depot — what the operations of a store that a node uses do.

  Each operation is a condition and, if it holds, a change under one key:
  `create_eq_ok_iff`, `put_cases` and `erase_of_some` give the condition, and
  `get?_create`, `get?_put` and `get?_erase` the objects after it.  What holds of every
  object before an operation and of the one that it adds holds of every object after it.
-/
import Depot.Store
import Mathlib

namespace Depot.Store

variable {s s' : Store} {key data : Bytes}

theorem ensureRoom_eq_ok_iff {requested : Nat} {u : Unit} :
    s.ensureRoom requested = .ok u ↔ requested ≤ s.budget - s.used := by
  unfold ensureRoom
  split
  · rename_i h
    exact ⟨nofun, fun hle => absurd hle (Nat.not_le.2 h)⟩
  · rename_i h
    exact ⟨fun _ => Nat.not_lt.1 h, fun _ => rfl⟩

theorem ensureRoom_eq_error {requested : Nat} {e : StoreError}
    (h : s.ensureRoom requested = .error e) : e = .overBudget requested s.used s.budget := by
  unfold ensureRoom at h
  split at h
  · cases h
    rfl
  · cases h

/-! ## Adding -/

theorem create_of_some {old : StoredObject} (h : s.get? key = some old) :
    s.create key data = .error (.keyTaken key) := by
  unfold create
  rw [h]

theorem create_of_none (h : s.get? key = none) :
    s.create key data = (s.ensureRoom data.length).map fun _ =>
      { s with objects := s.objects.insert key ⟨data, true⟩, used := s.used + data.length } := by
  unfold create
  rw [h]
  dsimp only
  cases s.ensureRoom data.length <;> rfl

theorem create_eq_ok_iff : s.create key data = .ok s' ↔
    s.get? key = none ∧ data.length ≤ s.budget - s.used ∧
      s' = { s with
        objects := s.objects.insert key ⟨data, true⟩
        used := s.used + data.length } := by
  cases hk : s.get? key with
  | some old =>
    unfold create
    rw [hk]
    exact ⟨nofun, fun h => nomatch h.1⟩
  | none =>
    rw [create_of_none hk]
    cases hr : s.ensureRoom data.length with
    | error e =>
      refine ⟨nofun, fun h => ?_⟩
      cases hr.symm.trans (ensureRoom_eq_ok_iff (u := ()).2 h.2.1)
    | ok u =>
      have hroom := ensureRoom_eq_ok_iff.1 hr
      constructor
      · intro h
        cases h
        exact ⟨rfl, hroom, rfl⟩
      · rintro ⟨-, -, rfl⟩
        rfl

theorem get?_create (h : s.create key data = .ok s') (k : Bytes) :
    s'.get? k = if k = key then some ⟨data, true⟩ else s.get? k := by
  obtain ⟨-, -, rfl⟩ := create_eq_ok_iff.1 h
  exact Table.get?_insert _ _ _ _

/-! ## Putting -/

/-- The bytes by which the objects grow when one is put under a key. -/
def growth (s : Store) (key data : Bytes) : Nat :=
  data.length - ((s.get? key).map StoredObject.size).getD 0

/-- The object under a key is committed. -/
def Committed (s : Store) (key : Bytes) : Prop :=
  ∃ found, s.get? key = some found ∧ found.isMutable = false

/-- The outcomes of putting an object. -/
inductive PutOutcome (s : Store) (key data : Bytes) : Except StoreError (Store × Bool) → Prop
  | done {s' : Store} {replaced : Bool} (hc : ¬ s.Committed key)
      (hroom : s.growth key data ≤ s.budget - s.used)
      (hget : ∀ k, s'.get? k = if k = key then some ⟨data, true⟩ else s.get? k) :
      PutOutcome s key data (.ok (s', replaced))
  | committed (hc : s.Committed key) : PutOutcome s key data (.error (.committed key))
  | overBudget (hc : ¬ s.Committed key) (hroom : s.budget - s.used < s.growth key data) :
      PutOutcome s key data (.error (.overBudget (s.growth key data) s.used s.budget))

theorem put_of_none (h : s.get? key = none) :
    s.put key data = (s.create key data).map fun s => (s, false) := by
  unfold put
  rw [h]

theorem put_of_mutable {old : StoredObject} (h : s.get? key = some old)
    (hm : old.isMutable = true) :
    s.put key data = (s.ensureRoom (data.length - old.size)).map fun _ =>
      (s.replace key old data, true) := by
  unfold put
  rw [h]
  dsimp only
  rw [if_pos hm]
  cases s.ensureRoom (data.length - old.size) <;> rfl

theorem put_of_committed {old : StoredObject} (h : s.get? key = some old)
    (hm : old.isMutable = false) : s.put key data = .error (.committed key) := by
  unfold put
  rw [h]
  dsimp only
  rw [hm]
  rfl

theorem put_cases (s : Store) (key data : Bytes) : s.PutOutcome key data (s.put key data) := by
  cases hk : s.get? key with
  | none =>
    have hc : ¬ s.Committed key := fun ⟨_, hfound, _⟩ => Option.some_ne_none _ (hfound.symm.trans hk)
    have hgrowth : s.growth key data = data.length := by rw [growth, hk]; rfl
    rw [put_of_none hk, create_of_none hk]
    cases hr : s.ensureRoom data.length with
    | error e =>
      have hroom : ¬ data.length ≤ s.budget - s.used := fun hle => by
        cases hr.symm.trans (ensureRoom_eq_ok_iff (u := ()).2 hle)
      rw [ensureRoom_eq_error hr, ← hgrowth]
      exact .overBudget hc (hgrowth ▸ Nat.not_le.1 hroom)
    | ok u =>
      exact .done hc (hgrowth ▸ ensureRoom_eq_ok_iff.1 hr) fun k => Table.get?_insert _ _ _ _
  | some old =>
    have hgrowth : s.growth key data = data.length - old.size := by rw [growth, hk]; rfl
    cases hm : old.isMutable with
    | false =>
      rw [put_of_committed hk hm]
      exact .committed ⟨old, hk, hm⟩
    | true =>
      have hc : ¬ s.Committed key := by
        rintro ⟨found, hfound, hcommitted⟩
        cases hfound.symm.trans hk
        cases hm.symm.trans hcommitted
      rw [put_of_mutable hk hm]
      cases hr : s.ensureRoom (data.length - old.size) with
      | error e =>
        have hroom : ¬ data.length - old.size ≤ s.budget - s.used := fun hle => by
          cases hr.symm.trans (ensureRoom_eq_ok_iff (u := ()).2 hle)
        rw [ensureRoom_eq_error hr, ← hgrowth]
        exact .overBudget hc (hgrowth ▸ Nat.not_le.1 hroom)
      | ok u =>
        refine .done hc (hgrowth ▸ ensureRoom_eq_ok_iff.1 hr) fun k => ?_
        have hnew : ({ old with data } : StoredObject) = ⟨data, true⟩ := by rw [← hm]
        rw [← hnew]
        exact Table.get?_insert _ _ _ _

theorem get?_put {replaced : Bool} (h : s.put key data = .ok (s', replaced)) (k : Bytes) :
    s'.get? k = if k = key then some ⟨data, true⟩ else s.get? k := by
  have hp := s.put_cases key data
  rw [h] at hp
  cases hp with
  | done hc hroom hget => exact hget k

/-! ## Removing -/

theorem erase_of_some {old : StoredObject} (h : s.get? key = some old) :
    s.erase key = .ok { s with objects := s.objects.erase key, used := s.used - old.size } := by
  unfold erase require
  rw [h]
  rfl

theorem erase_of_none (h : s.get? key = none) : s.erase key = .error (.noSuchKey key) := by
  unfold erase require
  rw [h]
  rfl

theorem get?_erase (h : s.erase key = .ok s') (k : Bytes) :
    s'.get? k = if k = key then none else s.get? k := by
  cases hk : s.get? key with
  | none =>
    rw [erase_of_none hk] at h
    cases h
  | some old =>
    rw [erase_of_some hk] at h
    cases h
    exact Table.get?_erase _ _ _

/-! ## Every object -/

/-- Every object of the store is such. -/
def Every (P : Bytes → StoredObject → Prop) (s : Store) : Prop :=
  ∀ key found, s.get? key = some found → P key found

namespace Every

variable {P : Bytes → StoredObject → Prop}

/-- The store has one object more. -/
theorem insert (h : s.Every P) (hd : P key ⟨data, true⟩)
    (hs : ∀ k, s'.get? k = if k = key then some ⟨data, true⟩ else s.get? k) : s'.Every P := by
  intro k found hk
  rw [hs] at hk
  split at hk
  · rename_i hkey
    cases hk
    exact hkey ▸ hd
  · exact h k found hk

theorem create (h : s.Every P) (hd : P key ⟨data, true⟩) :
    (s.orBefore (s.create key data)).Every P := by
  cases hr : s.create key data with
  | error e => exact h
  | ok s' => exact h.insert hd (get?_create hr)

theorem put (h : s.Every P) (hd : P key ⟨data, true⟩) :
    (s.orBefore ((s.put key data).map Prod.fst)).Every P := by
  cases hr : s.put key data with
  | error e => exact h
  | ok out => exact h.insert hd (get?_put hr)

theorem erase (h : s.Every P) (key : Bytes) : (s.orBefore (s.erase key)).Every P := by
  cases hr : s.erase key with
  | error e => exact h
  | ok s' =>
    intro k found hk
    replace hk : s'.get? k = some found := hk
    rw [get?_erase hr] at hk
    split at hk
    · cases hk
    · exact h k found hk

end Every

end Depot.Store
