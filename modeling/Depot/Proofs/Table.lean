/-
  Depot — the entries of a table, and the bytes in a table of byte strings.

  `entries_split` has an entry among the others before and after an operation, so that the
  bytes in all entries (`weight`) are those of the others and its own.
-/
import Depot.Bytes
import Depot.Table
import Mathlib

namespace Depot.Table

variable {κ : Type u} {α : Type v} {β : Type w}

theorem eq_of_entries {t u : Table κ α} (h : t.entries = u.entries) : t = u := by
  cases t
  cases u
  cases h
  rfl

theorem length_keys (t : Table κ α) : t.keys.length = t.size := List.length_map _

theorem keys_map (f : κ → α → β) (t : Table κ α) : (t.map f).keys = t.keys := by
  simp only [keys, map, List.map_map]
  rfl

variable [DecidableEq κ]

theorem entries_insert {t : Table κ α} {k : κ} (h : t.get? k = none) (a : α) :
    (t.insert k a).entries = t.entries ++ [(k, a)] := by
  simp only [insert, dif_pos h]

theorem insert_of_some {t : Table κ α} {k : κ} {b : α} (h : t.get? k = some b) (a : α) :
    t.insert k a = t.modify k fun _ => a := by
  simp only [insert, h, reduceCtorEq, dif_neg, not_false_eq_true]

theorem modify_eq_insert {t : Table κ α} {k : κ} {a : α} (h : t.get? k = some a) (f : α → α) :
    t.modify k f = t.insert k (f a) := by
  rw [insert_of_some h]
  refine eq_of_entries (List.map_congr_left fun e he => ?_)
  dsimp only
  split
  · rename_i hk
    have hvalue : t.get? k = some e.2 := mem_entries.1 (hk ▸ he)
    rw [h] at hvalue
    cases hvalue
    rfl
  · rfl

/-- Entries that have different keys make a table as they are. -/
theorem entries_ofList {es : List (κ × α)} (h : (es.map Prod.fst).Nodup) :
    (ofList es).entries = es := by
  have hmore : ∀ (es : List (κ × α)) (t : Table κ α),
      ((t.entries ++ es).map Prod.fst).Nodup →
        (es.foldl (fun t e => t.insert e.1 e.2) t).entries = t.entries ++ es := by
    intro es
    induction es with
    | nil => exact fun t _ => (List.append_nil _).symm
    | cons e es ih =>
      intro t hnodup
      have hnew : t.get? e.1 = none := by
        refine get?_eq_none_iff.2 fun hkey => ?_
        rw [List.map_append, List.nodup_append] at hnodup
        exact hnodup.2.2 e.1 hkey e.1 List.mem_cons_self rfl
      have hentries := entries_insert hnew e.2
      rw [List.foldl_cons, ih (t.insert e.1 e.2) (by rwa [hentries, List.append_assoc]), hentries,
        List.append_assoc]
      rfl
  exact hmore es empty h

/-- The entry of a key that is there, among the others. -/
theorem entries_split {t : Table κ α} {k : κ} {a : α} (h : t.get? k = some a) :
    ∃ before after, t.entries = before ++ (k, a) :: after ∧
      (t.erase k).entries = before ++ after ∧
      ∀ b, (t.insert k b).entries = before ++ (k, b) :: after := by
  obtain ⟨before, after, hsplit⟩ := List.mem_iff_append.1 (mem_entries.2 h)
  have hnodup := t.nodup
  simp only [hsplit, List.map_append, List.map_cons, List.nodup_middle, List.nodup_cons,
    List.mem_append, List.mem_map, not_or, not_exists, not_and] at hnodup
  obtain ⟨⟨hbefore, hafter⟩, -⟩ := hnodup
  refine ⟨before, after, hsplit, ?_, fun b => ?_⟩
  · simp only [erase, filter, hsplit, List.filter_append, List.filter_cons]
    rw [List.filter_eq_self.2 fun e he => by simpa using hbefore e he,
      List.filter_eq_self.2 fun e he => by simpa using hafter e he]
    simp
  · rw [insert_of_some h]
    have hother : ∀ e : κ × α, e.1 ≠ k → (e.1, if e.1 = k then b else e.2) = e :=
      fun e he => by rw [if_neg he]
    simp only [modify, map, hsplit, List.map_append, List.map_cons, if_true]
    rw [List.map_congr_left fun e he => hother e (hbefore e he),
      List.map_congr_left fun e he => hother e (hafter e he), List.map_id', List.map_id']

/-- A key that is erased was one of the keys, and the others are left. -/
theorem perm_keys_erase {t : Table κ α} {k : κ} {a : α} (h : t.get? k = some a) :
    (k :: (t.erase k).keys).Perm t.keys := by
  obtain ⟨before, after, hall, herase, -⟩ := entries_split h
  rw [keys, keys, hall, herase, List.map_append, List.map_append, List.map_cons]
  exact List.perm_middle.symm

theorem map_insert (f : α → β) (t : Table κ α) (k : κ) (a : α) :
    (t.insert k a).map (fun _ => f) = (t.map fun _ => f).insert k (f a) := by
  have hget : (t.map fun _ => f).get? k = (t.get? k).map f := get?_map _ t k
  refine eq_of_entries ?_
  cases h : t.get? k with
  | none =>
    rw [h] at hget
    rw [entries_insert hget]
    simp only [map, entries_insert h, List.map_append, List.map_cons, List.map_nil]
  | some b =>
    rw [h] at hget
    rw [insert_of_some h, insert_of_some hget]
    simp only [modify, map, List.map_map]
    refine List.map_congr_left fun e _ => ?_
    simp only [Function.comp_apply]
    split <;> rfl

theorem map_erase (f : α → β) (t : Table κ α) (k : κ) :
    (t.erase k).map (fun _ => f) = (t.map fun _ => f).erase k := by
  refine eq_of_entries ?_
  simp only [erase, filter, map, List.filter_map]
  rfl

/-- The bytes in all objects of a table. -/
def weight (t : Table κ Bytes) : Nat := Bytes.total t.values

theorem weight_insert_new {t : Table κ Bytes} {k : κ} (h : t.get? k = none) (data : Bytes) :
    (t.insert k data).weight = t.weight + data.length := by
  simp only [weight, values, entries_insert h, List.map_append, List.map_cons, List.map_nil,
    Bytes.total_append, Bytes.total, Nat.add_zero]

theorem weight_insert_over {t : Table κ Bytes} {k : κ} {old : Bytes} (h : t.get? k = some old)
    (data : Bytes) : (t.insert k data).weight + old.length = t.weight + data.length := by
  obtain ⟨before, after, hall, -, hinsert⟩ := entries_split h
  simp only [weight, values, hall, hinsert, List.map_append, List.map_cons, Bytes.total_append,
    Bytes.total]
  omega

theorem weight_erase {t : Table κ Bytes} {k : κ} {old : Bytes} (h : t.get? k = some old) :
    (t.erase k).weight + old.length = t.weight := by
  obtain ⟨before, after, hall, herase, -⟩ := entries_split h
  simp only [weight, values, hall, herase, List.map_append, List.map_cons, Bytes.total_append,
    Bytes.total]
  omega

theorem erase_of_none {t : Table κ α} {k : κ} (h : t.get? k = none) : t.erase k = t := by
  refine eq_of_entries (List.filter_eq_self.2 fun e he => ?_)
  have hk := get?_eq_none_iff.1 h
  exact decide_eq_true fun hkey => hk (hkey ▸ List.mem_map_of_mem he)

theorem weight_erase_le (t : Table κ Bytes) (k : κ) : (t.erase k).weight ≤ t.weight := by
  cases h : t.get? k with
  | none => rw [erase_of_none h]
  | some old => exact Nat.le_of_add_right_le (weight_erase h).le

/-! ## Entries that are modified -/

theorem modify_congr {t : Table κ α} {k : κ} {f g : α → α}
    (h : ∀ a, t.get? k = some a → f a = g a) : t.modify k f = t.modify k g := by
  refine eq_of_entries (List.map_congr_left fun e he => ?_)
  dsimp only
  split
  · rename_i hk
    rw [h e.2 (mem_entries.1 (hk ▸ he))]
  · rfl

/-- Nothing happens to an entry that is not there or is given the value it has. -/
theorem modify_eq_self {t : Table κ α} {k : κ} {f : α → α}
    (h : ∀ a, t.get? k = some a → f a = a) : t.modify k f = t := by
  rw [modify_congr (g := id) h]
  refine eq_of_entries ?_
  simp only [modify, map, id, ite_self, List.map_id']

theorem modify_modify (t : Table κ α) (k : κ) (f g : α → α) :
    (t.modify k f).modify k g = t.modify k fun a => g (f a) := by
  refine eq_of_entries ?_
  simp only [modify, map, List.map_map]
  refine List.map_congr_left fun e _ => ?_
  simp only [Function.comp_apply]
  split <;> rfl

theorem modify_comm {k k' : κ} (h : k ≠ k') (t : Table κ α) (f g : α → α) :
    (t.modify k f).modify k' g = (t.modify k' g).modify k f := by
  refine eq_of_entries ?_
  simp only [modify, map, List.map_map]
  refine List.map_congr_left fun e _ => ?_
  simp only [Function.comp_apply]
  by_cases hk : e.1 = k
  · have hk' : ¬ e.1 = k' := fun he => h (hk.symm.trans he)
    simp only [if_pos hk, if_neg hk']
  · simp only [if_neg hk]

theorem erase_modify (t : Table κ α) (k k' : κ) (f : α → α) :
    (t.modify k f).erase k' = (t.erase k').modify k f := by
  refine eq_of_entries ?_
  simp only [erase, filter, modify, map, List.filter_map]
  rfl

theorem erase_modify_self (t : Table κ α) (k : κ) (f : α → α) :
    (t.modify k f).erase k = t.erase k := by
  rw [erase_modify]
  refine modify_eq_self fun a ha => ?_
  rw [get?_erase, if_pos rfl] at ha
  cases ha

end Depot.Table
