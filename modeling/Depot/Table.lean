/-
  Depot — finite maps in order of insertion.

  `Table κ α` holds at most one value for each key.  `get?` is the view that
  says what a table is: `get?_insert`, `get?_erase` and `get?_map` give it after
  each operation.  `entries` lists the pairs in the order in which their keys
  were first inserted.
-/

namespace Depot

/-- A finite map from `κ` to `α`. -/
structure Table (κ : Type u) (α : Type v) where
  entries : List (κ × α) := []
  /-- A key stands once. -/
  nodup : (entries.map Prod.fst).Nodup := by simp

namespace Table

variable {κ : Type u} {α : Type v}

def empty : Table κ α := {}

instance : Inhabited (Table κ α) := ⟨empty⟩

/-- The keys, oldest first. -/
def keys (t : Table κ α) : List κ := t.entries.map Prod.fst

/-- The values, oldest key first. -/
def values (t : Table κ α) : List α := t.entries.map Prod.snd

def size (t : Table κ α) : Nat := t.entries.length

/-- Apply `f` to every value. -/
def map {β : Type w} (f : κ → α → β) (t : Table κ α) : Table κ β where
  entries := t.entries.map fun e => (e.1, f e.1 e.2)
  nodup := by simpa [Function.comp_def] using t.nodup

/-- Keep the entries that satisfy `p`. -/
def filter (p : κ → α → Bool) (t : Table κ α) : Table κ α where
  entries := t.entries.filter fun e => p e.1 e.2
  nodup := t.nodup.sublist (List.filter_sublist.map Prod.fst)

@[simp] theorem size_map {β : Type w} (f : κ → α → β) (t : Table κ α) :
    (t.map f).size = t.size := by
  simp [size, map]

variable [DecidableEq κ]

def get? (t : Table κ α) (k : κ) : Option α :=
  (t.entries.find? fun e => e.1 = k).map Prod.snd

def contains (t : Table κ α) (k : κ) : Bool := (t.get? k).isSome

def erase (t : Table κ α) (k : κ) : Table κ α := t.filter fun k' _ => k' ≠ k

/-- Apply `f` to the value of a key. -/
def modify (t : Table κ α) (k : κ) (f : α → α) : Table κ α :=
  t.map fun k' a => if k' = k then f a else a

theorem get?_eq_none_iff {t : Table κ α} {k : κ} : t.get? k = none ↔ k ∉ t.keys := by
  simp only [get?, keys, Option.map_eq_none_iff, List.find?_eq_none, decide_eq_true_eq,
    List.mem_map, not_exists, not_and]

/-- Give a key a value, in place of the one that it has. -/
def insert (t : Table κ α) (k : κ) (a : α) : Table κ α :=
  if h : t.get? k = none then
    { entries := t.entries ++ [(k, a)]
      nodup := by
        have hk := get?_eq_none_iff.1 h
        rw [List.map_append, List.nodup_append]
        refine ⟨t.nodup, by simp, ?_⟩
        intro x hx y hy
        simp only [List.map_cons, List.map_nil, List.mem_singleton] at hy
        exact fun e => hk (by rw [← hy, ← e]; exact hx) }
  else t.modify k fun _ => a

/-- The table with these entries, the last of several for a key winning. -/
def ofList (es : List (κ × α)) : Table κ α := es.foldl (fun t e => t.insert e.1 e.2) empty

/-! ## Sizes -/

@[simp] theorem size_modify (t : Table κ α) (k : κ) (f : α → α) : (t.modify k f).size = t.size :=
  size_map _ t

theorem size_erase_lt {t : Table κ α} {k : κ} (h : t.get? k ≠ none) :
    (t.erase k).size < t.size := by
  rw [ne_eq, get?_eq_none_iff, Decidable.not_not] at h
  obtain ⟨e, he, rfl⟩ := List.mem_map.1 h
  exact List.length_filter_lt_length_iff_exists.2 ⟨e, he, by simp⟩

/-! ## The view after each operation -/

@[simp] theorem get?_empty (k : κ) : (empty : Table κ α).get? k = none := rfl

theorem get?_map {β : Type w} (f : κ → α → β) (t : Table κ α) (k : κ) :
    (t.map f).get? k = (t.get? k).map (f k) := by
  have key : ∀ es : List (κ × α),
      ((es.map fun e => (e.1, f e.1 e.2)).find? fun e => e.1 = k).map Prod.snd =
        ((es.find? fun e => e.1 = k).map Prod.snd).map (f k) := by
    intro es
    induction es with
    | nil => rfl
    | cons e es ih =>
      by_cases h : e.1 = k
      · simp [h]
      · simpa [h] using ih
  exact key t.entries

theorem get?_filter_key (p : κ → Bool) (t : Table κ α) (k : κ) :
    (t.filter fun k' _ => p k').get? k = if p k then t.get? k else none := by
  have key : ∀ es : List (κ × α),
      ((es.filter fun e => p e.1).find? fun e => e.1 = k).map Prod.snd =
        if p k then (es.find? fun e => e.1 = k).map Prod.snd else none := by
    intro es
    induction es with
    | nil => simp
    | cons e es ih =>
      by_cases h : e.1 = k
      · subst h
        by_cases hp : p e.1
        · simp [hp]
        · simpa [hp] using ih
      · by_cases hp : p e.1
        · simpa [hp, h] using ih
        · simpa [hp, h] using ih
  exact key t.entries

theorem get?_erase (t : Table κ α) (k k' : κ) :
    (t.erase k).get? k' = if k' = k then none else t.get? k' := by
  rw [erase, get?_filter_key]
  by_cases h : k' = k <;> simp [h]

theorem get?_modify (t : Table κ α) (k k' : κ) (f : α → α) :
    (t.modify k f).get? k' = (t.get? k').map fun a => if k' = k then f a else a :=
  get?_map _ t k'

/-- An entry that is there is replaced. -/
theorem get?_replace {t : Table κ α} {k : κ} {a : α} (h : t.get? k = some a) (b : α) (k' : κ) :
    (t.modify k fun _ => b).get? k' = if k' = k then some b else t.get? k' := by
  rw [get?_modify]
  split
  · rename_i hk
    rw [hk, h]
    rfl
  · exact Option.map_id'

theorem get?_insert (t : Table κ α) (k k' : κ) (a : α) :
    (t.insert k a).get? k' = if k' = k then some a else t.get? k' := by
  by_cases h : t.get? k = none
  · have e : t.entries.find? (fun e => e.1 = k) = none := by
      simpa [get?] using h
    have hi : (t.insert k a).entries = t.entries ++ [(k, a)] := by simp only [insert, dif_pos h]
    simp only [get?, hi, List.find?_append]
    by_cases hk : k' = k
    · subst hk
      simp [e]
    · have hk' : ¬ k = k' := fun h => hk h.symm
      simp [hk, hk']
  · simp only [insert, dif_neg h, get?_modify]
    by_cases hk : k' = k
    · subst hk
      cases hg : t.get? k' with
      | none => exact absurd hg h
      | some b => simp
    · simp [hk]

/-! ## Entries -/

theorem mem_entries {t : Table κ α} {k : κ} {a : α} :
    (k, a) ∈ t.entries ↔ t.get? k = some a := by
  have key : ∀ es : List (κ × α), (es.map Prod.fst).Nodup →
      ((k, a) ∈ es ↔ (es.find? fun e => e.1 = k).map Prod.snd = some a) := by
    intro es hes
    induction es with
    | nil => simp
    | cons e es ih =>
      obtain ⟨k', b⟩ := e
      obtain ⟨he, hes⟩ := List.nodup_cons.1 hes
      rw [List.mem_cons, ih hes, List.find?_cons, Prod.mk.injEq]
      by_cases h : k' = k
      · subst h
        have hn : (es.find? fun e => e.1 = k') = none :=
          List.find?_eq_none.2 fun x hx hxk => he (List.mem_map.2 ⟨x, hx, of_decide_eq_true hxk⟩)
        simp [hn, eq_comm (a := a)]
      · simp [h, Ne.symm h]
  exact key t.entries t.nodup

theorem contains_eq_true {t : Table κ α} {k : κ} :
    t.contains k = true ↔ ∃ a, t.get? k = some a :=
  Option.isSome_iff_exists

theorem size_eq_zero_iff {t : Table κ α} : t.size = 0 ↔ ∀ k, t.get? k = none := by
  rw [size, List.length_eq_zero_iff]
  constructor
  · intro h k
    simp [get?, h]
  · intro h
    refine List.eq_nil_iff_forall_not_mem.2 fun e he => ?_
    have := mem_entries.1 (show (e.1, e.2) ∈ t.entries from he)
    rw [h] at this
    cases this

end Table

end Depot
