/-
  Depot — the pool of tags.

  A tag pairs a forwarded request with its reply, so no tag may be handed out
  twice at a time.  The pool keeps the tags that are out, in ascending order,
  and always hands out the least of the others.
-/
import Depot.Bytes

namespace Depot

/-- Why the pool refuses. -/
inductive TagError where
  /-- All tags are out. -/
  | exhausted (capacity : Nat)
  /-- The tag is in the pool. -/
  | notOut (tag : Tag)
  /-- The pool never hands this tag out. -/
  | neverIssued (tag : Tag) (capacity : Nat)
  deriving DecidableEq, Repr

/-- The wording of the error. -/
def TagError.message : TagError → String
  | exhausted capacity =>
    s!"too many outstanding remote requests (pool of {capacity} exhausted)"
  | notOut tag => s!"tag {tag} is not outstanding"
  | neverIssued tag capacity => s!"tag {tag} outside pool range 0..{capacity}"

/-- A pool of the tags below `capacity`. -/
structure TagPool where
  capacity : Nat
  /-- The tags that are out, in ascending order. -/
  live : List Tag := []
  /-- Every tag below the capacity is a word. -/
  capacity_lt : capacity < UInt32.size
  sorted : live.Pairwise (· < ·) := by simp
  lt_capacity : ∀ tag ∈ live, tag.toNat < capacity := by simp
  deriving DecidableEq, Repr

namespace TagPool

/-- A pool of so many tags.  The largest word is no tag. -/
def ofCapacity (capacity : Nat) : TagPool where
  capacity := min capacity (UInt32.size - 1)
  capacity_lt := Nat.lt_of_le_of_lt (Nat.min_le_right ..) (by decide)

/-! ## Lists in ascending order -/

/-- The least number from `n` on that is not in a list in ascending order. -/
def firstGap : Nat → List Tag → Nat
  | n, [] => n
  | n, t :: ts => if t.toNat = n then firstGap (n + 1) ts else n

/-- Put a tag into a list in ascending order. -/
def insertTag (tag : Tag) : List Tag → List Tag
  | [] => [tag]
  | t :: ts => if tag < t then tag :: t :: ts else t :: insertTag tag ts

theorem le_firstGap (n : Nat) (ts : List Tag) : n ≤ firstGap n ts := by
  induction ts generalizing n with
  | nil => exact Nat.le_refl n
  | cons t ts ih =>
    rw [firstGap]
    split
    · exact Nat.le_of_succ_le (ih (n + 1))
    · exact Nat.le_refl n

theorem firstGap_le (n : Nat) (ts : List Tag) : firstGap n ts ≤ n + ts.length := by
  induction ts generalizing n with
  | nil => exact Nat.le_refl n
  | cons t ts ih =>
    rw [firstGap, List.length_cons]
    split
    · exact Nat.le_trans (ih (n + 1)) (by omega)
    · omega

theorem firstGap_ne {ts : List Tag} (hs : ts.Pairwise (· < ·)) :
    ∀ {n : Nat}, (∀ t ∈ ts, n ≤ t.toNat) → ∀ t ∈ ts, t.toNat ≠ firstGap n ts := by
  induction ts with
  | nil => intro n _ t ht; cases ht
  | cons t₀ ts ih =>
    obtain ⟨h₀, hs⟩ := List.pairwise_cons.1 hs
    intro n hn t ht
    rw [firstGap]
    split
    · rename_i h
      have hn' : ∀ t ∈ ts, n + 1 ≤ t.toNat := fun t ht => by
        have := UInt32.lt_iff_toNat_lt.1 (h₀ t ht)
        omega
      rcases List.mem_cons.1 ht with rfl | ht
      · have := le_firstGap (n + 1) ts
        omega
      · exact ih hs hn' t ht
    · rename_i h
      have h₀n := hn t₀ List.mem_cons_self
      rcases List.mem_cons.1 ht with rfl | ht
      · exact h
      · have := UInt32.lt_iff_toNat_lt.1 (h₀ t ht)
        omega

theorem mem_insertTag {tag t : Tag} {ts : List Tag} :
    t ∈ insertTag tag ts ↔ t = tag ∨ t ∈ ts := by
  induction ts with
  | nil => simp [insertTag]
  | cons t₀ ts ih =>
    rw [insertTag]
    split
    · exact List.mem_cons
    · rw [List.mem_cons, ih, List.mem_cons, or_left_comm]

theorem sorted_insertTag {tag : Tag} {ts : List Tag} (hs : ts.Pairwise (· < ·)) (hn : tag ∉ ts) :
    (insertTag tag ts).Pairwise (· < ·) := by
  induction ts with
  | nil => simp [insertTag]
  | cons t ts ih =>
    obtain ⟨ht, hts⟩ := List.pairwise_cons.1 hs
    rw [insertTag]
    split
    · rename_i h
      refine List.pairwise_cons.2 ⟨fun u hu => ?_, hs⟩
      rcases List.mem_cons.1 hu with rfl | hu
      · exact h
      · exact UInt32.lt_trans h (ht u hu)
    · rename_i h
      have hne : tag ≠ t := fun e => hn (e ▸ List.mem_cons_self)
      refine List.pairwise_cons.2 ⟨fun u hu => ?_, ih hts fun h => hn (List.mem_cons_of_mem t h)⟩
      rcases mem_insertTag.1 hu with rfl | hu
      · exact UInt32.lt_of_le_of_ne (UInt32.not_lt.1 h) hne.symm
      · exact ht u hu

theorem erase_insertTag {tag : Tag} {ts : List Tag} (hn : tag ∉ ts) :
    (insertTag tag ts).erase tag = ts := by
  induction ts with
  | nil => simp [insertTag]
  | cons t ts ih =>
    have hne : t ≠ tag := fun e => hn (e ▸ List.mem_cons_self)
    rw [insertTag]
    split
    · exact List.erase_cons_head tag (t :: ts)
    · rw [List.erase_cons_tail (by simpa using hne), ih fun h => hn (List.mem_cons_of_mem t h)]

/-! ## Tags out and back -/

/-- The least tag in the pool, if there is one. -/
def next (p : TagPool) : Nat := firstGap 0 p.live

theorem next_fresh {p : TagPool} (h : p.next < p.capacity) : UInt32.ofNat p.next ∉ p.live := by
  intro hm
  refine firstGap_ne p.sorted (fun _ _ => Nat.zero_le _) _ hm ?_
  exact UInt32.toNat_ofNat_of_lt' (Nat.lt_trans h p.capacity_lt)

/-- Hand out the least tag in the pool. -/
def draw (p : TagPool) : Except TagError (TagPool × Tag) :=
  if h : p.next < p.capacity then
    let tag := UInt32.ofNat p.next
    .ok ({ p with
      live := insertTag tag p.live
      sorted := sorted_insertTag p.sorted (next_fresh h)
      lt_capacity := by
        intro t ht
        rcases mem_insertTag.1 ht with rfl | ht
        · rwa [UInt32.toNat_ofNat_of_lt' (Nat.lt_trans h p.capacity_lt)]
        · exact p.lt_capacity t ht }, tag)
  else .error (.exhausted p.capacity)

def isOut (p : TagPool) (tag : Tag) : Bool := p.live.contains tag

def putBack (p : TagPool) (tag : Tag) : Except TagError TagPool :=
  if p.capacity ≤ tag.toNat then .error (.neverIssued tag p.capacity)
  else if p.isOut tag then
    .ok { p with
      live := p.live.erase tag
      sorted := p.sorted.sublist List.erase_sublist
      lt_capacity := fun t ht => p.lt_capacity t (List.mem_of_mem_erase ht) }
  else .error (.notOut tag)

def outCount (p : TagPool) : Nat := p.live.length

@[simp] theorem isOut_eq_true {p : TagPool} {tag : Tag} : p.isOut tag = true ↔ tag ∈ p.live :=
  List.contains_iff_mem

theorem draw_spec {p q : TagPool} {tag : Tag} (h : p.draw = .ok (q, tag)) :
    p.isOut tag = false ∧ ∀ t, q.isOut t = (t == tag || p.isOut t) := by
  unfold draw at h
  split at h
  · rename_i hn
    obtain ⟨rfl, rfl⟩ := Prod.mk.inj (Except.ok.inj h)
    refine ⟨?_, fun t => ?_⟩
    · rw [← Bool.not_eq_true, isOut_eq_true]
      exact next_fresh hn
    · rw [Bool.eq_iff_iff, isOut_eq_true, Bool.or_eq_true, beq_iff_eq, isOut_eq_true]
      exact mem_insertTag
  · cases h

theorem capacity_draw {p q : TagPool} {tag : Tag} (h : p.draw = .ok (q, tag)) :
    q.capacity = p.capacity := by
  unfold draw at h
  split at h
  · obtain ⟨rfl, -⟩ := Prod.mk.inj (Except.ok.inj h)
    rfl
  · cases h

/-- The pool refuses only once all its tags are out. -/
theorem draw_error {p : TagPool} {e : TagError} (h : p.draw = .error e) :
    e = .exhausted p.capacity ∧ p.capacity ≤ p.outCount := by
  unfold draw at h
  split at h
  · cases h
  · rename_i hn
    cases h
    refine ⟨rfl, Nat.le_trans (Nat.le_of_not_lt hn) ?_⟩
    have hle := firstGap_le 0 p.live
    rwa [Nat.zero_add] at hle

theorem capacity_putBack {p q : TagPool} {tag : Tag} (h : p.putBack tag = .ok q) :
    q.capacity = p.capacity := by
  unfold putBack at h
  split at h
  · cases h
  · split at h
    · cases h
      rfl
    · cases h

theorem putBack_spec {p : TagPool} {tag : Tag} (h : p.isOut tag = true) :
    ∃ q, p.putBack tag = .ok q ∧ ∀ t, q.isOut t = (t != tag && p.isOut t) := by
  have hm := isOut_eq_true.1 h
  have hlt := p.lt_capacity tag hm
  have hnd : p.live.Nodup := p.sorted.imp fun hab => UInt32.ne_of_lt hab
  refine ⟨_, by rw [putBack, if_neg (by omega), if_pos h], fun t => ?_⟩
  rw [Bool.eq_iff_iff, isOut_eq_true, Bool.and_eq_true, bne_iff_ne, isOut_eq_true]
  exact hnd.mem_erase_iff

/-- A tag that is drawn and put back leaves no trace. -/
theorem putBack_of_draw {p q : TagPool} {tag : Tag} (h : p.draw = .ok (q, tag)) :
    q.putBack tag = .ok p := by
  have hout : q.isOut tag = true := by rw [(draw_spec h).2 tag, beq_self_eq_true, Bool.true_or]
  have hlt := q.lt_capacity tag (isOut_eq_true.1 hout)
  rw [putBack, if_neg (by omega), if_pos hout]
  unfold draw at h
  split at h
  · rename_i hn
    obtain ⟨rfl, rfl⟩ := Prod.mk.inj (Except.ok.inj h)
    exact congrArg Except.ok (by simp only [erase_insertTag (next_fresh hn)])
  · cases h

end TagPool

end Depot
