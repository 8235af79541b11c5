/-
  Depot — no tag is out twice.

  `draw_cases` and `putBack_cases` are all a pool can answer: it hands out the least tag it
  holds, and takes back exactly the tags that are out.  `live` reads off the log of a course
  which tags are out, and `Accounts` ties the pool to its log.  `FreeTags` keeps the other
  tags, those that may be drawn; `Mirrors` says that the two are complements.
  `run_least_free` is about every course.
-/
import Depot.Proofs.Course
import Depot.TagPool
import Mathlib

namespace Depot.TagPool

/-! ## What a pool answers -/

/-- All numbers up to the first gap are in the list. -/
theorem mem_of_lt_firstGap {n : Nat} {ts : List Tag} {t : Tag} (hle : n ≤ t.toNat)
    (hlt : t.toNat < firstGap n ts) : t ∈ ts := by
  induction ts generalizing n with
  | nil =>
    rw [firstGap] at hlt
    omega
  | cons t₀ ts ih =>
    rw [firstGap] at hlt
    split at hlt
    · rename_i heq
      rcases Nat.eq_or_lt_of_le hle with hn | hn
      · exact List.mem_cons.2 (.inl (UInt32.toNat_inj.1 (hn.symm.trans heq.symm)))
      · exact List.mem_cons_of_mem t₀ (ih hn hlt)
    · omega

theorem nodup_of_sorted {tags : List Tag} (h : tags.Pairwise (· < ·)) : tags.Nodup :=
  h.imp fun hlt => UInt32.ne_of_lt hlt

/-- A pool hands out the least tag that is not out, or all its tags are out. -/
theorem draw_cases (p : TagPool) :
    (∃ q tag, p.draw = .ok (q, tag) ∧ q.capacity = p.capacity ∧
      IsLeast {t : Tag | t.toNat < p.capacity ∧ t ∉ p.live} tag ∧
      ∀ t, t ∈ q.live ↔ t = tag ∨ t ∈ p.live) ∨
    (p.draw = .error (.exhausted p.capacity) ∧ ∀ t : Tag, t.toNat < p.capacity → t ∈ p.live) := by
  by_cases hlt : p.next < p.capacity
  · left
    have hnext : (UInt32.ofNat p.next).toNat = p.next :=
      UInt32.toNat_ofNat_of_lt' (hlt.trans p.capacity_lt)
    refine ⟨_, _, dif_pos hlt, rfl, ⟨⟨hnext.trans_lt hlt, next_fresh hlt⟩, ?_⟩,
      fun t => mem_insertTag⟩
    rintro t ⟨-, hfree⟩
    rw [UInt32.le_iff_toNat_le, hnext]
    by_contra hbelow
    exact hfree (mem_of_lt_firstGap (Nat.zero_le _) (not_le.1 hbelow))
  · right
    exact ⟨dif_neg hlt, fun t ht =>
      mem_of_lt_firstGap (Nat.zero_le _) (ht.trans_le (not_lt.1 hlt))⟩

/-- A pool takes a tag back if it is out; else it never hands it out, or it is in the pool. -/
theorem putBack_cases (p : TagPool) (tag : Tag) :
    (∃ q, p.putBack tag = .ok q ∧ q.capacity = p.capacity ∧ tag ∈ p.live ∧
      ∀ t, t ∈ q.live ↔ t ≠ tag ∧ t ∈ p.live) ∨
    (p.putBack tag = .error (.neverIssued tag p.capacity) ∧ p.capacity ≤ tag.toNat) ∨
    (p.putBack tag = .error (.notOut tag) ∧ tag.toNat < p.capacity ∧ tag ∉ p.live) := by
  rw [putBack]
  split
  · rename_i hge
    exact .inr (.inl ⟨rfl, hge⟩)
  · rename_i hlt
    split
    · rename_i hout
      exact .inl ⟨_, rfl, rfl, isOut_eq_true.1 hout, fun t => (nodup_of_sorted p.sorted).mem_erase_iff⟩
    · rename_i hfree
      exact .inr (.inr ⟨rfl, not_le.1 hlt, fun hm => hfree (isOut_eq_true.2 hm)⟩)

/-! ## Acts and answers -/

/-- What may be done with a pool. -/
inductive Act where
  | draw
  | putBack (tag : Tag)
  deriving DecidableEq, Repr

/-- What is answered. -/
inductive Answer where
  | drawn (tag : Tag)
  /-- The tag is in the pool again. -/
  | back
  | refused (error : TagError)
  deriving DecidableEq, Repr

/-- Do an act. -/
def perform (p : TagPool) : Act → TagPool × Answer
  | .draw =>
    match p.draw with
    | .ok (p, tag) => (p, .drawn tag)
    | .error e => (p, .refused e)
  | .putBack tag =>
    match p.putBack tag with
    | .ok p => (p, .back)
    | .error e => (p, .refused e)

theorem perform_draw_of_ok {p q : TagPool} {tag : Tag} (h : p.draw = .ok (q, tag)) :
    p.perform .draw = (q, .drawn tag) := by
  rw [perform, h]

theorem perform_draw_of_error {p : TagPool} {e : TagError} (h : p.draw = .error e) :
    p.perform .draw = (p, .refused e) := by
  rw [perform, h]

theorem perform_putBack_of_ok {p q : TagPool} {tag : Tag} (h : p.putBack tag = .ok q) :
    p.perform (.putBack tag) = (q, .back) := by
  rw [perform, h]

theorem perform_putBack_of_error {p : TagPool} {tag : Tag} {e : TagError}
    (h : p.putBack tag = .error e) : p.perform (.putBack tag) = (p, .refused e) := by
  rw [perform, h]

/-- A pool that refuses stays as it is. -/
theorem perform_refused {p : TagPool} {act : Act} {e : TagError}
    (h : (p.perform act).2 = .refused e) : (p.perform act).1 = p := by
  cases act with
  | draw =>
    rw [perform] at h ⊢
    split at h
    · cases h
    · rfl
  | putBack tag =>
    rw [perform] at h ⊢
    split at h
    · cases h
    · rfl

theorem drawn_iff {p : TagPool} {tag : Tag} : (p.perform .draw).2 = .drawn tag ↔
    IsLeast {t : Tag | t.toNat < p.capacity ∧ t ∉ p.live} tag := by
  rcases p.draw_cases with ⟨q, least, hok, -, hleast, -⟩ | ⟨herror, hall⟩
  · rw [perform_draw_of_ok hok, Answer.drawn.injEq]
    constructor
    · rintro rfl
      exact hleast
    · intro htag
      exact UInt32.le_antisymm (hleast.2 htag.1) (htag.2 hleast.1)
  · rw [perform_draw_of_error herror]
    exact ⟨nofun, fun htag => absurd (hall tag htag.1.1) htag.1.2⟩

theorem exhausted_iff {p : TagPool} : (p.perform .draw).2 = .refused (.exhausted p.capacity) ↔
    ∀ t : Tag, t.toNat < p.capacity → t ∈ p.live := by
  rcases p.draw_cases with ⟨q, least, hok, -, hleast, -⟩ | ⟨herror, hall⟩
  · rw [perform_draw_of_ok hok]
    exact ⟨nofun, fun hall => absurd (hall least hleast.1.1) hleast.1.2⟩
  · rw [perform_draw_of_error herror]
    exact ⟨fun _ => hall, fun _ => rfl⟩

theorem putBack_iff {p : TagPool} {tag : Tag} :
    ((p.perform (.putBack tag)).2 = .back ↔ tag ∈ p.live) ∧
    ((p.perform (.putBack tag)).2 = .refused (.neverIssued tag p.capacity) ↔
      p.capacity ≤ tag.toNat) ∧
    ((p.perform (.putBack tag)).2 = .refused (.notOut tag) ↔
      tag.toNat < p.capacity ∧ tag ∉ p.live) := by
  rcases p.putBack_cases tag with ⟨q, hok, -, hout, -⟩ | ⟨herror, hge⟩ | ⟨herror, hlt, hfree⟩
  · have hlt := p.lt_capacity tag hout
    simp [perform_putBack_of_ok hok, hout, hlt]
  · have hfree : tag ∉ p.live := fun hout => absurd (p.lt_capacity tag hout) (not_lt.2 hge)
    simp [perform_putBack_of_error herror, hfree, hge]
  · simp [perform_putBack_of_error herror, hfree, hlt]

/-- The course of these acts, from a pool of so many tags on. -/
def run (capacity : Nat) (acts : List Act) : Course TagPool Act Answer :=
  .run perform (ofCapacity capacity) acts

/-! ## What a log says -/

/-- The tags that were drawn and not put back since. -/
def stillOut (log : List (Act × Answer)) : Finset Tag :=
  log.foldl (fun out entry =>
    match entry with
    | (.draw, .drawn tag) => insert tag out
    | (.putBack tag, .back) => out.erase tag
    | _ => out) ∅

section

variable (log : List (Act × Answer))

theorem stillOut_drawn (tag : Tag) :
    stillOut (log ++ [(Act.draw, Answer.drawn tag)]) = insert tag (stillOut log) :=
  List.foldl_concat ..

theorem stillOut_back (tag : Tag) :
    stillOut (log ++ [(Act.putBack tag, Answer.back)]) = (stillOut log).erase tag :=
  List.foldl_concat ..

theorem stillOut_refused (act : Act) (e : TagError) :
    stillOut (log ++ [(act, Answer.refused e)]) = stillOut log := by
  rw [stillOut, List.foldl_concat]
  cases act <;> rfl

end

/-- The pool is as its log says: the tags that are out are those drawn and not put back, and
    each was drawn once more than it was put back. -/
structure Accounts (capacity : Nat) (log : List (Act × Answer)) (p : TagPool) : Prop where
  capacity_eq : p.capacity = capacity
  mem_stillOut : ∀ tag, tag ∈ stillOut log ↔ tag ∈ p.live
  count_eq : ∀ tag, log.count (.draw, .drawn tag) =
    log.count (.putBack tag, .back) + if tag ∈ stillOut log then 1 else 0

namespace Accounts

variable {capacity : Nat} {log : List (Act × Answer)} {p : TagPool}

theorem refused (h : Accounts capacity log p) (act : Act) (e : TagError) :
    Accounts capacity (log ++ [(act, Answer.refused e)]) p := by
  refine ⟨h.capacity_eq, fun t => ?_, fun t => ?_⟩
  · rw [stillOut_refused, h.mem_stillOut]
  · rw [stillOut_refused]
    simpa using h.count_eq t

theorem draw (h : Accounts capacity log p) :
    Accounts capacity (log ++ [(Act.draw, (p.perform .draw).2)]) (p.perform .draw).1 := by
  rcases p.draw_cases with ⟨q, tag, hok, hcapacity, hleast, hmem⟩ | ⟨herror, -⟩
  · rw [perform_draw_of_ok hok]
    refine ⟨hcapacity.trans h.capacity_eq, fun t => ?_, fun t => ?_⟩
    · rw [stillOut_drawn, Finset.mem_insert, h.mem_stillOut, hmem]
    · have hcount := h.count_eq t
      rw [stillOut_drawn]
      by_cases ht : t = tag
      · rw [ht, if_neg ((h.mem_stillOut tag).not.2 hleast.1.2)] at hcount
        simp [ht, hcount]
      · simp [ht, Ne.symm ht, hcount]
  · rw [perform_draw_of_error herror]
    exact h.refused .draw _

theorem putBack (h : Accounts capacity log p) (tag : Tag) :
    Accounts capacity (log ++ [(Act.putBack tag, (p.perform (.putBack tag)).2)])
      (p.perform (.putBack tag)).1 := by
  rcases p.putBack_cases tag with ⟨q, hok, hcapacity, hout, hmem⟩ | ⟨herror, -⟩ | ⟨herror, -⟩
  · rw [perform_putBack_of_ok hok]
    refine ⟨hcapacity.trans h.capacity_eq, fun t => ?_, fun t => ?_⟩
    · rw [stillOut_back, Finset.mem_erase, h.mem_stillOut, hmem]
    · have hcount := h.count_eq t
      rw [stillOut_back]
      by_cases ht : t = tag
      · rw [ht, if_pos ((h.mem_stillOut tag).2 hout)] at hcount
        simp [ht, hcount]
      · simp [ht, Ne.symm ht, hcount]
  · rw [perform_putBack_of_error herror]
    exact h.refused _ _
  · rw [perform_putBack_of_error herror]
    exact h.refused _ _

theorem perform (h : Accounts capacity log p) (act : Act) :
    Accounts capacity (log ++ [(act, (p.perform act).2)]) (p.perform act).1 := by
  cases act with
  | draw => exact h.draw
  | putBack tag => exact h.putBack tag

theorem outCount_eq (h : Accounts capacity log p) : p.outCount = (stillOut log).card := by
  have hlive : stillOut log = p.live.toFinset := by
    ext tag
    rw [h.mem_stillOut, List.mem_toFinset]
  rw [hlive, List.toFinset_card_of_nodup (nodup_of_sorted p.sorted)]
  rfl

end Accounts

/-! ## The other tags -/

/-- A pool that keeps the tags below the capacity that may be drawn, in ascending order. -/
structure FreeTags where
  capacity : Nat
  free : List Tag

namespace FreeTags

/-- The first `n` tags. -/
def below (n : Nat) : List Tag := (List.range n).map UInt32.ofNat

section

variable {n : Nat} (hn : n < UInt32.size)
include hn

theorem toNat_of_mem_range : ∀ m ∈ List.range n, (UInt32.ofNat m).toNat = m := fun _ hm =>
  UInt32.toNat_ofNat_of_lt' ((List.mem_range.1 hm).trans hn)

theorem mem_below {tag : Tag} : tag ∈ below n ↔ tag.toNat < n := by
  rw [below, List.mem_map]
  constructor
  · rintro ⟨m, hm, rfl⟩
    rw [toNat_of_mem_range hn m hm]
    exact List.mem_range.1 hm
  · intro hlt
    exact ⟨tag.toNat, List.mem_range.2 hlt, UInt32.ofNat_toNat⟩

theorem sorted_below : (below n).Pairwise (· < ·) := by
  refine List.pairwise_map.2 (List.pairwise_lt_range.imp_of_mem fun hl hm hlt => ?_)
  rw [UInt32.lt_iff_toNat_lt, toNat_of_mem_range hn _ hl, toNat_of_mem_range hn _ hm]
  exact hlt

end

/-- A pool of so many tags.  The largest word is no tag. -/
def ofCapacity (capacity : Nat) : FreeTags where
  capacity := min capacity (UInt32.size - 1)
  free := below (min capacity (UInt32.size - 1))

/-- Put a tag among tags in ascending order, and say whether it is new there. -/
def insertNew (tag : Tag) (tags : List Tag) : List Tag × Bool :=
  if tags.contains tag then (tags, false) else (insertTag tag tags, true)

/-- Do an act.  A tag is put among the others before anything is said against it. -/
def perform (f : FreeTags) : Act → FreeTags × Answer
  | .draw =>
    match f.free with
    | [] => (f, .refused (.exhausted f.capacity))
    | tag :: free => ({ f with free }, .drawn tag)
  | .putBack tag =>
    if f.capacity ≤ tag.toNat then (f, .refused (.neverIssued tag f.capacity))
    else
      let (free, new) := insertNew tag f.free
      ({ f with free }, if new then .back else .refused (.notOut tag))

def isOut (f : FreeTags) (tag : Tag) : Bool :=
  decide (tag.toNat < f.capacity) && !f.free.contains tag

def outCount (f : FreeTags) : Nat := f.capacity - f.free.length

theorem perform_putBack_of_mem {f : FreeTags} {tag : Tag} (hlt : tag.toNat < f.capacity)
    (hin : tag ∈ f.free) : f.perform (.putBack tag) = (f, .refused (.notOut tag)) := by
  rw [perform, if_neg (not_le.2 hlt), insertNew, if_pos (List.contains_iff_mem.2 hin)]
  rfl

theorem perform_putBack_of_not_mem {f : FreeTags} {tag : Tag} (hlt : tag.toNat < f.capacity)
    (hnew : tag ∉ f.free) :
    f.perform (.putBack tag) = ({ f with free := insertTag tag f.free }, .back) := by
  rw [perform, if_neg (not_le.2 hlt), insertNew, if_neg (List.contains_iff_mem.not.2 hnew)]
  rfl

/-- A pool that refuses stays as it is. -/
theorem perform_refused {f : FreeTags} {act : Act} {e : TagError}
    (h : (f.perform act).2 = .refused e) : (f.perform act).1 = f := by
  cases act with
  | draw =>
    rw [perform] at h ⊢
    split at h
    · rfl
    · cases h
  | putBack tag =>
    by_cases hlt : tag.toNat < f.capacity
    · by_cases hin : tag ∈ f.free
      · rw [perform_putBack_of_mem hlt hin]
      · rw [perform_putBack_of_not_mem hlt hin] at h
        cases h
    · rw [perform, if_pos (not_lt.1 hlt)]

/-- The course of these acts, from a pool of so many tags on. -/
def run (capacity : Nat) (acts : List Act) : Course FreeTags Act Answer :=
  .run perform (ofCapacity capacity) acts

/-- The tags that are free are those below the capacity that are not out. -/
structure Mirrors (p : TagPool) (f : FreeTags) : Prop where
  capacity_eq : f.capacity = p.capacity
  sorted : f.free.Pairwise (· < ·)
  mem_free : ∀ tag, tag ∈ f.free ↔ tag.toNat < p.capacity ∧ tag ∉ p.live

namespace Mirrors

variable {p : TagPool} {f : FreeTags} (h : Mirrors p f)
include h

theorem draw :
    Mirrors (p.perform .draw).1 (f.perform .draw).1 ∧
      (p.perform .draw).2 = (f.perform .draw).2 := by
  rcases p.draw_cases with ⟨q, tag, hok, hcapacity, hleast, hmem⟩ | ⟨herror, hall⟩
  · rw [perform_draw_of_ok hok, FreeTags.perform]
    have hfree : tag ∈ f.free := (h.mem_free tag).2 hleast.1
    cases hf : f.free with
    | nil => rw [hf] at hfree; cases hfree
    | cons first rest =>
      have hsorted := h.sorted
      rw [hf] at hfree hsorted
      obtain ⟨hfirst, hrest⟩ := List.pairwise_cons.1 hsorted
      have hle : tag ≤ first := hleast.2 ((h.mem_free first).1 (hf ▸ List.mem_cons_self))
      obtain rfl : tag = first := by
        rcases List.mem_cons.1 hfree with heq | hin
        · exact heq
        · exact absurd (hfirst tag hin) (UInt32.not_lt.2 hle)
      refine ⟨⟨h.capacity_eq.trans hcapacity.symm, hrest, fun t => ?_⟩, rfl⟩
      have ht := h.mem_free t
      rw [hf, List.mem_cons] at ht
      rw [hcapacity, hmem, not_or, and_left_comm, ← ht]
      constructor
      · intro hin
        exact ⟨(UInt32.ne_of_lt (hfirst t hin)).symm, .inr hin⟩
      · rintro ⟨hne, hin⟩
        exact hin.resolve_left hne
  · rw [perform_draw_of_error herror, FreeTags.perform]
    cases hf : f.free with
    | nil => exact ⟨h, by rw [h.capacity_eq]⟩
    | cons first rest =>
      obtain ⟨hlt, hnot⟩ := (h.mem_free first).1 (hf ▸ List.mem_cons_self)
      exact absurd (hall first hlt) hnot

theorem putBack (tag : Tag) :
    Mirrors (p.perform (.putBack tag)).1 (f.perform (.putBack tag)).1 ∧
      (p.perform (.putBack tag)).2 = (f.perform (.putBack tag)).2 := by
  rcases p.putBack_cases tag with ⟨q, hok, hcapacity, hout, hmem⟩ | ⟨herror, hge⟩ |
    ⟨herror, hlt, hnot⟩
  · have hlt := p.lt_capacity tag hout
    have hnew : tag ∉ f.free := fun hin => ((h.mem_free tag).1 hin).2 hout
    rw [perform_putBack_of_ok hok, perform_putBack_of_not_mem (h.capacity_eq ▸ hlt) hnew]
    refine ⟨⟨h.capacity_eq.trans hcapacity.symm, sorted_insertTag h.sorted hnew, fun t => ?_⟩, rfl⟩
    rw [mem_insertTag, h.mem_free, hcapacity, hmem]
    constructor
    · rintro (rfl | ⟨ht, hfree⟩)
      · exact ⟨hlt, fun hrest => hrest.1 rfl⟩
      · exact ⟨ht, fun hrest => hfree hrest.2⟩
    · rintro ⟨ht, hrest⟩
      by_cases heq : t = tag
      · exact .inl heq
      · exact .inr ⟨ht, fun hout => hrest ⟨heq, hout⟩⟩
  · rw [perform_putBack_of_error herror, FreeTags.perform, if_pos (h.capacity_eq ▸ hge),
      h.capacity_eq]
    exact ⟨h, rfl⟩
  · have hin : tag ∈ f.free := (h.mem_free tag).2 ⟨hlt, hnot⟩
    rw [perform_putBack_of_error herror, perform_putBack_of_mem (h.capacity_eq ▸ hlt) hin]
    exact ⟨h, rfl⟩

theorem perform (act : Act) :
    Mirrors (p.perform act).1 (f.perform act).1 ∧ (p.perform act).2 = (f.perform act).2 := by
  cases act with
  | draw => exact h.draw
  | putBack tag => exact h.putBack tag

theorem isOut_eq (tag : Tag) : f.isOut tag = p.isOut tag := by
  have hlt := p.lt_capacity tag
  rw [Bool.eq_iff_iff, isOut, Bool.and_eq_true, decide_eq_true_iff, Bool.not_eq_true',
    ← Bool.not_eq_true, List.contains_iff_mem, h.mem_free, h.capacity_eq, isOut_eq_true]
  tauto

/-- The tags that are out and the others are together all tags below the capacity. -/
theorem perm : (p.live ++ f.free).Perm (below p.capacity) := by
  have hdisjoint : p.live.Disjoint f.free := fun t hout hin => ((h.mem_free t).1 hin).2 hout
  have hnodup : (p.live ++ f.free).Nodup :=
    (nodup_of_sorted p.sorted).append (nodup_of_sorted h.sorted) hdisjoint
  have hbelow : (below p.capacity).Nodup := nodup_of_sorted (sorted_below p.capacity_lt)
  refine (List.perm_ext_iff_of_nodup hnodup hbelow).2 fun t => ?_
  rw [List.mem_append, h.mem_free, mem_below p.capacity_lt]
  constructor
  · intro ht
    exact ht.elim (p.lt_capacity t) And.left
  · intro hlt
    rw [and_iff_right hlt]
    exact Decidable.em _

theorem outCount_eq : f.outCount = p.outCount := by
  have hlength := h.perm.length_eq
  rw [List.length_append, below, List.length_map, List.length_range] at hlength
  rw [outCount, h.capacity_eq, ← hlength, Nat.add_sub_cancel]
  rfl

end Mirrors

theorem mirrors_run (capacity : Nat) (acts : List Act) :
    Mirrors (TagPool.run capacity acts).state (run capacity acts).state ∧
      (TagPool.run capacity acts).log = (run capacity acts).log := by
  have htop := (TagPool.ofCapacity capacity).capacity_lt
  refine Course.run_agrees (fun _ _ act h => h.perform act)
    ⟨rfl, sorted_below htop, fun tag => ?_⟩ acts
  exact (mem_below htop).trans (and_iff_left (List.not_mem_nil)).symm

end FreeTags

/-! ## Courses -/

theorem accounts_run (capacity : Nat) (acts : List Act) :
    Accounts (min capacity (UInt32.size - 1)) (run capacity acts).log (run capacity acts).state := by
  induction acts using List.reverseRecOn with
  | nil => exact ⟨rfl, fun tag => Iff.rfl, fun tag => rfl⟩
  | append_singleton acts act ih =>
    rw [run, Course.run_concat]
    exact ih.perform act

/-- **No tag is out twice.**  A pool hands out the least of its tags that is not out, until all
    are.  It takes back the tags that are out and no others: those from the capacity on it
    never hands out, the rest are in the pool.  Whatever it refuses changes nothing, and each
    tag was drawn as often as it was put back, and once more if it is out.  A pool that keeps
    the other tags answers everything alike. -/
theorem run_least_free (capacity : Nat) (acts : List Act) :
    let top := min capacity (UInt32.size - 1)
    let p := (run capacity acts).state
    let log := (run capacity acts).log
    let f := FreeTags.run capacity acts
    (∀ tag, (p.perform .draw).2 = .drawn tag ↔
      IsLeast {t : Tag | t.toNat < top ∧ t ∉ stillOut log} tag) ∧
    ((p.perform .draw).2 = .refused (.exhausted top) ↔
      ∀ t : Tag, t.toNat < top → t ∈ stillOut log) ∧
    (∀ tag,
      ((p.perform (.putBack tag)).2 = .back ↔ tag ∈ stillOut log) ∧
      ((p.perform (.putBack tag)).2 = .refused (.neverIssued tag top) ↔ top ≤ tag.toNat) ∧
      ((p.perform (.putBack tag)).2 = .refused (.notOut tag) ↔
        tag.toNat < top ∧ tag ∉ stillOut log)) ∧
    (∀ act e, (p.perform act).2 = .refused e →
      (p.perform act).1 = p ∧ (f.state.perform act).1 = f.state) ∧
    (∀ tag, log.count (.draw, .drawn tag) =
      log.count (.putBack tag, .back) + if tag ∈ stillOut log then 1 else 0) ∧
    (∀ tag, p.isOut tag = true ↔ tag ∈ stillOut log) ∧ p.outCount = (stillOut log).card ∧
    f.log = log ∧ (∀ tag, f.state.isOut tag = p.isOut tag) ∧ f.state.outCount = p.outCount := by
  intro top p log f
  have h : Accounts top log p := accounts_run capacity acts
  obtain ⟨hmirrors, hlog⟩ := FreeTags.mirrors_run capacity acts
  simp only [h.mem_stillOut, ← h.capacity_eq]
  refine ⟨fun tag => drawn_iff, exhausted_iff, fun tag => putBack_iff,
    fun act e hrefused => ⟨perform_refused hrefused, ?_⟩, fun tag => ?_,
    fun tag => isOut_eq_true, h.outCount_eq, hlog.symm, hmirrors.isOut_eq, hmirrors.outCount_eq⟩
  · rw [(hmirrors.perform act).2] at hrefused
    exact FreeTags.perform_refused hrefused
  · simpa only [h.mem_stillOut] using h.count_eq tag

end Depot.TagPool
