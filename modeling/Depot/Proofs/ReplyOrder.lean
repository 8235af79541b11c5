/-
  Depot — replies are released in the order of their slots.

  `perform` does an act to a reply order and answers it, and `issued`, `filled` and `released`
  read off the log of a course which slots were reserved, which replies were kept, and which
  came out.  `Accounts` ties the order to its log: what was released and the window are
  together the replies of the slots from 0 on.  `Parts` keeps the same replies in three
  parts, a counter, a line of slots and a table; `Shelves` says that the line and the table
  hold a window.  `run_reassembles` is about every course.
-/
import Depot.Proofs.Course
import Depot.ReplyOrder
import Depot.Table
import Mathlib

namespace Depot.ReplyOrder

/-! ## Acts and answers -/

/-- What may be done with a reply order. -/
inductive Act (α : Type u) where
  | reserve
  | fill (slot : Nat) (reply : α)
  | release
  deriving DecidableEq, Repr

/-- What is answered. -/
inductive Answer (α : Type u) where
  | reserved (slot : Nat)
  /-- Whether the reply was kept. -/
  | filled (kept : Bool)
  | released (replies : List α)
  deriving DecidableEq, Repr

variable {α : Type u}

/-- Do an act. -/
def perform (o : ReplyOrder α) : Act α → ReplyOrder α × Answer α
  | .reserve => (o.reserve.1, .reserved o.reserve.2)
  | .fill slot reply =>
    match o.fill? slot reply with
    | some o => (o, .filled true)
    | none => (o, .filled false)
  | .release => (o.release.1, .released o.release.2)

theorem perform_fill (o : ReplyOrder α) (slot : Nat) (reply : α) :
    (o.perform (.fill slot reply)).2 = .filled (o.isOwed slot) := by
  rw [perform, fill?]
  cases o.isOwed slot <;> rfl

theorem perform_fill_of_not_owed {o : ReplyOrder α} {slot : Nat} (h : o.isOwed slot = false)
    (reply : α) : o.perform (.fill slot reply) = (o, .filled false) := by
  rw [perform, fill?, h]
  rfl

/-- The course of these acts, from an empty order on. -/
def run (acts : List (Act α)) : Course (ReplyOrder α) (Act α) (Answer α) := .run perform {} acts

/-! ## What a log says -/

section

variable (log : List (Act α × Answer α))

/-- The slots that were reserved, in order. -/
def issued : List Nat := log.filterMap fun
  | (_, .reserved slot) => some slot
  | _ => none

/-- The replies that were kept, with their slots. -/
def filled : List (Nat × α) := log.filterMap fun
  | (.fill slot reply, .filled true) => some (slot, reply)
  | _ => none

/-- The reply that was kept for a slot. -/
def kept? (slot : Nat) : Option α := (filled log).lookup slot

/-- The replies that were released, in order. -/
def released : List α := log.flatMap fun
  | (_, .released replies) => replies
  | _ => []

end

/-- The order is as its log says: so many replies are released, the slots are issued one after
    the other, each slot was filled at most once, and what was released and the window are
    together the replies of the slots from 0 on. -/
structure Accounts (log : List (Act α × Answer α)) (o : ReplyOrder α) : Prop where
  first_eq : o.first = (released log).length
  issued_eq : issued log = List.range o.next
  nodup : ((filled log).map Prod.fst).Nodup
  kept?_eq : ∀ slot, kept? log slot = ((released log).map some ++ o.window)[slot]?.join

theorem kept?_eq_none_iff {log : List (Act α × Answer α)} {slot : Nat} :
    kept? log slot = none ↔ slot ∉ (filled log).map Prod.fst := by
  rw [kept?, List.lookup_eq_none_iff, List.mem_map]
  constructor
  · rintro hne ⟨entry, hentry, rfl⟩
    simpa using hne entry hentry
  · intro hnot entry hentry
    exact bne_iff_ne.2 fun heq => hnot ⟨entry, hentry, heq.symm⟩

/-- A slot without a reply is like no slot. -/
theorem join_getElem?_concat_none (slots : List (Option α)) (slot : Nat) :
    (slots ++ [none])[slot]?.join = slots[slot]?.join := by
  rw [List.getElem?_append]
  split
  · rfl
  · rename_i hge
    rw [List.getElem?_eq_none (not_lt.1 hge), List.getElem?_singleton]
    split <;> rfl

namespace Accounts

variable {log : List (Act α × Answer α)} {o : ReplyOrder α}

theorem length_issued (h : Accounts log o) : (issued log).length = o.next := by
  rw [h.issued_eq, List.length_range]

/-- The reply for a slot that is released is among the replies released. -/
theorem kept?_of_lt (h : Accounts log o) {slot : Nat} (hlt : slot < (released log).length) :
    kept? log slot = some (released log)[slot] := by
  rw [h.kept?_eq, List.getElem?_append_left (by simpa using hlt), List.getElem?_map,
    List.getElem?_eq_getElem hlt]
  rfl

/-- The reply for a slot that is not released is in the window. -/
theorem kept?_of_ge (h : Accounts log o) {slot : Nat} (hfirst : o.first ≤ slot) :
    kept? log slot = o.window[slot - o.first]?.join := by
  rw [h.kept?_eq, List.getElem?_append_right (by simpa [← h.first_eq]), List.length_map,
    ← h.first_eq]

/-- A slot is owed a reply once it is issued, while it is neither released nor filled. -/
theorem isOwed_iff (h : Accounts log o) {slot : Nat} :
    o.isOwed slot = true ↔
      slot ∈ issued log ∧ (released log).length ≤ slot ∧ slot ∉ (filled log).map Prod.fst := by
  rw [ReplyOrder.isOwed_iff, ← kept?_eq_none_iff, h.issued_eq, List.mem_range, ← h.first_eq, next]
  constructor
  · rintro ⟨hfirst, howed⟩
    obtain ⟨hlt, -⟩ := List.getElem?_eq_some_iff.1 howed
    refine ⟨by omega, hfirst, ?_⟩
    rw [h.kept?_of_ge hfirst, howed]
    rfl
  · rintro ⟨hlt, hfirst, hnone⟩
    refine ⟨hfirst, ?_⟩
    rw [h.kept?_of_ge hfirst, List.getElem?_eq_getElem (by omega)] at hnone
    rw [List.getElem?_eq_getElem (by omega)]
    exact congrArg some hnone

theorem reserve (h : Accounts log o) :
    Accounts (log ++ [(Act.reserve, Answer.reserved o.next)]) o.reserve.1 := by
  have hissued : issued (log ++ [(Act.reserve, Answer.reserved o.next)]) = issued log ++ [o.next] :=
    List.filterMap_append
  have hfilled : filled (log ++ [(Act.reserve, Answer.reserved o.next)]) = filled log := by
    simp [filled]
  have hreleased : released (log ++ [(Act.reserve, Answer.reserved o.next)]) = released log := by
    simp [released]
  refine ⟨?_, ?_, ?_, fun slot => ?_⟩
  · rw [hreleased]
    exact h.first_eq
  · rw [hissued, next_reserve, List.range_succ, h.issued_eq]
  · rw [hfilled]
    exact h.nodup
  · rw [kept?, hfilled, hreleased, ← kept?, h.kept?_eq, ReplyOrder.reserve, ← List.append_assoc,
      join_getElem?_concat_none]

theorem fill (h : Accounts log o) {o' : ReplyOrder α} {slot : Nat} {reply : α}
    (hfill : o.fill? slot reply = some o') :
    Accounts (log ++ [(Act.fill slot reply, Answer.filled true)]) o' := by
  have hissued : issued (log ++ [(Act.fill slot reply, Answer.filled true)]) = issued log := by
    simp [issued]
  have hfilled : filled (log ++ [(Act.fill slot reply, Answer.filled true)]) =
      filled log ++ [(slot, reply)] := List.filterMap_append
  have hreleased : released (log ++ [(Act.fill slot reply, Answer.filled true)]) = released log := by
    simp [released]
  obtain ⟨-, hfirst, hnew⟩ := h.isOwed_iff.1 (isOwed_of_fill? hfill)
  have hnext := next_fill? hfill
  obtain ⟨-, howed⟩ := ReplyOrder.isOwed_iff.1 (isOwed_of_fill? hfill)
  obtain ⟨hlt, -⟩ := List.getElem?_eq_some_iff.1 howed
  obtain ⟨-, rfl⟩ := fill?_eq hfill
  refine ⟨?_, ?_, ?_, fun s => ?_⟩
  · rw [hreleased]
    exact h.first_eq
  · rw [hissued, hnext, h.issued_eq]
  · rw [hfilled, List.map_append]
    exact List.nodup_append_comm.1 (List.nodup_cons.2 ⟨hnew, h.nodup⟩)
  · have hset : (released log).map some ++ o.window.set (slot - o.first) (some reply) =
        ((released log).map some ++ o.window).set slot (some reply) := by
      rw [List.set_append_right _ _ (by simpa using hfirst), List.length_map, h.first_eq]
    have hlength : slot < ((released log).map some ++ o.window).length := by
      rw [List.length_append, List.length_map, ← h.first_eq]
      omega
    rw [kept?, hfilled, hreleased, hset, List.lookup_append, ← kept?]
    by_cases hs : s = slot
    · rw [hs, List.getElem?_set_self hlength, kept?_eq_none_iff.2 hnew]
      simp
    · have hother : [(slot, reply)].lookup s = none := by
        rw [List.lookup_cons, beq_false_of_ne hs]
        rfl
      rw [List.getElem?_set_ne (Ne.symm hs), hother, Option.or_none, h.kept?_eq]

theorem release (h : Accounts log o) :
    Accounts (log ++ [(Act.release, Answer.released o.release.2)]) o.release.1 := by
  have hissued : issued (log ++ [(Act.release, Answer.released o.release.2)]) = issued log := by
    simp [issued]
  have hfilled : filled (log ++ [(Act.release, Answer.released o.release.2)]) = filled log := by
    simp [filled]
  have hreleased : released (log ++ [(Act.release, Answer.released o.release.2)]) =
      released log ++ ready o.window := by
    simp [released, ReplyOrder.release]
  refine ⟨?_, ?_, ?_, fun slot => ?_⟩
  · rw [hreleased, List.length_append, ← h.first_eq]
    rfl
  · rw [hissued, next_release, h.issued_eq]
  · rw [hfilled]
    exact h.nodup
  · rw [kept?, hfilled, hreleased, ← kept?, h.kept?_eq, List.map_append, List.append_assoc]
    show _ = (_ ++ ((ready o.window).map some ++ o.window.drop _))[slot]?.join
    rw [ready_append_drop]

theorem perform (h : Accounts log o) (act : Act α) :
    Accounts (log ++ [(act, (o.perform act).2)]) (o.perform act).1 := by
  cases act with
  | reserve => exact h.reserve
  | fill slot reply =>
    rw [ReplyOrder.perform]
    cases hfill : o.fill? slot reply with
    | some o' => exact h.fill hfill
    | none =>
      refine ⟨?_, ?_, ?_, ?_⟩
      · simpa [released] using h.first_eq
      · simpa [issued] using h.issued_eq
      · simpa [filled] using h.nodup
      · simpa [kept?, filled, released] using h.kept?_eq
  | release => exact h.release

/-- The replies released are those of the first slots. -/
theorem released_eq (h : Accounts log o) :
    (released log).map some = (List.range (released log).length).map (kept? log) := by
  refine List.ext_getElem? fun slot => ?_
  rw [List.getElem?_map, List.getElem?_map]
  by_cases hlt : slot < (released log).length
  · rw [List.getElem?_range hlt, Option.map_some, h.kept?_of_lt hlt, List.getElem?_eq_getElem hlt]
    rfl
  · rw [List.getElem?_eq_none (not_lt.1 hlt), List.getElem?_eq_none (by simpa using hlt)]
    rfl

theorem owed_eq (h : Accounts log o) :
    (released log).length + o.owed = (issued log).length := by
  rw [h.length_issued, ← h.first_eq]
  rfl

/-- Once nothing is ready any more, all is released up to the first slot that is not filled. -/
theorem isLeast (h : Accounts log o) (hready : ready o.window = []) :
    IsLeast {slot | slot ∉ (filled log).map Prod.fst ∨ slot = (issued log).length}
      (released log).length := by
  refine ⟨?_, fun slot hslot => ?_⟩
  · by_cases howed : o.owed = 0
    · right
      rw [← h.owed_eq, howed]
      rfl
    · left
      rw [← h.first_eq]
      exact (h.isOwed_iff.1 (isOwed_first hready howed)).2.2
  · by_contra hlt
    rw [not_le] at hlt
    rcases hslot with hnew | rfl
    · rw [← kept?_eq_none_iff, h.kept?_of_lt hlt] at hnew
      cases hnew
    · have howed := h.owed_eq
      omega

end Accounts

/-! ## In three parts -/

/-- A reply order in three parts: the slots are numbered by a counter, those that are not
    released wait in line, and the replies that wait for them are in a table. -/
structure Parts (α : Type u) where
  next : Nat := 0
  line : List Nat := []
  kept : Table Nat α := .empty

namespace Parts

/-- Take the replies at the front of the line, up to the first slot that has none. -/
def takeReady : List Nat → Table Nat α → List α × List Nat × Table Nat α
  | [], kept => ([], [], kept)
  | slot :: line, kept =>
    match kept.get? slot with
    | none => ([], slot :: line, kept)
    | some reply =>
      let (replies, rest) := takeReady line (kept.erase slot)
      (reply :: replies, rest)

/-- Do an act. -/
def perform (p : Parts α) : Act α → Parts α × Answer α
  | .reserve => ({ p with next := p.next + 1, line := p.line ++ [p.next] }, .reserved p.next)
  | .fill slot reply =>
    if !p.line.contains slot || p.kept.contains slot then (p, .filled false)
    else ({ p with kept := p.kept.insert slot reply }, .filled true)
  | .release =>
    let (replies, line, kept) := takeReady p.line p.kept
    ({ p with line, kept }, .released replies)

/-- The course of these acts, from no slot on. -/
def run (acts : List (Act α)) : Course (Parts α) (Act α) (Answer α) := .run perform {} acts

/-- The line and the table hold the window of these slots, from `first` on. -/
structure Shelves (first : Nat) (window : List (Option α)) (line : List Nat)
    (kept : Table Nat α) : Prop where
  line_eq : line = List.range' first window.length
  get?_eq : ∀ slot, kept.get? slot = if first ≤ slot then window[slot - first]?.join else none

/-- What is taken from the line is what is ready in the window. -/
theorem Shelves.takeReady {first : Nat} {window : List (Option α)} {line : List Nat}
    {kept : Table Nat α} (h : Shelves first window line kept) :
    (takeReady line kept).1 = ready window ∧
      Shelves (first + (ready window).length) (window.drop (ready window).length)
        (Parts.takeReady line kept).2.1 (Parts.takeReady line kept).2.2 := by
  induction window generalizing first line kept with
  | nil =>
    obtain ⟨rfl, hget⟩ := h
    exact ⟨rfl, rfl, hget⟩
  | cons slot? window ih =>
    obtain ⟨rfl, hget⟩ := h
    have hfirst : kept.get? first = slot? := by
      rw [hget, if_pos (Nat.le_refl _), Nat.sub_self]
      rfl
    rw [List.length_cons, List.range'_succ, Parts.takeReady, hfirst]
    cases slot? with
    | none => exact ⟨rfl, (List.range'_succ ..).symm, hget⟩
    | some reply =>
      have hrest : Shelves (first + 1) window (List.range' (first + 1) window.length)
          (kept.erase first) := by
        refine ⟨rfl, fun slot => ?_⟩
        rw [Table.get?_erase, hget]
        rcases Nat.lt_trichotomy slot first with hlt | rfl | hgt
        · rw [if_neg hlt.ne, if_neg hlt.not_ge, if_neg (by omega)]
        · rw [if_pos rfl, if_neg (by omega)]
        · rw [if_neg hgt.ne', if_pos hgt.le, if_pos (Nat.succ_le_of_lt hgt),
            show slot - first = slot - (first + 1) + 1 by omega, List.getElem?_cons_succ]
      obtain ⟨hreplies, hshelves⟩ := ih hrest
      refine ⟨congrArg (reply :: ·) hreplies, ?_⟩
      rw [ready, List.length_cons, List.drop_succ_cons, ← Nat.add_assoc, Nat.add_right_comm]
      exact hshelves

/-- The parts hold what the order holds. -/
structure Holds (o : ReplyOrder α) (p : Parts α) : Prop where
  next_eq : p.next = o.next
  shelves : Shelves o.first o.window p.line p.kept

namespace Holds

variable {o : ReplyOrder α} {p : Parts α} (h : Holds o p)
include h

/-- A slot is owed a reply while it is in line and there is none for it in the table. -/
theorem isOwed_eq (slot : Nat) :
    o.isOwed slot = (p.line.contains slot && !p.kept.contains slot) := by
  obtain ⟨hline, hget⟩ := h.shelves
  rw [Bool.eq_iff_iff, isOwed_iff, Bool.and_eq_true, List.contains_iff_mem, hline,
    List.mem_range'_1, Bool.not_eq_true', Table.contains, hget, Option.isSome_eq_false_iff]
  constructor
  · rintro ⟨hfirst, howed⟩
    obtain ⟨hlt, -⟩ := List.getElem?_eq_some_iff.1 howed
    rw [if_pos hfirst, howed]
    exact ⟨⟨hfirst, by omega⟩, rfl⟩
  · rintro ⟨⟨hfirst, hlt⟩, hnone⟩
    rw [if_pos hfirst, List.getElem?_eq_getElem (by omega), Option.isNone_iff_eq_none] at hnone
    rw [List.getElem?_eq_getElem (by omega)]
    exact ⟨hfirst, congrArg some hnone⟩

theorem perform_fill (slot : Nat) (reply : α) :
    p.perform (.fill slot reply) =
      if o.isOwed slot then ({ p with kept := p.kept.insert slot reply }, .filled true)
      else (p, .filled false) := by
  rw [Parts.perform, h.isOwed_eq]
  cases p.line.contains slot <;> cases p.kept.contains slot <;> rfl

theorem reserve : Holds o.reserve.1 { p with next := p.next + 1, line := p.line ++ [p.next] } := by
  obtain ⟨hline, hget⟩ := h.shelves
  refine ⟨?_, ?_, fun slot => ?_⟩
  · rw [next_reserve, h.next_eq]
  · rw [hline, h.next_eq, ReplyOrder.next, ReplyOrder.reserve, List.length_append,
      List.length_singleton, List.range'_1_concat]
  · rw [hget, ReplyOrder.reserve]
    dsimp only
    rw [join_getElem?_concat_none]

theorem fill {slot : Nat} (howed : o.isOwed slot = true) (reply : α) :
    Holds { o with window := o.window.set (slot - o.first) (some reply) }
      { p with kept := p.kept.insert slot reply } := by
  obtain ⟨hline, hget⟩ := h.shelves
  obtain ⟨hfirst, hnone⟩ := isOwed_iff.1 howed
  obtain ⟨hlt, -⟩ := List.getElem?_eq_some_iff.1 hnone
  refine ⟨?_, ?_, fun s => ?_⟩
  · rw [h.next_eq, ReplyOrder.next, ReplyOrder.next, List.length_set]
  · rw [hline, List.length_set]
  · rw [Table.get?_insert, hget]
    dsimp only
    by_cases hs : s = slot
    · rw [if_pos hs, hs, if_pos hfirst, List.getElem?_set_self hlt]
      rfl
    · rw [if_neg hs]
      by_cases hle : o.first ≤ s
      · rw [if_pos hle, if_pos hle, List.getElem?_set_ne (by omega)]
      · rw [if_neg hle, if_neg hle]

theorem perform (act : Act α) :
    Holds (o.perform act).1 (p.perform act).1 ∧ (o.perform act).2 = (p.perform act).2 := by
  cases act with
  | reserve => exact ⟨h.reserve, congrArg _ h.next_eq.symm⟩
  | fill slot reply =>
    rw [h.perform_fill, ReplyOrder.perform, fill?]
    cases howed : o.isOwed slot with
    | true => exact ⟨h.fill howed reply, rfl⟩
    | false => exact ⟨h, rfl⟩
  | release =>
    obtain ⟨hreplies, hshelves⟩ := h.shelves.takeReady
    exact ⟨⟨h.next_eq.trans (next_release o).symm, hshelves⟩, congrArg _ hreplies.symm⟩

end Holds

theorem holds_run (acts : List (Act α)) :
    Holds (ReplyOrder.run acts).state (run acts).state ∧
      (ReplyOrder.run acts).log = (run acts).log :=
  Course.run_agrees (fun _ _ act h => h.perform act) ⟨rfl, rfl, fun slot => by simp⟩ acts

end Parts

/-! ## Courses -/

theorem accounts_run (acts : List (Act α)) : Accounts (run acts).log (run acts).state := by
  induction acts using List.reverseRecOn with
  | nil => exact ⟨rfl, rfl, List.nodup_nil, fun slot => rfl⟩
  | append_singleton acts act ih =>
    rw [run, Course.run_concat]
    exact ih.perform act

/-- **Replies come out in the order of their slots.**  Slots are issued one after the other.  A
    reply is kept exactly if its slot was issued, is not released and not filled; else nothing
    changes.  The replies released are those of the slots 0, 1 and so on, and after a release
    they go up to the first slot that is not filled, or to the end; what is owed is what was
    issued and not released.  In three parts, everything is answered alike, and as much is in
    line as is owed. -/
theorem run_reassembles (acts : List (Act α)) :
    let o := (run acts).state
    let log := (run acts).log
    let p := Parts.run acts
    (issued log = List.range (issued log).length ∧ ((filled log).map Prod.fst).Nodup) ∧
    (∀ slot reply,
      ((o.perform (.fill slot reply)).2 = .filled true ↔
        slot ∈ issued log ∧ (released log).length ≤ slot ∧ slot ∉ (filled log).map Prod.fst) ∧
      ((o.perform (.fill slot reply)).2 ≠ .filled true →
        o.perform (.fill slot reply) = (o, .filled false) ∧
        p.state.perform (.fill slot reply) = (p.state, .filled false))) ∧
    (released log).map some = (List.range (released log).length).map (kept? log) ∧
    (∀ before, acts = before ++ [.release] →
      IsLeast {slot | slot ∉ (filled log).map Prod.fst ∨ slot = (issued log).length}
        (released log).length) ∧
    (released log).length + o.owed = (issued log).length ∧
    p.log = log ∧ p.state.line.length = o.owed := by
  intro o log p
  have h : Accounts log o := accounts_run acts
  obtain ⟨hholds, hlog⟩ := Parts.holds_run acts
  refine ⟨⟨?_, h.nodup⟩, fun slot reply => ⟨?_, fun hrefused => ?_⟩, h.released_eq, ?_, h.owed_eq,
    hlog.symm, ?_⟩
  · rw [h.length_issued]
    exact h.issued_eq
  · rw [perform_fill, Answer.filled.injEq]
    exact h.isOwed_iff
  · rw [perform_fill, ne_eq, Answer.filled.injEq, Bool.not_eq_true] at hrefused
    refine ⟨perform_fill_of_not_owed hrefused reply, ?_⟩
    rw [hholds.perform_fill, hrefused]
    rfl
  · rintro before rfl
    refine h.isLeast ?_
    show ready (run (before ++ [.release])).state.window = []
    rw [run, Course.run_concat]
    exact ready_drop _
  · rw [hholds.shelves.line_eq, List.length_range']
    rfl

end Depot.ReplyOrder
