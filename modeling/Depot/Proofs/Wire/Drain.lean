/-
  Depot — draining a backlog into any writer that does not block.

  An `Intake` is such a writer: it is offered segments and answers as it likes.  A
  `Draining` makes one call of it after the other, and may go on for ever.  `Drains` is
  what holds after any number of calls: where the bytes are, what was offered, and what
  the result says.  `ends_iff` says that a drain ends unless the writer is interrupted
  from some call on, each time; no call may take an empty segment for progress.
  `run_conserves` is about anything that is done with a backlog, and a drain after it.
-/
import Depot.Proofs.Course
import Depot.Proofs.Wire.Backlog

namespace Depot

namespace Backlog

/-! ## No segment is empty -/

/-- The bytes that wait are counted, and no segment is empty. -/
structure Solid (b : Backlog) : Prop where
  counted : b.Counted
  nonempty : ∀ segment ∈ b.segments, segment ≠ []

/-- What a writer may be offered of these bytes: one to 64 segments from the front, none of
    them empty. -/
structure Offer (bytes : Bytes) (offered : List Bytes) : Prop where
  ne_nil : offered ≠ []
  length_le : offered.length ≤ 64
  nonempty : ∀ segment ∈ offered, segment ≠ []
  front : offered.flatten <+: bytes

theorem nonempty_dropBytes {segments : List Bytes} (h : ∀ segment ∈ segments, segment ≠ [])
    (n : Nat) : ∀ segment ∈ dropBytes n segments, segment ≠ [] := by
  fun_induction dropBytes n segments with
  | case1 => exact h
  | case2 n segment segments hnil ih => exact ih fun s hs => h s (List.mem_cons_of_mem _ hs)
  | case3 n segment segments hrest =>
    intro s hs
    rcases List.mem_cons.1 hs with rfl | hs
    · exact hrest
    · exact h s (List.mem_cons_of_mem _ hs)

/-! ## A drain, answer by answer -/

section

variable {b : Backlog}

theorem drain_of_isEmpty (h : b.isEmpty = true) (answers : List Answer) :
    b.drain answers = ⟨b, [], none⟩ := by
  cases answers with
  | nil => rfl
  | cons answer answers => rw [drain.eq_def]; exact if_pos h

variable (hne : b.isEmpty = false) (answers : List Answer)
include hne

theorem drain_wouldBlock : b.drain (.wouldBlock :: answers) = ⟨b, [], none⟩ := by
  simp [drain, hne]

theorem drain_interrupted : b.drain (.interrupted :: answers) = b.drain answers := by
  simp [drain, hne]

theorem drain_fail (kind : IoKind) : b.drain (.fail kind :: answers) = ⟨b, [], some kind⟩ := by
  simp [drain, hne]

theorem drain_accept_nil {most : Nat} (hnone : takeBytes most (b.front maxSegments) = []) :
    b.drain (.accept most :: answers) = ⟨b, [[]], some .writeZero⟩ := by
  simp [drain, hne, hnone, took]

theorem drain_accept {most : Nat} (hsome : takeBytes most (b.front maxSegments) ≠ []) :
    b.drain (.accept most :: answers) =
      let bytes := takeBytes most (b.front maxSegments)
      let d := (b.dropFront bytes.length).drain answers
      { d with accepted := bytes :: d.accepted } := by
  simp [drain, hne, hsome, took]

end

namespace Solid

variable {b : Backlog} (h : b.Solid)
include h

theorem append (segments : List Bytes) : (b.append segments).Solid where
  counted := h.counted.append segments
  nonempty := by
    intro segment hs
    rcases List.mem_append.1 hs with hs | hs
    · exact h.nonempty segment hs
    · simpa using (List.mem_filter.1 hs).2

theorem dropFront (n : Nat) : (b.dropFront n).Solid where
  counted := h.counted.dropFront n
  nonempty := nonempty_dropBytes h.nonempty n

theorem drain (answers : List Answer) : (b.drain answers).left.Solid := by
  fun_induction Backlog.drain b answers with
  | case1 | case2 | case3 | case5 | case6 => exact h
  | case4 b answers _ ih => exact ih h
  | case7 b answers _ most bytes left htook d ih =>
    obtain ⟨-, rfl⟩ := took_eq_ok htook
    exact ih (h.dropFront _)

theorem isEmpty_iff : b.isEmpty = true ↔ b.segments = [] := by
  rw [h.counted.isEmpty_iff, bytes, List.flatten_eq_nil_iff, List.eq_nil_iff_forall_not_mem]
  exact ⟨fun hnil s hs => h.nonempty s hs (hnil s hs), fun hnone s hs => absurd hs (hnone s)⟩

theorem pending_eq : b.pending = Bytes.total b.segments :=
  h.counted.trans (Bytes.length_flatten _)

/-- While something is left, the front is something to offer. -/
theorem offer (hne : b.isEmpty = false) : Offer b.bytes (b.front maxSegments) where
  ne_nil := by
    intro hnil
    rcases List.take_eq_nil_iff.1 hnil with hmax | hsegments
    · cases hmax
    · rw [h.isEmpty_iff.2 hsegments] at hne
      cases hne
  length_le := List.length_take_le _ _
  nonempty s hs := h.nonempty s (List.mem_of_mem_take hs)
  front := ⟨(b.segments.drop maxSegments).flatten, by
    rw [front, bytes, ← List.flatten_append, List.take_append_drop]⟩

end Solid

end Backlog

/-! ## Calls -/

/-- A writer that does not block: it is offered segments and answers. -/
class Intake (σ : Type u) where
  offer : σ → List Bytes → σ × Backlog.Answer

/-- A call of a writer. -/
structure IntakeCall where
  offered : List Bytes
  answer : Backlog.Answer
  deriving DecidableEq, Repr

namespace IntakeCall

/-- What a call took, if it was successful. -/
def accepted? (call : IntakeCall) : Option Bytes :=
  match call.answer with
  | .accept most => some (takeBytes most call.offered)
  | _ => none

/-- What was taken in these calls, in order. -/
def taken (calls : List IntakeCall) : Bytes := (calls.filterMap accepted?).flatten

theorem taken_concat (calls : List IntakeCall) (call : IntakeCall) :
    taken (calls ++ [call]) = taken calls ++ call.accepted?.getD [] := by
  unfold taken
  rw [List.filterMap_append, List.flatten_append]
  cases h : call.accepted? with
  | none => rw [List.filterMap_cons_none h]; rfl
  | some bytes => rw [List.filterMap_cons_some h]; exact congrArg _ (List.append_nil _)

end IntakeCall

/-! ## Drains -/

/-- A drain, after so many calls. -/
structure Draining (σ : Type u) where
  backlog : Backlog
  writer : σ
  /-- The number of bytes that were taken. -/
  written : Nat := 0
  /-- The calls, first one first. -/
  calls : List IntakeCall := []
  /-- What it returned, once it is over: the number of bytes taken, or what failed. -/
  result : Option (Except IoKind Nat) := none

namespace Draining

variable {σ : Type u}

/-- The segments that the next call is offered. -/
def front (d : Draining σ) : List Bytes := d.backlog.front maxSegments

/-- What the result of a drain says: so many bytes were taken, and nothing is left or the last
    answer was that the writer would block; or what failed in the last call. -/
inductive Ended (d : Draining σ) : Except IoKind Nat → Prop
  | emptied (h : d.backlog.segments = []) : Ended d (.ok (IntakeCall.taken d.calls).length)
  | blocked {offered : List Bytes} (h : d.calls.getLast? = some ⟨offered, .wouldBlock⟩) :
      Ended d (.ok (IntakeCall.taken d.calls).length)
  | failed {offered : List Bytes} {kind : IoKind}
      (h : d.calls.getLast? = some ⟨offered, .fail kind⟩) : Ended d (.error kind)
  | refused {offered : List Bytes} {most : Nat}
      (h : d.calls.getLast? = some ⟨offered, .accept most⟩) (hnone : takeBytes most offered = []) :
      Ended d (.error .writeZero)

/-- How a drain of the backlog `b` stands: the bytes taken and those left are those of `b`,
    each call was offered what was not taken before it, and the result is as it should be. -/
structure Drains (b : Backlog) (d : Draining σ) : Prop where
  solid : d.backlog.Solid
  bytes : IntakeCall.taken d.calls ++ d.backlog.bytes = b.bytes
  written : d.written = (IntakeCall.taken d.calls).length
  offers : ∀ before call, before ++ [call] <+: d.calls →
    Backlog.Offer (b.bytes.drop (IntakeCall.taken before).length) call.offered
  ended : ∀ result, d.result = some result → d.Ended result

/-- What a call comes to that takes nothing: how the writer answered, and what the drain
    returns, if it is over. -/
inductive Idles (d : Draining σ) : Backlog.Answer → Option (Except IoKind Nat) → Prop
  | blocked : Idles d .wouldBlock (some (.ok d.written))
  | interrupted : Idles d .interrupted none
  | failed (kind : IoKind) : Idles d (.fail kind) (some (.error kind))
  | refused {most : Nat} (hnone : takeBytes most d.front = []) :
      Idles d (.accept most) (some (.error .writeZero))

namespace Drains

variable {b : Backlog} {d : Draining σ}

theorem start (h : b.Solid) (writer : σ) : Drains b ⟨b, writer, 0, [], none⟩ where
  solid := h
  bytes := rfl
  written := rfl
  offers before call hpart := by
    have hnil := List.prefix_nil.1 hpart
    exact absurd hnil (List.append_ne_nil_of_right_ne_nil _ (List.cons_ne_nil _ _))
  ended _ hresult := by cases hresult

/-- One more call is offered what waits. -/
theorem offers_concat (h : Drains b d) (hne : d.backlog.isEmpty = false)
    (answer : Backlog.Answer) (before : List IntakeCall) (call : IntakeCall)
    (hpart : before ++ [call] <+: d.calls ++ [⟨d.front, answer⟩]) :
    Backlog.Offer (b.bytes.drop (IntakeCall.taken before).length) call.offered := by
  rcases List.prefix_concat_iff.1 hpart with heq | hbefore
  · obtain ⟨rfl, hcall⟩ := List.append_inj' heq rfl
    cases hcall
    rw [← h.bytes, List.drop_left]
    exact h.solid.offer hne
  · exact h.offers before call hbefore

/-- A call that takes nothing leaves all bytes where they are. -/
theorem idle (h : Drains b d) (hne : d.backlog.isEmpty = false) {writer : σ}
    {answer : Backlog.Answer} {result : Option (Except IoKind Nat)} (hi : d.Idles answer result) :
    Drains b { d with writer, calls := d.calls ++ [⟨d.front, answer⟩], result } := by
  have htaken : IntakeCall.taken (d.calls ++ [⟨d.front, answer⟩]) = IntakeCall.taken d.calls := by
    rw [IntakeCall.taken_concat]
    cases hi with
    | blocked | interrupted | failed => exact List.append_nil _
    | refused hnone =>
      rw [IntakeCall.accepted?, Option.getD_some, hnone, List.append_nil]
  refine ⟨h.solid, by rw [htaken, h.bytes], by rw [htaken, h.written], h.offers_concat hne _, ?_⟩
  intro returned hreturned
  have hlast : (d.calls ++ [(⟨d.front, answer⟩ : IntakeCall)]).getLast? = some ⟨d.front, answer⟩ :=
    List.getLast?_concat
  cases hi with
  | blocked =>
    cases hreturned
    rw [h.written, ← htaken]
    exact .blocked hlast
  | interrupted => cases hreturned
  | failed kind =>
    cases hreturned
    exact .failed hlast
  | refused hnone =>
    cases hreturned
    exact .refused hlast hnone

/-- The bytes that a call takes are the next ones. -/
theorem take (h : Drains b d) (hr : d.result = none) (hne : d.backlog.isEmpty = false) {writer : σ}
    (most : Nat) :
    Drains b { d with
      backlog := d.backlog.dropFront (takeBytes most d.front).length
      writer
      written := d.written + (takeBytes most d.front).length
      calls := d.calls ++ [⟨d.front, .accept most⟩] } := by
  have htaken : IntakeCall.taken (d.calls ++ [⟨d.front, .accept most⟩]) =
      IntakeCall.taken d.calls ++ takeBytes most d.front := IntakeCall.taken_concat _ _
  have hconserved := d.backlog.front_append_dropFront most maxSegments
  refine ⟨h.solid.dropFront _, ?_, ?_, h.offers_concat hne _, fun returned hreturned => ?_⟩
  · rw [htaken, List.append_assoc, front, hconserved, h.bytes]
  · rw [htaken, List.length_append, h.written]
  · cases hr.symm.trans hreturned

end Drains

/-! ## One call after the other -/

/-- What a drain that is not over becomes by a step. -/
inductive Stepped (d : Draining σ) : Draining σ → Prop
  | emptied (he : d.backlog.isEmpty = true) : Stepped d { d with result := some (.ok d.written) }
  | idled {writer : σ} {answer : Backlog.Answer} {result : Option (Except IoKind Nat)}
      (hne : d.backlog.isEmpty = false) (hidle : d.Idles answer result) :
      Stepped d { d with writer, calls := d.calls ++ [⟨d.front, answer⟩], result }
  | took {writer : σ} {most : Nat} (hne : d.backlog.isEmpty = false)
      (hsome : takeBytes most d.front ≠ []) :
      Stepped d { d with
        backlog := d.backlog.dropFront (takeBytes most d.front).length
        writer
        written := d.written + (takeBytes most d.front).length
        calls := d.calls ++ [⟨d.front, .accept most⟩] }

variable [Intake σ]

/-- Make a call, unless the drain is over. -/
def step (d : Draining σ) : Draining σ :=
  match d.result with
  | some _ => d
  | none =>
    if d.backlog.isEmpty then { d with result := some (.ok d.written) }
    else
      let offered := d.backlog.front maxSegments
      let (writer, answer) := Intake.offer d.writer offered
      let called := { d with writer, calls := d.calls ++ [⟨offered, answer⟩] }
      match answer with
      | .wouldBlock => { called with result := some (.ok d.written) }
      | .interrupted => called
      | .fail kind => { called with result := some (.error kind) }
      | .accept most =>
        let n := (takeBytes most offered).length
        match d.backlog.took n with
        | .error kind => { called with result := some (.error kind) }
        | .ok backlog => { called with backlog, written := d.written + n }

/-- The drain of a backlog into a writer, after so many steps. -/
def after (b : Backlog) (writer : σ) : Nat → Draining σ
  | 0 => ⟨b, writer, 0, [], none⟩
  | n + 1 => (after b writer n).step

theorem step_cases {d : Draining σ} (h : d.result = none) : d.Stepped d.step := by
  unfold step
  rw [h]
  dsimp only
  split
  · exact .emptied ‹_›
  · rename_i hne
    replace hne := Bool.eq_false_of_not_eq_true hne
    rcases Intake.offer d.writer (d.backlog.front maxSegments) with ⟨writer, answer⟩
    cases answer with
    | wouldBlock => exact .idled hne .blocked
    | interrupted => exact .idled hne .interrupted
    | fail kind => exact .idled hne (.failed kind)
    | accept most =>
      dsimp only
      split
      · rename_i htook
        obtain ⟨hnone, rfl⟩ := Backlog.took_eq_error htook
        exact .idled hne (.refused (List.eq_nil_of_length_eq_zero hnone))
      · rename_i htook
        obtain ⟨hsome, rfl⟩ := Backlog.took_eq_ok htook
        exact h ▸ .took hne fun hnil => hsome (congrArg List.length hnil)

theorem step_of_result {d : Draining σ} {result : Except IoKind Nat} (h : d.result = some result) :
    d.step = d := by
  unfold step
  rw [h]

/-- A drain that is over stays as it is. -/
theorem after_of_result {b : Backlog} {writer : σ} {m n : Nat} {result : Except IoKind Nat}
    (h : (after b writer m).result = some result) (hle : m ≤ n) :
    after b writer n = after b writer m := by
  induction n, hle using Nat.le_induction with
  | base => rfl
  | succ n _ ih => rw [after, ih, step_of_result h]

theorem Drains.step {b : Backlog} {d : Draining σ} (h : Drains b d) (hr : d.result = none) :
    Drains b d.step := by
  have hstep := step_cases hr
  generalize d.step = d' at hstep
  cases hstep with
  | emptied he =>
    refine ⟨h.solid, h.bytes, h.written, h.offers, fun returned hreturned => ?_⟩
    cases hreturned
    rw [h.written]
    exact .emptied (h.solid.isEmpty_iff.1 he)
  | idled hne hidle => exact h.idle hne hidle
  | took hne => exact h.take hr hne _

theorem Drains.after {b : Backlog} (h : b.Solid) (writer : σ) (n : Nat) :
    Drains b (after b writer n) := by
  induction n with
  | zero => exact start h writer
  | succ n ih =>
    rw [Draining.after]
    cases hr : (Draining.after b writer n).result with
    | none => exact ih.step hr
    | some result => rwa [step_of_result hr]

/-! ## The end -/

/-- After so many steps, each call is interrupted. -/
def InterruptedFrom (b : Backlog) (writer : σ) (n : Nat) : Prop :=
  ∀ k, (after b writer (n + k)).calls =
    (after b writer n).calls ++ List.replicate k ⟨(after b writer n).front, .interrupted⟩

/-- A step that neither ends a drain nor takes a byte is a call that is interrupted. -/
theorem step_interrupted {d : Draining σ} (hr : d.step.result = none)
    (hp : d.backlog.pending ≤ d.step.backlog.pending) :
    d.step.backlog = d.backlog ∧ d.step.calls = d.calls ++ [⟨d.front, .interrupted⟩] := by
  cases hd : d.result with
  | some result => rw [step_of_result hd, hd] at hr; cases hr
  | none =>
    have hstep := step_cases hd
    generalize d.step = d' at hstep hr hp
    cases hstep with
    | emptied => cases hr
    | idled hne hidle =>
      cases hidle with
      | blocked | failed | refused => cases hr
      | interrupted => exact ⟨rfl, rfl⟩
    | took hne hsome =>
      have hpos := List.length_pos_iff.2 hsome
      have hpending : d.backlog.pending ≠ 0 := fun h0 => by
        rw [Backlog.isEmpty, h0] at hne
        cases hne
      replace hp : d.backlog.pending ≤ d.backlog.pending - _ := hp
      omega

theorem not_interruptedFrom {b : Backlog} {writer : σ} {m : Nat} {result : Except IoKind Nat}
    (h : (after b writer m).result = some result) (n : Nat) : ¬ InterruptedFrom b writer n := by
  intro hn
  have hsame : after b writer (n + (m + 1)) = after b writer (n + m) :=
    (after_of_result h (by omega)).trans (after_of_result h (by omega)).symm
  have hcalls := (hn (m + 1)).symm.trans ((congrArg calls hsame).trans (hn m))
  simpa using congrArg List.length hcalls

/-- A drain that never ends takes no byte more once it has taken most, and then each call is
    interrupted. -/
theorem exists_interruptedFrom {b : Backlog} {writer : σ}
    (h : ∀ n, (after b writer n).result = none) : ∃ n, InterruptedFrom b writer n := by
  classical
  have hex : ∃ p n, (after b writer n).backlog.pending = p := ⟨_, 0, rfl⟩
  obtain ⟨n, hn⟩ := Nat.find_spec hex
  have hleast : ∀ m, (after b writer n).backlog.pending ≤ (after b writer m).backlog.pending :=
    fun m => hn.trans_le (Nat.find_min' hex ⟨m, rfl⟩)
  have hkeeps : ∀ k, (after b writer (n + k)).backlog = (after b writer n).backlog ∧
      (after b writer (n + k)).calls =
        (after b writer n).calls ++ List.replicate k ⟨(after b writer n).front, .interrupted⟩ := by
    intro k
    induction k with
    | zero => exact ⟨rfl, (List.append_nil _).symm⟩
    | succ k ih =>
      obtain ⟨hbacklog, hcalls⟩ := ih
      have hpending := hleast (n + k + 1)
      rw [← hbacklog] at hpending
      obtain ⟨hsame, hcall⟩ := step_interrupted (h (n + k + 1)) hpending
      have hfront : (after b writer (n + k)).front = (after b writer n).front :=
        congrArg (Backlog.front · maxSegments) hbacklog
      refine ⟨hsame.trans hbacklog, hcall.trans ?_⟩
      rw [hcalls, hfront, List.append_assoc, ← List.replicate_succ']
  exact ⟨n, fun k => (hkeeps k).2⟩

/-- **A drain ends unless, from some step on, the writer is interrupted each time.** -/
theorem ends_iff (b : Backlog) (writer : σ) :
    (∃ n, (after b writer n).result ≠ none) ↔ ¬ ∃ n, InterruptedFrom b writer n := by
  constructor
  · rintro ⟨m, hm⟩ ⟨n, hn⟩
    obtain ⟨result, hresult⟩ := Option.ne_none_iff_exists'.1 hm
    exact not_interruptedFrom hresult n hn
  · intro hends
    by_contra hnever
    push Not at hnever
    exact hends (exists_interruptedFrom hnever)

/-! ## What the writer answered, as a list -/

/-- What a result says that failed. -/
def failure? : Except IoKind Nat → Option IoKind
  | .ok _ => none
  | .error kind => some kind

/-- What becomes of a drain if the writer goes on with these answers. -/
def goOn (d : Draining σ) (answers : List Backlog.Answer) : Backlog.Drained :=
  match d.result with
  | none => d.backlog.drain answers
  | some result => ⟨d.backlog, [], failure? result⟩

/-- The calls that a step makes. -/
theorem exists_calls_step {d : Draining σ} (hr : d.result = none) :
    ∃ calls, d.step.calls = d.calls ++ calls ∧ ∀ answers,
      d.backlog.drain (calls.map IntakeCall.answer ++ answers) =
        { d.step.goOn answers with
          accepted := calls.filterMap IntakeCall.accepted? ++ (d.step.goOn answers).accepted } := by
  have hstep := step_cases hr
  generalize d.step = d' at hstep
  cases hstep with
  | emptied he =>
    exact ⟨[], (List.append_nil _).symm, Backlog.drain_of_isEmpty he⟩
  | idled hne hidle =>
    refine ⟨[_], rfl, fun answers => ?_⟩
    cases hidle with
    | blocked => exact Backlog.drain_wouldBlock hne answers
    | interrupted => exact Backlog.drain_interrupted hne answers
    | failed kind => exact Backlog.drain_fail hne answers kind
    | refused hnone =>
      have hdrain := Backlog.drain_accept_nil hne answers hnone
      rw [← hnone] at hdrain
      exact hdrain
  | took hne hsome =>
    refine ⟨[_], rfl, fun answers => ?_⟩
    have hdrain := Backlog.drain_accept hne answers hsome
    simp only [goOn, hr]
    exact hdrain

/-- Until it is over, a drain goes as the drain into a list of the writer's answers. -/
theorem drain_answers (b : Backlog) (writer : σ) (n : Nat) (answers : List Backlog.Answer) :
    b.drain ((after b writer n).calls.map IntakeCall.answer ++ answers) =
      { (after b writer n).goOn answers with
        accepted := (after b writer n).calls.filterMap IntakeCall.accepted? ++
          ((after b writer n).goOn answers).accepted } := by
  induction n generalizing answers with
  | zero => rfl
  | succ n ih =>
    cases hr : (after b writer n).result with
    | some result => rw [after, step_of_result hr, ih]
    | none =>
      obtain ⟨calls, hcalls, hdrain⟩ := exists_calls_step hr
      rw [after, hcalls, List.map_append, List.append_assoc, ih, goOn, hr]
      simp only [hdrain, List.filterMap_append, List.append_assoc]

omit [Intake σ] in
theorem goOn_nil (d : Draining σ) : d.goOn [] = ⟨d.backlog, [], d.result.bind failure?⟩ := by
  unfold goOn
  cases d.result <;> rfl

/-- The answers of a writer, as a list, make the drain that the writer makes. -/
theorem drain_eq (b : Backlog) (writer : σ) (n : Nat) :
    b.drain ((after b writer n).calls.map IntakeCall.answer) =
      ⟨(after b writer n).backlog, (after b writer n).calls.filterMap IntakeCall.accepted?,
        (after b writer n).result.bind failure?⟩ := by
  have hdrain := drain_answers b writer n []
  rw [List.append_nil, goOn_nil] at hdrain
  exact hdrain.trans (congrArg (Backlog.Drained.mk _ · _) (List.append_nil _))

end Draining

/-! ## Whatever is done with a backlog -/

namespace Backlog

/-- What may be done with a backlog. -/
inductive Act where
  | push (f : Frame)
  /-- Put a payload behind its length. -/
  | pushPayload (payload : Bytes)
  /-- Drop so many bytes from the front, which were written. -/
  | advance (n : Nat)
  /-- Account for a call that accepted so many bytes. -/
  | consume (n : Nat)
  /-- Drain into a writer that gives these answers. -/
  | drain (answers : List Answer)
  deriving DecidableEq, Repr

/-- The bytes that are added. -/
def Act.added : Act → Bytes
  | push f => f.bytes
  | pushPayload payload => frameBytes payload
  | advance _ | consume _ | drain _ => []

/-- The backlog after an act, and the bytes that were accepted in it. -/
def perform (b : Backlog) : Act → Backlog × Bytes
  | .push f => (b.push f, [])
  | .pushPayload payload => (b.push (.ofPayload payload), [])
  | .advance n => (b.dropFront n, b.bytes.take n)
  | .consume n =>
    match b.took n with
    | .ok left => (left, b.bytes.take n)
    | .error _ => (b, [])
  | .drain answers =>
    let drained := b.drain answers
    (drained.left, drained.accepted.flatten)

/-- The course of these acts, from an empty backlog on. -/
def run (acts : List Act) : Course Backlog Act Bytes := .run perform {} acts

/-- An act conserves the bytes. -/
theorem perform_conserves (b : Backlog) (act : Act) :
    (b.perform act).2 ++ (b.perform act).1.bytes = b.bytes ++ act.added := by
  cases act with
  | push f => exact b.bytes_push f
  | pushPayload payload =>
    exact (b.bytes_push _).trans (by rw [Frame.bytes_ofPayload, Act.added])
  | advance n =>
    rw [perform, bytes_dropFront, List.take_append_drop, Act.added, List.append_nil]
  | consume n =>
    rw [perform, Act.added, List.append_nil]
    cases htook : b.took n with
    | ok left =>
      obtain ⟨-, rfl⟩ := took_eq_ok htook
      show _ ++ (b.dropFront n).bytes = _
      rw [bytes_dropFront, List.take_append_drop]
    | error kind => rfl
  | drain answers => exact (b.drain_conserves answers).trans (List.append_nil _).symm

theorem Solid.perform {b : Backlog} (h : b.Solid) (act : Act) : (b.perform act).1.Solid := by
  cases act with
  | push f => exact h.append _
  | pushPayload payload => exact h.append _
  | advance n => exact h.dropFront n
  | consume n =>
    rw [Backlog.perform]
    cases htook : b.took n with
    | ok left =>
      obtain ⟨-, rfl⟩ := took_eq_ok htook
      exact h.dropFront n
    | error kind => exact h
  | drain answers => exact h.drain answers

theorem solid_run (acts : List Act) : (run acts).state.Solid := by
  induction acts using List.reverseRecOn with
  | nil => exact ⟨rfl, nofun⟩
  | append_singleton acts act ih =>
    rw [run, Course.run_concat]
    exact ih.perform act

theorem bytes_run (acts : List Act) :
    ((run acts).log.map Prod.snd).flatten ++ (run acts).state.bytes = acts.flatMap Act.added := by
  induction acts using List.reverseRecOn with
  | nil => rfl
  | append_singleton acts act ih =>
    have hact := (run acts).state.perform_conserves act
    rw [run] at ih hact ⊢
    rw [Course.run_concat, List.flatMap_append, ← ih]
    simp [Course.next, hact]

/-- **Nothing is lost or doubled, whatever is done with a backlog.**  The bytes accepted and
    those left are the bytes added; the bytes left are counted, and no segment of them is
    empty.  A drain into any writer ends unless the writer is interrupted from some call on,
    each time; after any number of calls the bytes taken and those left are those of before,
    each call was offered one to 64 segments, none empty, that are in front of the bytes then
    left, and the result says what was taken or what failed.  The answers of the writer, as a
    list, make the same drain. -/
theorem run_conserves (acts : List Act) :
    let b := (run acts).state
    ((run acts).log.map Prod.snd).flatten ++ b.bytes = acts.flatMap Act.added ∧
    (b.pending = Bytes.total b.segments ∧ (∀ segment ∈ b.segments, segment ≠ []) ∧
      (b.isEmpty = true ↔ b.segments = [])) ∧
    ∀ (σ : Type u) [Intake σ] (writer : σ),
      ((∃ n, (Draining.after b writer n).result ≠ none) ↔
        ¬ ∃ n, Draining.InterruptedFrom b writer n) ∧
      ∀ n,
        let d := Draining.after b writer n
        IntakeCall.taken d.calls ++ d.backlog.bytes = b.bytes ∧
        (∀ before call, before ++ [call] <+: d.calls →
          Offer (b.bytes.drop (IntakeCall.taken before).length) call.offered) ∧
        (∀ result, d.result = some result → d.Ended result) ∧
        b.drain (d.calls.map IntakeCall.answer) =
          ⟨d.backlog, d.calls.filterMap IntakeCall.accepted?,
            d.result.bind Draining.failure?⟩ := by
  intro b
  have hsolid : b.Solid := solid_run acts
  refine ⟨bytes_run acts, ⟨hsolid.pending_eq, hsolid.nonempty, hsolid.isEmpty_iff⟩, ?_⟩
  intro σ _ writer
  refine ⟨Draining.ends_iff b writer, fun n => ?_⟩
  have hdrains := Draining.Drains.after hsolid writer n
  exact ⟨hdrains.bytes, hdrains.offers, hdrains.ended, Draining.drain_eq b writer n⟩

end Backlog

end Depot
