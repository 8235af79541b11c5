/-
  Depot — a session with its streams, over any calls.

  A `Line` is a session between an outlet and an inlet that may behave in any way.  Calls of
  `Session.send` and `Session.receive`, calls that go on after they waited, and bytes that
  arrive follow each other in any order (`Line.run`).  A call that is given up is one that
  does not go on.

  What a stream holds in whole is told by `unframe`; `Unframed.result` says what that makes a
  session receive, call by call.  `Line.Kept` ties a line to what has passed over it:
  what was received is what the bytes of the server say from their beginning on, and what was
  written is what was passed to `Session.send`, up to the bytes that the session still keeps.
-/
import Depot.Proofs.Client.Receive
import Mathlib

namespace Depot

/-! ## What a stream makes a session receive -/

/-- The result of a receive after `count` others, of a stream taken apart: the next frame, and
    after the last one what follows it. -/
def Unframed.result (u : Unframed) (hasEnded : Bool) (count : Nat) : Attempt Message :=
  match u.payloads[count]? with
  | some payload => Session.decoded payload
  | none =>
    match u.error with
    | some e => .failed (.wire e)
    | none => if hasEnded then .failed .closed else .blocked

namespace Session

/-- What is left of a stream after `count` messages. -/
def leftAfter (limit : UInt32) : (count : Nat) → Bytes → Bytes
  | 0, bytes => bytes
  | count + 1, bytes => leftAfter limit count (front limit false bytes).2

section

variable {limit : UInt32} {bytes : Bytes} {hasEnded : Bool}

/-- Whether a stream has ended makes no difference to what is left of it. -/
theorem front_snd (limit : UInt32) (hasEnded : Bool) (bytes : Bytes) :
    (front limit hasEnded bytes).2 = (front limit false bytes).2 := by
  unfold front
  split <;> rfl

theorem decoded_ne_blocked (payload : Bytes) : decoded payload ≠ .blocked := by
  unfold decoded
  split <;> simp

/-- What does not wait for bytes is received at the front of longer streams, and of those that
    have ended. -/
theorem front_append (h : (front limit false bytes).1 ≠ .blocked) (hasEnded : Bool)
    (more : Bytes) : front limit hasEnded (bytes ++ more) =
      ((front limit false bytes).1, (front limit false bytes).2 ++ more) := by
  cases hfront : frontFrame limit bytes with
  | error e =>
    rw [front_of_error _ hfront, front_of_error _ (frontFrame_append_error more hfront)]
  | ok found =>
    cases found with
    | none =>
      rw [front_of_none _ hfront] at h
      exact absurd rfl h
    | some n =>
      obtain ⟨-, -, -, hle⟩ := frontFrame_eq_some hfront
      rw [front_of_frame _ hfront, front_of_frame _ (frontFrame_append more hfront),
        List.take_append_of_le_length hle, List.drop_append_of_le_length hle]

/-- Who waits for bytes takes none. -/
theorem front_of_blocked (h : (front limit hasEnded bytes).1 = .blocked) :
    (front limit hasEnded bytes).2 = bytes := by
  unfold front at h ⊢
  split at h
  · rfl
  · exact absurd h (decoded_ne_blocked _)
  · rfl

/-- The last of some messages. -/
theorem fronts_succ (limit : UInt32) (hasEnded : Bool) (count : Nat) (bytes : Bytes) :
    fronts limit hasEnded (count + 1) bytes =
      fronts limit hasEnded count bytes ++
        [(front limit hasEnded (leftAfter limit count bytes)).1] := by
  induction count generalizing bytes with
  | zero => rfl
  | succ count ih =>
    rw [fronts, ih, front_snd]
    conv_rhs => rw [fronts, front_snd]
    rfl

theorem leftAfter_succ (limit : UInt32) (count : Nat) (bytes : Bytes) :
    leftAfter limit (count + 1) bytes = (front limit false (leftAfter limit count bytes)).2 := by
  induction count generalizing bytes with
  | zero => rfl
  | succ count ih =>
    rw [leftAfter, ih]
    rfl

/-- Messages that are received stay as they are when more bytes come, or when the stream ends,
    and the bytes that come are left behind the others. -/
theorem fronts_append {count : Nat} (h : ∀ r ∈ fronts limit false count bytes, r ≠ .blocked)
    (hasEnded : Bool) (more : Bytes) :
    fronts limit hasEnded count (bytes ++ more) = fronts limit false count bytes ∧
      leftAfter limit count (bytes ++ more) = leftAfter limit count bytes ++ more := by
  induction count generalizing bytes with
  | zero => exact ⟨rfl, rfl⟩
  | succ count ih =>
    have hfirst : (front limit false bytes).1 ≠ .blocked := h _ List.mem_cons_self
    obtain ⟨hfronts, hleft⟩ := ih fun r hr => h r (List.mem_cons_of_mem _ hr)
    constructor
    · simp only [fronts, front_append hfirst, hfronts]
    · simp only [leftAfter, front_append hfirst, hleft]

/-! ## Frame by frame -/

theorem front_eq_result (limit : UInt32) (hasEnded : Bool) (bytes : Bytes) :
    (front limit hasEnded bytes).1 = (unframe limit bytes).result hasEnded 0 := by
  cases hfront : frontFrame limit bytes with
  | error e =>
    rw [front_of_error _ hfront, unframe_error hfront]
    rfl
  | ok found =>
    cases found with
    | none =>
      rw [front_of_none _ hfront, unframe_none hfront]
      rfl
    | some n =>
      rw [front_of_frame _ hfront, unframe_some hfront]
      rfl

theorem result_front (limit : UInt32) (hasEnded : Bool) (bytes : Bytes) (count : Nat) :
    (unframe limit (front limit hasEnded bytes).2).result hasEnded count =
      (unframe limit bytes).result hasEnded (count + 1) := by
  cases hfront : frontFrame limit bytes with
  | error e =>
    rw [front_of_error _ hfront, unframe_error hfront]
    rfl
  | ok found =>
    cases found with
    | none =>
      rw [front_of_none _ hfront, unframe_none hfront]
      rfl
    | some n =>
      rw [front_of_frame _ hfront, unframe_some hfront]
      rfl

/-- What is received of a stream is what it holds, frame by frame. -/
theorem fronts_eq (limit : UInt32) (hasEnded : Bool) (count : Nat) (bytes : Bytes) :
    fronts limit hasEnded count bytes =
      (List.range count).map ((unframe limit bytes).result hasEnded) := by
  induction count generalizing bytes with
  | zero => rfl
  | succ count ih =>
    rw [fronts, ih, List.range_succ_eq_map, List.map_cons, List.map_map, front_eq_result]
    congr 1
    refine List.map_congr_left fun i _ => ?_
    exact result_front limit hasEnded bytes i

theorem front_leftAfter (limit : UInt32) (hasEnded : Bool) (count : Nat) (bytes : Bytes) :
    (front limit hasEnded (leftAfter limit count bytes)).1 =
      (unframe limit bytes).result hasEnded count := by
  induction count generalizing bytes with
  | zero => exact front_eq_result limit hasEnded bytes
  | succ count ih =>
    rw [leftAfter, ih, ← front_snd limit hasEnded]
    exact result_front limit hasEnded bytes count

end

/-! ## Writing on -/

/-- Write what waits; so a send goes on. -/
def resume [Outlet σ] (s : Session) (out : σ) : Session × σ × Attempt Unit :=
  match s.backlog.writeAll out with
  | (backlog, out, .finished) => ({ s with backlog }, out, .done ())
  | (backlog, out, .waiting) => ({ s with backlog }, out, .blocked)
  | (backlog, out, .failed kind) => ({ s with backlog }, out, .failed (.io kind))

/-- A message is sent by adding its frame to what waits. -/
theorem send_eq [Outlet σ] (s : Session) (out : σ) (m : Message) :
    s.send out m = resume { s with backlog := s.backlog.push (Frame.ofMessage m) } out := rfl

end Session

/-- Writes that end well leave nothing. -/
theorem Backlog.Counted.bytes_of_finished [Outlet σ] {b left : Backlog} {s s' : σ}
    (h : b.Counted) (hwrite : b.writeAll s = (left, s', .finished)) : left.bytes = [] := by
  fun_induction Backlog.writeAll b s with
  | case1 b s left' s'' result honce =>
    cases hwrite
    unfold Backlog.writeOnce at honce
    split at honce
    · rename_i hpending
      have hnil : b.bytes = [] := List.eq_nil_of_length_eq_zero (h.symm.trans hpending)
      split at honce <;> cases honce
      exact hnil
    · split at honce
      · cases honce
      · cases honce
      · split at honce <;> cases honce
  | case2 b s left' s'' honce ih =>
    have hleft := h.writeOnce s
    rw [honce] at hleft
    exact ih hleft hwrite

section

variable {σ : Type u} [Outlet σ]

/-- What a session does to its outlet by writing on. -/
theorem Session.resume_conserves {s : Session} (h : s.backlog.Counted) (out : Taped σ) :
    let resumed := s.resume out
    resumed.1.deframer = s.deframer ∧ resumed.1.backlog.Counted ∧
      resumed.2.1.tape ++ resumed.1.backlog.bytes = out.tape ++ s.backlog.bytes ∧
      (resumed.2.2 = .done () → resumed.1.backlog.bytes = []) := by
  have hcounted := h.writeAll out
  have hconserves := s.backlog.writeAll_conserves out
  unfold resume
  split
  all_goals
    rename_i hwrite
    rw [hwrite] at hcounted hconserves
  · exact ⟨rfl, hcounted, hconserves, fun _ => h.bytes_of_finished hwrite⟩
  · exact ⟨rfl, hcounted, hconserves, by simp⟩
  · exact ⟨rfl, hcounted, hconserves, by simp⟩

end

/-! ## Lines -/

/-- A session with its streams, and what has passed over them. -/
structure Line (σ : Type u) where
  session : Session := {}
  outlet : Taped σ
  inlet : Inlet := {}
  /-- The messages passed to `Session.send`, in order. -/
  passed : List Message := []
  /-- The bytes that the server has brought to the session. -/
  arrived : Bytes := []
  /-- How the receives ended that did not wait any more, in order. -/
  heard : List (Attempt Message) := []

/-- What can happen to a line. -/
inductive LineAct (σ : Type u) where
  | send (m : Message)
  /-- A send that waits goes on. -/
  | resume
  /-- A receive begins, or one that waits goes on.  One that waits has kept all that it read, so
      nothing changes if it is given up there or its stream fails; what it did not get to read has
      not arrived yet. -/
  | receive
  | arrive (data : Bytes)
  /-- Nothing more arrives. -/
  | close
  /-- The outlet changes without the session. -/
  | outside (change : σ → σ)

namespace Line

variable {σ : Type u}

def opened (outlet : σ) : Line σ where
  outlet := ⟨outlet, []⟩

/-- The result, behind the others if the call has ended with it. -/
def note (heard : List (Attempt Message)) : Attempt Message → List (Attempt Message)
  | .blocked => heard
  | result => heard ++ [result]

theorem note_of_ne {heard : List (Attempt Message)} {result : Attempt Message}
    (h : result ≠ .blocked) : note heard result = heard ++ [result] := by
  cases result with
  | done | failed => rfl
  | blocked => exact absurd rfl h

/-- One thing happens. -/
def act [Outlet σ] (l : Line σ) : LineAct σ → Line σ
  | .send m =>
    let (session, outlet, _) := l.session.send l.outlet m
    { l with session, outlet, passed := l.passed ++ [m] }
  | .resume =>
    let (session, outlet, _) := l.session.resume l.outlet
    { l with session, outlet }
  | .receive =>
    let (session, inlet, result) := l.session.receive l.inlet
    { l with session, inlet, heard := note l.heard result }
  | .arrive data =>
    { l with
      inlet := l.inlet.arrive data
      arrived := if l.inlet.hasEnded then l.arrived else l.arrived ++ data }
  | .close => { l with inlet := l.inlet.close }
  | .outside change => { l with outlet := { l.outlet with outlet := change l.outlet.outlet } }

def run [Outlet σ] (l : Line σ) (acts : List (LineAct σ)) : Line σ := acts.foldl act l

/-! ## What a line keeps -/

/-- What was passed is written up to the bytes that the session keeps; what has arrived is
    received up to the bytes that are left. -/
structure Kept (l : Line σ) : Prop where
  counted : l.session.backlog.Counted
  written : l.outlet.tape ++ l.session.backlog.bytes = l.passed.flatMap Message.frame
  faces : Session.Faces Deframer.defaultLimit
    (Session.leftAfter Deframer.defaultLimit l.heard.length l.arrived)
    l.session.deframer l.inlet.reads
  heard_eq : l.heard =
    Session.fronts Deframer.defaultLimit l.inlet.hasEnded l.heard.length l.arrived
  settled : ∀ r ∈ l.heard, r ≠ .blocked

theorem kept_opened (outlet : σ) : (opened outlet).Kept where
  counted := rfl
  written := rfl
  faces := ⟨Deframer.sound_of_length rfl, rfl, rfl⟩
  heard_eq := rfl
  settled := by simp [opened]

namespace Kept

variable {l : Line σ}

/-- The next receive brings what comes after those before it. -/
theorem receive_eq (h : l.Kept) : (l.session.receive l.inlet).2.2 =
    (unframe Deframer.defaultLimit l.arrived).result l.inlet.hasEnded l.heard.length := by
  obtain ⟨d, reads, hreceive, -⟩ := h.faces.receiveFrom l.inlet.hasEnded
  rw [Session.receive, hreceive]
  exact Session.front_leftAfter _ _ _ _

variable [Outlet σ]

theorem resume (h : l.Kept) : (l.act .resume).Kept := by
  obtain ⟨hdeframer, hcounted, hconserves, -⟩ := Session.resume_conserves h.counted l.outlet
  refine ⟨hcounted, hconserves.trans h.written, ?_, h.heard_eq, h.settled⟩
  show Session.Faces _ _ (l.session.resume l.outlet).1.deframer _
  rw [hdeframer]
  exact h.faces

/-- The frame of a message waits behind the bytes that wait already. -/
theorem send (h : l.Kept) (m : Message) : (l.act (.send m)).Kept := by
  have hpushed : Kept { l with
      session := { l.session with backlog := l.session.backlog.push (Frame.ofMessage m) }
      passed := l.passed ++ [m] } := by
    refine ⟨h.counted.append _, ?_, h.faces, h.heard_eq, h.settled⟩
    show l.outlet.tape ++ (l.session.backlog.push _).bytes = _
    rw [Backlog.bytes_push, Frame.bytes_ofMessage, ← List.append_assoc, h.written,
      List.flatMap_append, List.flatMap_singleton]
    rfl
  exact hpushed.resume

theorem receive (h : l.Kept) : (l.act .receive).Kept := by
  obtain ⟨d, reads, hreceive, hfaces⟩ := h.faces.receiveFrom l.inlet.hasEnded
  by_cases hblocked : (Session.front Deframer.defaultLimit l.inlet.hasEnded
      (Session.leftAfter Deframer.defaultLimit l.heard.length l.arrived)).1 = .blocked
  · have hact : l.act .receive =
        { l with session := { l.session with deframer := d }, inlet := { l.inlet with reads } } := by
      simp only [act, Session.receive, hreceive, hblocked, note]
    rw [Session.front_of_blocked hblocked] at hfaces
    rw [hact]
    exact ⟨h.counted, h.written, hfaces, h.heard_eq, h.settled⟩
  · have hact : l.act .receive =
        { l with
          session := { l.session with deframer := d }
          inlet := { l.inlet with reads }
          heard := l.heard ++ [(Session.front Deframer.defaultLimit l.inlet.hasEnded
            (Session.leftAfter Deframer.defaultLimit l.heard.length l.arrived)).1] } := by
      simp only [act, Session.receive, hreceive, note_of_ne hblocked]
    have hnext := Session.fronts_succ Deframer.defaultLimit l.inlet.hasEnded l.heard.length l.arrived
    rw [← h.heard_eq] at hnext
    rw [Session.front_snd, ← Session.leftAfter_succ] at hfaces
    rw [hact]
    refine ⟨h.counted, h.written, ?_, ?_, ?_⟩
    · simpa using hfaces
    · simpa using hnext.symm
    · intro r hr
      rcases List.mem_append.1 hr with hr | hr
      · exact h.settled r hr
      · rw [List.mem_singleton.1 hr]
        exact hblocked

/-- What is received stays when more bytes come. -/
theorem arrive (h : l.Kept) (data : Bytes) : (l.act (.arrive data)).Kept := by
  cases hended : l.inlet.hasEnded with
  | true =>
    have hact : l.act (.arrive data) = l := by
      simp only [act, Inlet.arrive, hended, if_true]
    rw [hact]
    exact h
  | false =>
    have hact : l.act (.arrive data) =
        { l with
          inlet := { l.inlet with reads := l.inlet.reads ++ readsOf data }
          arrived := l.arrived ++ data } := by
      simp only [act, Inlet.arrive, hended, Bool.false_eq_true, if_false]
    have heard := h.heard_eq
    rw [hended] at heard
    obtain ⟨hfronts, hleft⟩ := Session.fronts_append
      (fun r hr => h.settled r (heard ▸ hr)) false data
    obtain ⟨hsound, hlimit, hstream⟩ := h.faces
    rw [hact]
    refine ⟨h.counted, h.written, ⟨hsound, hlimit, ?_⟩, ?_, h.settled⟩
    · show l.session.deframer.buffer.toBytes ++ (l.inlet.reads ++ readsOf data).flatten =
        Session.leftAfter _ _ (l.arrived ++ data)
      rw [hleft, List.flatten_append, flatten_readsOf, ← List.append_assoc, hstream]
    · show l.heard = Session.fronts _ l.inlet.hasEnded _ (l.arrived ++ data)
      rw [hended, hfronts]
      exact heard

/-- What is received stays when the stream ends. -/
theorem close (h : l.Kept) : (l.act .close).Kept := by
  refine ⟨h.counted, h.written, h.faces, ?_, h.settled⟩
  show l.heard = Session.fronts _ true l.heard.length l.arrived
  have heard := h.heard_eq
  cases hended : l.inlet.hasEnded with
  | true => rwa [hended] at heard
  | false =>
    rw [hended] at heard
    have hfronts := (Session.fronts_append (fun r hr => h.settled r (heard ▸ hr)) true []).1
    rw [List.append_nil] at hfronts
    rw [hfronts]
    exact heard

theorem act (h : l.Kept) (a : LineAct σ) : (l.act a).Kept := by
  cases a with
  | send m => exact h.send m
  | resume => exact h.resume
  | receive => exact h.receive
  | arrive data => exact h.arrive data
  | close => exact h.close
  | outside change => exact ⟨h.counted, h.written, h.faces, h.heard_eq, h.settled⟩

theorem run (h : l.Kept) (acts : List (LineAct σ)) : (l.run acts).Kept := by
  induction acts generalizing l with
  | nil => exact h
  | cons a acts ih => exact ih (h.act a)

/-- A send that ends well has written all messages. -/
theorem send_done (h : l.Kept) {m : Message} {session : Session} {outlet : Taped σ}
    (hsend : l.session.send l.outlet m = (session, outlet, .done ())) :
    outlet.tape = (l.passed ++ [m]).flatMap Message.frame := by
  have hpushed : { l.session with
      backlog := l.session.backlog.push (Frame.ofMessage m) }.backlog.Counted := h.counted.append _
  obtain ⟨-, -, -, hnil⟩ := Session.resume_conserves hpushed l.outlet
  rw [← Session.send_eq, hsend] at hnil
  have hwritten := (h.send m).written
  simp only [Line.act, hsend] at hwritten
  rw [← hwritten, hnil rfl, List.append_nil]

end Kept

/-! ## Any run -/

/-- **Whatever a session does, and however its streams behave, it receives what its server
    says, frame by frame, and writes what is passed to it.**  The receives that ended brought
    the messages of the frames that have arrived, in order, with an error for each payload that
    makes no sense; after the last frame comes the error of a bad length, each time, and without
    one the end of the stream, even within a frame.  What the next receive brings comes next;
    it waits only if there is nothing to say.  The bytes written begin the frames of all
    messages passed, in order, and are all of them once a send ends well. -/
theorem run_conveys [Outlet σ] (outlet : σ) (acts : List (LineAct σ)) :
    let l := (opened outlet).run acts
    let stream := unframe Deframer.defaultLimit l.arrived
    l.heard = (List.range l.heard.length).map (stream.result l.inlet.hasEnded) ∧
      (l.session.receive l.inlet).2.2 = stream.result l.inlet.hasEnded l.heard.length ∧
      l.outlet.tape <+: l.passed.flatMap Message.frame ∧
      ∀ m session outlet, l.session.send l.outlet m = (session, outlet, .done ()) →
        outlet.tape = (l.passed ++ [m]).flatMap Message.frame := by
  intro l stream
  have hkept : l.Kept := (kept_opened outlet).run acts
  refine ⟨?_, hkept.receive_eq, ⟨_, hkept.written⟩, fun m session outlet => hkept.send_done⟩
  rw [← Session.fronts_eq]
  exact hkept.heard_eq

end Line

end Depot
