/-
  Depot — writers.

  A writer takes frames from an inbox of bounded size and writes them to its
  outlet, a batch at a time.  `Writer.offer` puts a frame into the inbox without
  waiting; `Writer.step` is what the writer does at a time, one frame taken or one
  call made, and `Writer.run` lets it go on until it waits for a frame or for its
  outlet.  Once nobody can offer frames any more and the inbox is empty the writer
  shuts its outlet down; a failed write ends it at once.
-/
import Depot.Wire.Outlet

namespace Depot

/-- What became of a frame that was offered. -/
inductive Offer where
  /-- It will be written. -/
  | taken
  /-- There is no room: so many frames wait. -/
  | full (pending : Nat)
  /-- Nobody writes any more. -/
  | gone
  deriving DecidableEq, Repr

/-- The fault that an offer is. -/
def Offer.fault? : Offer → Option Fault
  | taken => none
  | full pending => some (.queueFull pending)
  | gone => some .closed

/-- What a writer is at. -/
inductive WriterStage where
  /-- It waits for a frame. -/
  | idle
  /-- It has taken so many frames for a batch, and takes what else there is. -/
  | gathering (batch : Backlog) (count : Nat)
  /-- It writes a batch. -/
  | writing (batch : Backlog)
  /-- It has ended, with an error if there was one. -/
  | ended (error : Option IoKind)
  deriving DecidableEq, Repr

/-- A writer of frames. -/
structure Writer where
  /-- How many frames the inbox holds. -/
  capacity : Nat
  inbox : List Frame := []
  stage : WriterStage := .idle
  /-- Whether frames can still be offered. -/
  isOpen : Bool := true
  deriving DecidableEq, Repr

/-- The largest number of frames in a batch. -/
def maxBatch : Nat := 64

namespace Writer

/-- A writer whose inbox holds so many frames, at least one. -/
def ofCapacity (capacity : Nat) : Writer := { capacity := max capacity 1 }

/-- Whether the writer has ended. -/
def hasEnded (w : Writer) : Bool :=
  match w.stage with
  | .ended _ => true
  | _ => false

/-- The error that the writer ended with. -/
def error? (w : Writer) : Option IoKind :=
  match w.stage with
  | .ended error => error
  | _ => none

def pending (w : Writer) : Nat := w.inbox.length

/-- Put a frame into the inbox, if there is room and the writer has not ended. -/
def offer (w : Writer) (f : Frame) : Writer × Offer :=
  if w.hasEnded then (w, .gone)
  else if w.capacity ≤ w.pending then (w, .full w.pending)
  else ({ w with inbox := w.inbox ++ [f] }, .taken)

def hangUp (w : Writer) : Writer := { w with isOpen := false }

/-- Go on by one frame or one call.  Returns whether there was anything to do but
    wait. -/
def step [Outlet σ] (w : Writer) (s : σ) : Writer × σ × Bool :=
  match w.stage with
  | .idle =>
    match w.inbox with
    | f :: inbox =>
      ({ w with inbox, stage := .gathering (Backlog.push {} f) 1 }, s, true)
    | [] =>
      if w.isOpen then (w, s, false)
      else
        -- What the outlet says of the shutdown is not looked at.
        match Outlet.shutdown s with
        | (s, .wait) => (w, s, false)
        | (s, _) => ({ w with stage := .ended none }, Outlet.release s, true)
  | .gathering batch count =>
    match w.inbox with
    | f :: inbox =>
      if count < maxBatch then
        ({ w with inbox, stage := .gathering (batch.push f) (count + 1) }, s, true)
      else ({ w with stage := .writing batch }, s, true)
    | [] => ({ w with stage := .writing batch }, s, true)
  | .writing batch =>
    match batch.writeOnce s with
    | (left, s, none) => ({ w with stage := .writing left }, s, true)
    | (_, s, some .finished) => ({ w with stage := .idle }, s, true)
    | (left, s, some .waiting) => ({ w with stage := .writing left }, s, false)
    | (_, s, some (.failed kind)) =>
      ({ w with stage := .ended (some kind), inbox := [] }, Outlet.release s, true)
  | .ended _ => (w, s, false)

/-- The work that frames are: their bytes, and the steps in between. -/
def load : List Frame → Nat
  | [] => 0
  | f :: fs => Bytes.total f.segments + 3 + load fs

/-- The work ahead. -/
def work (w : Writer) : Nat :=
  load w.inbox + match w.stage with
    | .idle => 1
    | .gathering batch _ => batch.pending + 3
    | .writing batch => batch.pending + 2
    | .ended _ => 0

/-- There is less work ahead after every step that goes on. -/
theorem work_step [Outlet σ] {w w' : Writer} {s s' : σ} (h : w.step s = (w', s', true)) :
    w'.work < w.work := by
  obtain ⟨capacity, inbox, stage, isOpen⟩ := w
  cases stage with
  | idle =>
    cases inbox with
    | nil =>
      simp only [step] at h
      split at h
      · cases h
      · split at h
        · cases h
        · cases h
          show 0 < 1
          omega
    | cons f inbox =>
      cases h
      show load inbox + (0 + Bytes.total f.segments + 3) <
        Bytes.total f.segments + 3 + load inbox + 1
      omega
  | gathering batch count =>
    have hwrites : load inbox + (batch.pending + 2) < load inbox + (batch.pending + 3) := by omega
    cases inbox with
    | nil =>
      cases h
      exact hwrites
    | cons f inbox =>
      simp only [step] at h
      split at h
      · cases h
        show load inbox + (batch.pending + Bytes.total f.segments + 3) <
          Bytes.total f.segments + 3 + load inbox + (batch.pending + 3)
        omega
      · cases h
        exact hwrites
  | writing batch =>
    simp only [step] at h
    split at h
    · rename_i left s₁ hwrite
      cases h
      exact Nat.add_lt_add_left (Nat.add_lt_add_right (Backlog.pending_writeOnce hwrite) 2) _
    · cases h
      show load inbox + 1 < load inbox + (batch.pending + 2)
      omega
    · cases h
    · cases h
      show 0 < load inbox + (batch.pending + 2)
      omega
  | ended error => cases h

/-- Go on until there is nothing to do but wait. -/
def run [Outlet σ] (w : Writer) (s : σ) : Writer × σ :=
  match _h : w.step s with
  | (w, s, true) => w.run s
  | (w, s, false) => (w, s)
termination_by w.work
decreasing_by exact work_step _h

/-- Put a frame into the inbox, letting the writer go on once if there is no
    room. -/
def send [Outlet σ] (w : Writer) (s : σ) (f : Frame) : Writer × σ × Attempt Unit :=
  match w.offer f with
  | (w, .taken) => (w, s, .done ())
  | (w, .gone) => (w, s, .failed .closed)
  | (w, .full _) =>
    let (w, s) := w.run s
    match w.offer f with
    | (w, .taken) => (w, s, .done ())
    | (w, .gone) => (w, s, .failed .closed)
    | (w, .full _) => (w, s, .blocked)

/-- Put frames into the inbox, as many as there is room for, if the writer has not
    ended.  Returns how many were taken, and why the next one was not. -/
def offerAll (w : Writer) (fs : List Frame) : Writer × Nat × Option Fault :=
  if fs.isEmpty then (w, 0, none)
  else if w.hasEnded then (w, 0, some .closed)
  else
    let room := w.capacity - w.pending
    let w := { w with inbox := w.inbox ++ fs.take room }
    if fs.length ≤ room then (w, fs.length, none) else (w, room, some (.queueFull w.pending))

end Writer

end Depot
