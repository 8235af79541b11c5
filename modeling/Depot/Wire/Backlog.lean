/-
  Depot — bytes that wait to be written.

  A backlog holds segments in order, none of them empty.  A writer is offered
  the first segments and accepts any number of their bytes; `Backlog.dropFront`
  drops what was accepted, and the rest waits for the next call.
  `Backlog.drain` calls a writer that does not block until the backlog is empty
  or the writer refuses.
-/
import Depot.Fault
import Depot.Wire.Frame

namespace Depot

/-! ## Segments -/

/-- The first `n` bytes of the segments. -/
def takeBytes : Nat → List Bytes → Bytes
  | _, [] => []
  | n, segment :: segments =>
    let part := segment.take n
    part ++ takeBytes (n - part.length) segments

/-- The segments without their first `n` bytes; no empty segment is left in
    front. -/
def dropBytes : Nat → List Bytes → List Bytes
  | _, [] => []
  | n, segment :: segments =>
    match segment.drop n with
    | [] => dropBytes (n - segment.length) segments
    | rest => rest :: segments

/-- Bytes that wait to be written, `pending` of them. -/
structure Backlog where
  segments : List Bytes := []
  pending : Nat := 0
  deriving DecidableEq, Repr

/-- The largest number of segments offered to one call. -/
def maxSegments : Nat := 64

namespace Backlog

/-- Add segments, those that are empty apart. -/
def append (b : Backlog) (segments : List Bytes) : Backlog where
  segments := b.segments ++ segments.filter fun segment => !segment.isEmpty
  pending := b.pending + Bytes.total segments

def push (b : Backlog) (f : Frame) : Backlog := b.append f.segments

def pushAll (b : Backlog) (fs : List Frame) : Backlog := b.append (fs.flatMap Frame.segments)

def isEmpty (b : Backlog) : Bool := b.pending = 0

/-- The segments offered to a call that takes up to `most` of them. -/
def front (b : Backlog) (most : Nat) : List Bytes := b.segments.take most

/-- Drop the first `n` bytes. -/
def dropFront (b : Backlog) (n : Nat) : Backlog := ⟨dropBytes n b.segments, b.pending - n⟩

/-- Account for a call that accepted `n` bytes.  To accept none is an error. -/
def took (b : Backlog) (n : Nat) : Except IoKind Backlog :=
  if n = 0 then .error .writeZero else .ok (b.dropFront n)

/-! ## Draining -/

/-- How a writer answers a call. -/
inductive Answer where
  /-- It takes up to so many of the bytes offered. -/
  | accept (most : Nat)
  /-- It takes nothing now. -/
  | wouldBlock
  /-- It was disturbed and may be called again at once. -/
  | interrupted
  | fail (kind : IoKind)
  deriving DecidableEq, Repr

/-- How a drain ended: what is left, what each successful call accepted, and the
    error if there was one. -/
structure Drained where
  left : Backlog
  accepted : List Bytes
  error : Option IoKind
  deriving DecidableEq, Repr

def Drained.written (d : Drained) : Nat := Bytes.total d.accepted

/-- Call a writer that answers as listed, and would block after that, until the
    backlog is empty or the writer refuses. -/
def drain (b : Backlog) : List Answer → Drained
  | [] => ⟨b, [], none⟩
  | answer :: answers =>
    if b.isEmpty then ⟨b, [], none⟩
    else match answer with
      | .wouldBlock => ⟨b, [], none⟩
      | .interrupted => drain b answers
      | .fail kind => ⟨b, [], some kind⟩
      | .accept most =>
        let bytes := takeBytes most (b.front maxSegments)
        match b.took bytes.length with
        | .error kind => ⟨b, [bytes], some kind⟩
        | .ok b =>
          let d := drain b answers
          { d with accepted := bytes :: d.accepted }

end Backlog

end Depot
