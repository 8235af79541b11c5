/-
  Depot — frames out of a stream of bytes.

  Bytes arrive in pieces of any size and are kept in one buffer.
  `Awaiting.inspect` decides what the buffer holds: nothing complete yet, a frame,
  or a length that no frame can have.  The length of a frame is checked once and
  then remembered until the frame is complete; until then the number of buffered
  bytes is all that is looked at.

  * `Deframer.extract` takes one frame out of the buffer;
  * `Deframer.push` adds bytes and takes every complete frame out.  A bad length
    loses the frames that the same push took before it; buffer and state stay.
-/
import Depot.Wire.Buffer
import Depot.Wire.Error

namespace Depot

/-- What the parser waits for. -/
inductive Awaiting where
  /-- The four bytes of a frame length. -/
  | length
  /-- A frame of `needed` bytes, its length field included. -/
  | payload (needed : Nat)
  deriving DecidableEq, Repr

/-- What the buffered bytes hold. -/
inductive Found where
  /-- No complete frame; what to wait for. -/
  | wait (awaiting : Awaiting)
  /-- A complete frame of this many bytes. -/
  | frame (length : Nat)
  deriving DecidableEq, Repr

namespace Awaiting

/-- A frame of `needed` bytes is complete once that many are buffered. -/
def complete (needed : Nat) (buffered : Buffer) : Found :=
  if needed ≤ buffered.size then .frame needed else .wait (payload needed)

/-- What the buffered bytes hold if frames of up to `limit` bytes are accepted. -/
def inspect (limit : UInt32) (buffered : Buffer) : Awaiting → Except WireError Found
  | payload needed => .ok (complete needed buffered)
  | length =>
    match Bytes.le32? buffered.toBytes with
    | none => .ok (.wait length)
    | some n =>
      if n < 4 then .error (.badFrameLength n)
      else if limit.toNat < n then .error (.frameOverLimit n limit)
      else .ok (complete n buffered)

end Awaiting

/-- A parser with its buffer. -/
structure Deframer where
  limit : UInt32
  awaiting : Awaiting := .length
  buffer : Buffer := .ofBytes []
  deriving DecidableEq, Repr

namespace Deframer

/-- The limit of a parser that is given none: 64 MiB. -/
def defaultLimit : UInt32 := 67108864

def feed (d : Deframer) (data : Bytes) : Deframer := { d with buffer := d.buffer.append data }

/-- Drop all bytes; the next one begins a frame. -/
def clear (d : Deframer) : Deframer := { d with awaiting := .length, buffer := .ofBytes [] }

/-- Take the next frame out of the buffer and return its payload. -/
def extract (d : Deframer) : Deframer × Except WireError (Option Bytes) :=
  match d.awaiting.inspect d.limit d.buffer with
  | .error e => (d, .error e)
  | .ok (.wait awaiting) => ({ d with awaiting }, .ok none)
  | .ok (.frame length) =>
    ({ d with awaiting := .length, buffer := d.buffer.drop length },
      .ok (some ((d.buffer.toBytes.take length).drop 4)))

/-- Take up to `most` frames out of the buffer, `taken` being those already
    taken, last one first. -/
def extractUpTo : (most : Nat) → (taken : List Bytes) → Deframer →
    Deframer × Except WireError (List Bytes)
  | 0, taken, d => (d, .ok taken.reverse)
  | most + 1, taken, d =>
    match d.extract with
    | (d, .ok (some payload)) => extractUpTo most (payload :: taken) d
    | (d, .ok none) => (d, .ok taken.reverse)
    | (d, .error e) => (d, .error e)

/-- Add bytes and take every complete frame out.  A frame is at least four bytes
    long, so there are no more frames than bytes. -/
def push (d : Deframer) (data : Bytes) : Deframer × Except WireError (List Bytes) :=
  let d := d.feed data
  extractUpTo (d.buffer.size + 1) [] d

/-- Add bytes piece by piece up to the first error.  Returns the frames of each
    piece before it. -/
def pushAll : Deframer → List Bytes → Deframer × List (List Bytes) × Option WireError
  | d, [] => (d, [], none)
  | d, piece :: pieces =>
    match d.push piece with
    | (d, .error e) => (d, [], some e)
    | (d, .ok frames) =>
      let (d, more, error) := pushAll d pieces
      (d, frames :: more, error)

end Deframer

end Depot
