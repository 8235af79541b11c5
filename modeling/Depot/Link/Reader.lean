/-
  Depot — readers.

  A reader takes the bytes of a link as they arrive and turns them into the
  messages of the link's hop.  It ends with the stream, or with the first length
  or payload that makes no sense.  A bad length loses the frames of the same
  read; a bad payload does not.
-/
import Depot.Wire.Codec
import Depot.Wire.Deframer
import Depot.Fault

namespace Depot

/-- The largest number of bytes that one read takes. -/
def maxRead : Nat := 65536

/-- The reads that bytes arrive in, the first of up to `maxRead` bytes and so on.
    `fuel` bounds their number. -/
def cutReads : (fuel : Nat) → Bytes → List Bytes
  | 0, _ => []
  | fuel + 1, bytes =>
    if bytes.isEmpty then []
    else bytes.take maxRead :: cutReads fuel (bytes.drop maxRead)

def readsOf (data : Bytes) : List Bytes := cutReads (data.length / maxRead + 1) data

/-- A reader of messages. -/
structure Reader where
  hop : Hop
  deframer : Deframer
  deriving DecidableEq, Repr

namespace Reader

/-- A reader of a hop on a node that takes frames of up to `clientLimit` bytes
    from clients. -/
def ofHop (hop : Hop) (limit : UInt32) : Reader := ⟨hop, { limit }⟩

/-- The messages in payloads, up to the first that makes no sense. -/
def decodeAll (hop : Hop) : List Bytes → List Message × Option WireError
  | [] => ([], none)
  | payload :: payloads =>
    match Message.decode hop payload with
    | .error e => ([], some e)
    | .ok m =>
      let (more, error) := decodeAll hop payloads
      (m :: more, error)

/-- Take one read.  Returns the messages in it and the error that ends the
    reader, if there is one. -/
def read (r : Reader) (data : Bytes) : Reader × List Message × Option WireError :=
  match r.deframer.push data with
  | (deframer, .error e) => ({ r with deframer }, [], some e)
  | (deframer, .ok payloads) => ({ r with deframer }, decodeAll r.hop payloads)

end Reader

/-! ## Over a stream -/

/-- What a stream brings. -/
inductive Arrival where
  | data (bytes : Bytes)
  | fail (kind : IoKind)
  deriving DecidableEq, Repr

/-- What a reader tells. -/
inductive Heard where
  | message (m : Message)
  /-- It has ended, with an error if there was one. -/
  | closed (error : Option Fault)
  deriving DecidableEq, Repr

namespace Reader

/-- Take reads while `listens` says that the messages of a read are wanted.
    Returns what is told, the reads left, and whether the reader has ended. -/
def readAll (listens : Bool) : Reader → List Bytes → Reader × List Heard × List Bytes × Bool
  | r, [] => (r, [], [], false)
  | r, data :: reads =>
    match r.read data with
    | (r, messages, error) =>
      if !listens && !messages.isEmpty then (r, [], reads, true)
      else
        let told := messages.map Heard.message
        match error with
        | some e => (r, told ++ [.closed (some (.wire e))], reads, true)
        | none =>
          let (r, more, left, ended) := readAll listens r reads
          (r, told ++ more, left, ended)

/-- Read a stream to its end.  Returns what is told and the number of arrivals
    that are not, or not wholly, read. -/
def readStream (listens : Bool) : Reader → List Arrival → List Heard × Nat
  | _, [] => ([.closed none], 0)
  | _, .fail kind :: rest => ([.closed (some (.io kind))], rest.length)
  | r, .data bytes :: rest =>
    if bytes.isEmpty then ([.closed none], rest.length)
    else
      match readAll listens r (readsOf bytes) with
      | (_, told, left, true) => (told, rest.length + if left.isEmpty then 0 else 1)
      | (r, told, _, false) =>
        let (more, unread) := readStream listens r rest
        (told ++ more, unread)

/-- What is told of a stream, and the number of arrivals not read.  To nobody
    who listens nothing is told. -/
def listen (r : Reader) (listens : Bool) (arrivals : List Arrival) : List Heard × Nat :=
  let (told, unread) := readStream listens r arrivals
  (if listens then told else [], unread)

end Reader

end Depot
