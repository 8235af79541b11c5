/-
  Depot — the near ends of links in memory.

  A socket joins the reader and the writer of a link to a pipe in each direction.
  `Sockets` holds those of all links of a node and takes its frames; the writers
  that have something to do are kept in the order in which they got it.
-/
import Depot.Link.Basic
import Depot.Link.Reader
import Depot.Wire.Sink

namespace Depot

/-- The near end of a link. -/
structure Socket where
  writer : Writer
  /-- The pipe to the far end. -/
  sink : Sink
  /-- The room of that pipe when it is empty; `none` is any. -/
  pipe : Option Nat
  reader : Reader
  /-- Whether the near end reads. -/
  isReading : Bool := true
  /-- Whether the far end still writes. -/
  farWrites : Bool := true
  /-- Whether the far end reads what it is sent as it comes. -/
  farDrains : Bool
  /-- Whether the far end will read once, all that there is. -/
  farLooks : Bool := false
  /-- Whether the far end has seen the end of the stream. -/
  endSeen : Bool := false
  deriving DecidableEq, Repr

namespace Socket

def run (p : Socket) : Socket :=
  let (writer, sink) := p.writer.run p.sink
  { p with writer, sink }

/-- The far end stops reading, so that writes fail. -/
def cut (p : Socket) : Socket := { p with sink := { p.sink with mode := .broken } }

/-- Let the far end, if it reads at all, read all that the writer writes; nothing
    gets through a pipe that has no room even when it is empty.  Returns what was
    read, and whether the far end sees the end of the stream now. -/
def drain (p : Socket) : Socket × Bytes × Bool :=
  let reads := p.farDrains || p.farLooks
  let p := { p with farLooks := false }
  if reads ∧ p.sink.mode = .open then
    let room := if p.pipe = some 0 then some 0 else none
    let p := { p with sink := { p.sink with room } }.run
    let ends := p.sink.isReleased && !p.endSeen
    ({ p with sink := { p.sink.looked with room := p.pipe }, endSeen := p.sink.isReleased },
      p.sink.taken.flatten, ends)
  else (p, [], false)

/-- Take reads in turn until the reader ends.  Returns the messages and the
    error. -/
def readAll (p : Socket) : List Bytes → Socket × List Message × Option WireError
  | [] => (p, [], none)
  | data :: reads =>
    match p.reader.read data with
    | (reader, messages, some e) => ({ p with reader, isReading := false }, messages, some e)
    | (reader, messages, none) =>
      let (p, more, error) := { p with reader }.readAll reads
      (p, messages ++ more, error)

end Socket

/-- The near ends of all links. -/
structure Sockets where
  table : Table LinkId Socket := {}
  /-- The links whose writers have something to do, first come first. -/
  woken : List LinkId := []

namespace Sockets

/-- Note that the writer of a link has something to do. -/
def wake (ps : Sockets) (id : LinkId) : Sockets :=
  if ps.woken.contains id then ps else { ps with woken := ps.woken ++ [id] }

def modify (ps : Sockets) (id : LinkId) (f : Socket → Socket) : Sockets :=
  { ps with table := ps.table.modify id f }

def offer (ps : Sockets) (id : LinkId) (f : Frame) : Sockets × Offer :=
  match ps.table.get? id with
  | none => (ps, .gone)
  | some p =>
    let (writer, offer) := p.writer.offer f
    ((ps.modify id fun p => { p with writer }).wake id, offer)

/-- Nothing is read from a link any more, and nothing more offered to it. -/
def hangUp (ps : Sockets) (id : LinkId) : Sockets :=
  (ps.modify id fun p => { p with writer := p.writer.hangUp, isReading := false }).wake id

instance : Outbound Sockets where
  offer := offer
  hangUp := hangUp

/-- Let the woken writers go on, one after the other.  Returns those that end
    with an error. -/
def settle (ps : Sockets) : Sockets × List (LinkId × IoKind) :=
  ps.woken.foldl (fun (ps, failed) id =>
    match ps.table.get? id with
    | none => (ps, failed)
    | some p =>
      let q := p.run
      let error := if p.writer.hasEnded then none else q.writer.error?
      (ps.modify id fun _ => q, failed ++ (error.map fun kind => (id, kind)).toList))
    ({ ps with woken := [] }, [])

end Sockets

end Depot
