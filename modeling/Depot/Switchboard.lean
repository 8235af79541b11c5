/-
  Depot — a node at work on links in memory.

  The switchboard plays the far ends of a node's links and the tasks between
  them and the node.  Whatever happens is followed by `Switchboard.turn`: the
  writers go on as far as they can, the events that readers and writers raised
  are handled one at a time, and the far ends read what reached them.
-/
import Depot.Link.Socket
import Depot.Node.Event

namespace Depot

/-- A node with the near ends of its links. -/
structure Switchboard where
  node : Node Sockets
  /-- The largest frame accepted from clients. -/
  frameLimit : UInt32
  /-- The number of frames that may wait on a link. -/
  queueCapacity : Nat
  /-- Events that are not handled yet, first one first. -/
  events : List NodeEvent := []

/-- What a turn shows. -/
structure Turn where
  /-- The events handled, by link; those of one link in the order in which they
      were handled. -/
  events : List NodeEvent
  /-- What each far end received. -/
  sent : List (LinkId × Bytes)
  /-- The links whose far ends saw the end of the stream. -/
  ended : List LinkId
  deriving DecidableEq, Repr

namespace Switchboard

def ofConfig (c : Config) : Switchboard where
  node := Node.ofConfig c {}
  frameLimit := c.frameLimit
  queueCapacity := c.queueCapacity

/-- Change the near ends. -/
def onSockets (s : Switchboard) (f : Sockets → Sockets) : Switchboard :=
  { s with node := { s.node with wires := f s.node.wires } }

/-- The near end of a link. -/
def socket? (s : Switchboard) (id : LinkId) : Option Socket := s.node.wires.table.get? id

def raise (s : Switchboard) (e : NodeEvent) : Switchboard := { s with events := s.events ++ [e] }

/-! ## What happens -/

/-- A connection comes up.  `pipe` is the room towards its far end, which reads
    what it is sent as it comes if `drains`. -/
def connect (s : Switchboard) (kind : LinkKind) (pipe : Option Nat) (drains : Bool) :
    Switchboard × LinkId :=
  let socket : Socket := {
    writer := Writer.ofCapacity s.queueCapacity
    sink := { room := pipe }
    pipe
    reader := Reader.ofHop kind.hop (kind.hop.frameLimit s.frameLimit)
    farDrains := drains }
  let s := s.onSockets fun ps => { ps with table := ps.table.insert s.node.nextLink socket }
  let (node, id) := s.node.attach kind
  ({ s with node }, id)

/-- The far end of a link writes.  Returns whether the near end still reads;
    `none` if the far end had closed its side. -/
def receive (s : Switchboard) (id : LinkId) (data : Bytes) : Switchboard × Option Bool :=
  match s.socket? id with
  | none => (s, none)
  | some p =>
    if ¬ p.farWrites then (s, none)
    else if data.isEmpty then (s, some true)
    else if ¬ p.isReading then (s, some false)
    else
      let (p, messages, error) := p.readAll (readsOf data)
      let s := s.onSockets fun ps => ps.modify id fun _ => p
      let closed := error.map fun e => NodeEvent.closed id (some (.wire e))
      let events := s.events ++ messages.map (NodeEvent.message id) ++ closed.toList
      ({ s with events }, some true)

/-- The far end of a link stops writing. -/
def farEnd (s : Switchboard) (id : LinkId) : Switchboard :=
  match s.socket? id with
  | none => s
  | some p =>
    let s := s.onSockets fun ps =>
      ps.modify id fun p => { p with farWrites := false, isReading := false }
    if p.farWrites && p.isReading then s.raise (.closed id none) else s

/-- The far end of a link stops reading. -/
def farBreak (s : Switchboard) (id : LinkId) : Switchboard :=
  s.onSockets fun ps => (ps.modify id Socket.cut).wake id

/-- The far end of a link reads all that there is for it. -/
def farDrain (s : Switchboard) (id : LinkId) : Switchboard :=
  s.onSockets fun ps => ps.modify id fun p => { p with farLooks := true }

/-- Messages come in on a link, back to back. -/
def hand (s : Switchboard) (id : LinkId) (ms : List Message) : Switchboard :=
  { s with node := ms.foldl (fun n m => n.receive id m) s.node }

def close (s : Switchboard) (id : LinkId) : Switchboard := { s with node := s.node.close id }

def elapse (s : Switchboard) (milliseconds : Nat) : Switchboard :=
  { s with node := s.node.elapse milliseconds }

/-- The node looks for requests that took too long. -/
def expire (s : Switchboard) : Switchboard := { s with node := s.node.expire s.node.clock }

/-! ## Turns -/

/-- Let the writers go on; one that fails raises an event. -/
def settle (s : Switchboard) : Switchboard :=
  let (wires, failed) := s.node.wires.settle
  { s with
    node := { s.node with wires }
    events := s.events ++ failed.map fun (id, kind) => .closed id (some (.io kind)) }

/-- Handle up to `most` events, the writers going on after each.  Returns those
    handled. -/
def handleAll : (most : Nat) → Switchboard → Switchboard × List NodeEvent
  | 0, s => (s, [])
  | most + 1, s =>
    match s.events with
    | [] => (s, [])
    | e :: events =>
      let s := { s with events, node := s.node.handle e }.settle
      let (s, handled) := handleAll most s
      (s, e :: handled)

/-- Let the far ends read.  Returns what each read, and whether it saw the end of
    the stream. -/
def drain (s : Switchboard) : Switchboard × List (LinkId × Bytes × Bool) :=
  let drained := s.node.wires.table.map fun _ p => p.drain
  (s.onSockets fun ps => { ps with table := drained.map fun _ r => r.1 },
    drained.entries.map fun (id, _, bytes, ends) => (id, bytes, ends))

/-- Let everything run until it waits.  A writer fails at most once, so the events
    to handle are those raised so far and at most one for each link. -/
def turn (s : Switchboard) : Switchboard × Turn :=
  let s := s.settle
  let (s, events) := handleAll (s.events.length + s.node.wires.table.size) s
  let (s, drained) := s.drain
  let sent := drained.filterMap fun (id, bytes, _) =>
    if bytes.isEmpty then none else some (id, bytes)
  let ended := drained.filterMap fun (id, _, ends) => if ends then some id else none
  (s, { events := events.mergeSort fun e f => e.link ≤ f.link, sent, ended })

end Switchboard

end Depot
