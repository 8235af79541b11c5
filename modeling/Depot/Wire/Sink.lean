/-
  Depot — an outlet in memory.

  A sink takes bytes while it has room, at most so many in a call, and records
  what it is told.
-/
import Depot.Wire.Outlet

namespace Depot

/-- How a sink answers. -/
inductive SinkMode where
  /-- It takes bytes while it has room. -/
  | open
  /-- Nobody reads at its other end. -/
  | broken
  /-- It takes nothing, without asking to wait. -/
  | refusing
  deriving DecidableEq, Repr

/-- An outlet in memory. -/
structure Sink where
  /-- How many bytes it still takes; `none` is any number. -/
  room : Option Nat := none
  /-- How many bytes it takes in a call; `none` is any number. -/
  perCall : Option Nat := none
  mode : SinkMode := .open
  /-- What each call took since the last look, last one first. -/
  calls : List Bytes := []
  /-- The number of flushes since the last look. -/
  flushes : Nat := 0
  isShut : Bool := false
  isReleased : Bool := false
  deriving DecidableEq, Repr

namespace Sink

def portion (s : Sink) (segments : List Bytes) : Bytes :=
  match s.room, s.perCall with
  | none, none => segments.flatten
  | some n, none | none, some n => takeBytes n segments
  | some n, some m => takeBytes (min n m) segments

def write (s : Sink) (segments : List Bytes) : Sink × Written :=
  match s.mode with
  | .broken => (s, .fail .brokenPipe)
  | .refusing => (s, .took 0)
  | .open =>
    if s.room = some 0 then (s, .wait)
    else
      let bytes := s.portion segments
      let n := bytes.length
      ({ s with calls := bytes :: s.calls, room := s.room.map (· - n) }, .took n)

instance : Outlet Sink where
  write := write
  flush s := ({ s with flushes := s.flushes + 1 }, .done)
  shutdown s := ({ s with isShut := true }, .done)
  release s := { s with isReleased := true }

/-- What each call took since the last look, first one first. -/
def taken (s : Sink) : List Bytes := s.calls.reverse

/-- The sink after a look at what it took. -/
def looked (s : Sink) : Sink := { s with calls := [], flushes := 0 }

end Sink

end Depot
