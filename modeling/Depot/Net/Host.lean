/-
  Depot — hosts.

  A host lets a node listen at addresses and connect to others; two listeners
  cannot share an `Endpoint`.  `Host.isolated` is a host whose interfaces are all
  down: every address of four bytes counts as its own, none of eight groups does
  but the one that stands for all, and no address can be reached.
-/
import Depot.Net.Endpoint

namespace Depot

/-- A host as a node sees it. -/
structure Host where
  /-- Listen at an address, `taken` being those at which somebody listens.
      Returns where that is. -/
  listen : (taken : List Endpoint) → String → Except IoKind Endpoint
  /-- Connect to an address.  Returns what the other end sends, read by read. -/
  dial : String → Except IoKind (List Bytes)

/-! ## Listeners beside each other -/

/-- The address of four bytes that eight groups stand for, or else the address
    itself. -/
def Ip.unmapped : Ip → Ip
  | v6 [0, 0, 0, 0, 0, 0xffff, ab, cd] => v4 (ab / 256) (ab % 256) (cd / 256) (cd % 256)
  | ip => ip

/-- Whether the address stands for all addresses of its kind. -/
def Ip.isAny : Ip → Bool
  | v4 a b c d => a = 0 && b = 0 && c = 0 && d = 0
  | v6 groups => groups.all (· = 0)

/-- Whether who listens at `a` hears what is sent to `b`: the address of all
    groups stands for those of four bytes too. -/
def Ip.covers (a b : Ip) : Bool :=
  a = b || a.isAny && match a, b with
    | v4 .., v6 _ => false
    | _, _ => true

/-- Whether two cannot be listened at together.  Port 0 stands for any port that
    is free. -/
def Endpoint.clashes (e f : Endpoint) : Bool :=
  let (a, b) := (e.ip.unmapped, f.ip.unmapped)
  e.port ≠ 0 && e.port = f.port && (a.covers b || b.covers a)

/-! ## A host without a network -/

def Ip.isGroup : Ip → Bool
  | v4 a _ _ _ => a / 16 = 14
  | v6 groups => groups.head?.any (· / 256 = 0xff)

/-- Why an address cannot be listened at.  One that holds on one interface only
    needs its number, and the host has none but interface 1. -/
def Endpoint.listenFault? (e : Endpoint) : Option IoKind :=
  match e.ip.unmapped with
  | .v4 .. => none
  | ip =>
    if ip.isAny then none
    else if ip.isGroup then some .invalidInput
    else if ip.needsZone then
      some (if e.zone = 0 then .invalidInput
        else if e.zone = 1 then .addressUnavailable else .noInterface)
    else some .addressUnavailable

/-- Why an address cannot be reached: there is no way to it, or no address of the
    host's own to come from. -/
def Endpoint.dialFault (e : Endpoint) : IoKind :=
  match e.ip.unmapped with
  | .v4 .. => .networkUnreachable
  | ip =>
    if ip.isGroup then .networkUnreachable
    else if ip.needsZone && e.zone = 0 then .invalidInput
    else .addressUnavailable

/-- A host whose interfaces are all down. -/
def Host.isolated : Host where
  listen taken address := do
    let e ← resolve address
    match e.listenFault? with
    | some kind => .error kind
    | none => if taken.any e.clashes then .error .addressTaken else .ok { e with zone := 0 }
  dial address := do
    let e ← resolve address
    .error e.dialFault

end Depot
