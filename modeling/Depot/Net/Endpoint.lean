/-
  Depot — addresses with a port.

  An endpoint is an address of a host with a port.  `resolve` says which one a
  text names where no service of names can be asked: the address in brackets or
  without, in any form that stands for it, or the name of the host itself.
-/
import Depot.Fault
import Depot.Net.Ip

namespace Depot

/-- An address of a host with a port. -/
structure Endpoint where
  ip : Ip
  port : Nat
  /-- The number of the interface that is meant; 0 is any. -/
  zone : Nat := 0
  deriving DecidableEq, Repr

/-- The endpoint as it is written. -/
def Endpoint.text (e : Endpoint) : String := e.ip.withPort e.port

/-! ## Interfaces -/

/-- Whether the address holds on one interface only: of a single host
    (`fe80::/10`), or of a group on the node or on the link. -/
def Ip.needsZone : Ip → Bool
  | v6 (g :: _) => isLinkLocal g || g / 256 = 0xff && (g % 16 = 1 || g % 16 = 2)
  | _ => false
where
  /-- Whether the first group is that of a single host on the link. -/
  isLinkLocal (g : Nat) : Bool := g / 64 = 0xfe80 / 64

def zoneNumber? (cs : List Char) : Option Nat := Text.whole? 10 UInt32.size cs

/-- The name of interface 1, which every host has. -/
def loopback : String := "lo"

/-- The number of the interface that an address is followed by. -/
def Ip.zone? (ip : Ip) (cs : List Char) : Option Nat :=
  if ip.needsZone && cs = loopback.toList then some 1 else zoneNumber? cs

/-- An address of eight groups, and the interface after it if there is one. -/
def zoned? (zone? : Ip → List Char → Option Nat) (cs : List Char) : Option (Ip × Nat) :=
  match Text.cut? '%' cs with
  | none => (Ip.v6Text? cs).map fun ip => (ip, 0)
  | some (ip, zone) => do
    let ip ← Ip.v6Text? ip
    some (ip, ← zone? ip zone)

/-! ## Names -/

/-- The endpoint that `[ADDRESS]:PORT` is. -/
def Endpoint.ofBrackets? : List Char → Option Endpoint
  | '[' :: cs => do
    let (host, rest) ← Text.cut? ']' cs
    let (ip, zone) ← zoned? (fun _ => zoneNumber?) host
    match rest with
    | ':' :: port => some ⟨ip, ← Text.whole? 10 UInt16.size port, zone⟩
    | _ => none
  | _ => none

/-- The name of the host itself, in any case. -/
def ownName : String := "localhost"

/-- The address that a name stands for, with its interface. -/
def hostOf? (name : List Char) : Option (Ip × Nat) :=
  match Ip.ofNumbers? name with
  | some ip => some (ip, 0)
  | none =>
    match zoned? Ip.zone? name with
    | some found => some found
    | none =>
      if name.map Char.toLower = ownName.toList then some (.v4 127 0 0 1, 0) else none

/-- The endpoint that a host and a port name. -/
def resolve (address : String) : Except IoKind Endpoint :=
  let cs := address.toList
  match Endpoint.ofBrackets? cs with
  | some e => .ok e
  | none =>
    match Text.cutLast? ':' cs with
    | none => .error .invalidInput
    | some (name, port) =>
      match Text.natural? UInt16.size port with
      | none => .error .invalidInput
      | some port =>
        if name.contains '\x00' then .error .invalidInput
        else match hostOf? name with
          | none => .error .unresolved
          | some (ip, zone) => .ok ⟨ip, port, zone⟩

end Depot
