/-
  Depot — addresses of hosts.

  An address is four bytes (`Ip.v4`) or eight groups of sixteen bits (`Ip.v6`).
  `Ip.ofText?` reads one: the four numbers in decimal without leading zeros, the
  groups in hexadecimal, of which one run of zeros may be written `::` and the
  last two as four bytes.  `Ip.text` writes the one short form of each address.
  `Ip.ofNumbers?` reads the looser forms of four bytes in numbers.
-/
import Depot.Text.Numeral
import Depot.Text.Split

namespace Depot

/-- The address of a host. -/
inductive Ip where
  | v4 (a b c d : Nat)
  | v6 (groups : List Nat)
  deriving DecidableEq, Repr

namespace Ip

/-! ## Reading -/

/-- A number of up to `most` digits in the front of the text, and the rest of
    the text. -/
def numeral? (base most : Nat) (cs : List Char) : Option (Nat × List Char) :=
  let isDigit c := (Text.hexDigit? c).any (· < base)
  let digits := cs.takeWhile isDigit
  if digits.isEmpty || most < digits.length then none
  else
    some (digits.foldl (fun n c => n * base + (Text.hexDigit? c).getD 0) 0, cs.dropWhile isDigit)

def byte? (cs : List Char) : Option (Nat × List Char) := do
  let (n, rest) ← numeral? 10 3 cs
  if 256 ≤ n || (cs.head? = some '0' && cs.length ≠ rest.length + 1) then none
  else some (n, rest)

/-- The text after the separator, which stands before every part but the first. -/
def afterSeparator? (separator : Char) (index : Nat) (cs : List Char) : Option (List Char) :=
  if index = 0 then some cs
  else match cs with
    | c :: rest => if c = separator then some rest else none
    | [] => none

def v4? (cs : List Char) : Option ((Nat × Nat × Nat × Nat) × List Char) := do
  let (a, cs) ← byte? cs
  let (b, cs) ← byte? (← afterSeparator? '.' 1 cs)
  let (c, cs) ← byte? (← afterSeparator? '.' 2 cs)
  let (d, cs) ← byte? (← afterSeparator? '.' 3 cs)
  some ((a, b, c, d), cs)

/-- Up to `room` groups in the front of the text, of which `index` come before.
    The flag says that the last two were written as four bytes. -/
def groups (index : Nat) : (room : Nat) → List Char → List Nat × Bool × List Char
  | 0, cs => ([], false, cs)
  | room + 1, cs =>
    match if room = 0 then none else (afterSeparator? ':' index cs).bind v4? with
    | some ((a, b, c, d), rest) => ([a * 256 + b, c * 256 + d], true, rest)
    | none =>
      match (afterSeparator? ':' index cs).bind (numeral? 16 4) with
      | none => ([], false, cs)
      | some (group, rest) =>
        let (more, inBytes, rest) := groups (index + 1) room rest
        (group :: more, inBytes, rest)

def v6? (cs : List Char) : Option (List Nat × List Char) :=
  let (front, inBytes, rest) := groups 0 8 cs
  if front.length = 8 then some (front, rest)
  else if inBytes then none
  else match rest with
    | ':' :: ':' :: rest =>
      let (back, _, rest) := groups 0 (7 - front.length) rest
      let zeros := List.replicate (8 - front.length - back.length) 0
      some (front ++ zeros ++ back, rest)
    | _ => none

def v6Text? (cs : List Char) : Option Ip :=
  match v6? cs with
  | some (groups, []) => some (v6 groups)
  | _ => none

def ofText? (cs : List Char) : Option Ip :=
  match v4? cs with
  | some ((a, b, c, d), rest) => if rest.isEmpty then some (v4 a b c d) else none
  | none => v6Text? cs

/-! ## Looser forms -/

/-- A part of an address in numbers: in decimal, after `0` in octal, or after `0x`
    in hexadecimal. -/
def part? : List Char → Option Nat
  | '0' :: 'x' :: cs | '0' :: 'X' :: cs => Text.whole? 16 UInt32.size cs
  | '0' :: c :: cs => Text.whole? 8 UInt32.size (c :: cs)
  | cs => Text.whole? 10 UInt32.size cs

/-- The number that up to four parts stand for: each is a byte, but the last one
    fills the bytes that are left. -/
def joinParts? (room : Nat) : List Nat → Option Nat
  | [] => none
  | [n] => if n < 256 ^ room then some n else none
  | n :: parts =>
    if n < 256 ∧ 1 < room then
      (joinParts? (room - 1) parts).map (n * 256 ^ (room - 1) + ·)
    else none

/-- The address of four bytes that the text stands for in numbers between points:
    one to four of them, `127.1` or `0x7f000001` for instance. -/
def ofNumbers? (cs : List Char) : Option Ip := do
  let n ← joinParts? 4 (← (Text.pieces '.' cs).mapM part?)
  some (v4 (n / 16777216) (n / 65536 % 256) (n / 256 % 256) (n % 256))

/-! ## Writing -/

def groupsText (groups : List Nat) : String :=
  String.intercalate ":" (groups.map fun g => String.ofList (Text.hex g))

def zerosAhead : List Nat → Nat
  | 0 :: groups => zerosAhead groups + 1
  | _ => 0

/-- The position and the length of the longest run of zeros, the first of
    several.  `position` is that of the first group. -/
def longestZeros (position : Nat) : List Nat → Nat × Nat
  | [] => (position, 0)
  | group :: groups =>
    let here := zerosAhead (group :: groups)
    let later := longestZeros (position + 1) groups
    if later.2 ≤ here then (position, here) else later

def bytesText (a b c d : Nat) : String := s!"{a}.{b}.{c}.{d}"

/-- The address in its short form: of several zero groups in a row the longest
    run is left out, and an address that stands for four bytes shows them. -/
def text : Ip → String
  | v4 a b c d => bytesText a b c d
  | v6 [0, 0, 0, 0, 0, 0xffff, ab, cd] =>
    "::ffff:" ++ bytesText (ab / 256) (ab % 256) (cd / 256) (cd % 256)
  | v6 groups =>
    let (start, length) := longestZeros 0 groups
    if length ≤ 1 then groupsText groups
    else groupsText (groups.take start) ++ "::" ++ groupsText (groups.drop (start + length))

def withPort (ip : Ip) (port : Nat) : String :=
  match ip with
  | v4 .. => ip.text ++ s!":{port}"
  | v6 _ => "[" ++ ip.text ++ s!"]:{port}"

end Ip

/-- Where to dial a peer that is given by `value`: an address of a host gets the
    port, what has a colon names its own port, and any other name gets the
    port. -/
def dialedAddress (value : String) (port : Nat) : String :=
  match Ip.ofText? value.toList with
  | some ip => ip.withPort port
  | none => if value.toList.contains ':' then value else value ++ s!":{port}"

end Depot
