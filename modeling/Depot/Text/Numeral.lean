/-
  Depot — numbers in text.

  * `natural? bound s` reads an unsigned decimal numeral below `bound`: an
    optional `+`, then digits, leading zeros allowed;
  * `whole? base bound s` reads digits of a base and nothing else;
  * `hex2` and `hex` write a number in hexadecimal.
-/

namespace Depot.Text

def digit? (c : Char) : Option Nat :=
  if '0' ≤ c ∧ c ≤ '9' then some (c.toNat - '0'.toNat) else none

/-- The value of an ASCII hexadecimal digit of either case. -/
def hexDigit? (c : Char) : Option Nat :=
  if '0' ≤ c ∧ c ≤ '9' then some (c.toNat - '0'.toNat)
  else if 'a' ≤ c ∧ c ≤ 'f' then some (c.toNat - 'a'.toNat + 10)
  else if 'A' ≤ c ∧ c ≤ 'F' then some (c.toNat - 'A'.toNat + 10)
  else none

/-- The number below `bound` that a row of digits in a base up to 16 adds to,
    after `acc`. -/
def digitsBelow? (base bound acc : Nat) : List Char → Option Nat
  | [] => some acc
  | c :: cs =>
    match (hexDigit? c).filter (· < base) with
    | none => none
    | some d =>
      let n := acc * base + d
      if n < bound then digitsBelow? base bound n cs else none

/-- A numeral below `bound` of one digit or more in a base up to 16. -/
def whole? (base bound : Nat) (cs : List Char) : Option Nat :=
  if cs.isEmpty then none else digitsBelow? base bound 0 cs

/-- An unsigned numeral below `bound`: an optional `+` and at least one digit. -/
def natural? (bound : Nat) (cs : List Char) : Option Nat :=
  match cs with
  | '+' :: rest => whole? 10 bound rest
  | cs => whole? 10 bound cs

/-- A signed numeral with value in `[0, bound)`: an optional `+` or `-`, so that
    zero is the one number that a minus sign may stand before. -/
def signed? (bound : Nat) (cs : List Char) : Option Nat :=
  match cs with
  | '-' :: rest => whole? 10 1 rest
  | cs => natural? bound cs

/-- An unsigned numeral of 32 bits. -/
def word32? (cs : List Char) : Option UInt32 := (natural? UInt32.size cs).map UInt32.ofNat

/-- The lower-case hexadecimal digits of `n`. -/
def hex (n : Nat) : List Char := Nat.toDigits 16 n

def hex2 (b : UInt8) : String :=
  String.ofList [Nat.digitChar (b.toNat / 16), Nat.digitChar (b.toNat % 16)]

end Depot.Text
