/-
  Depot — bytes read as text, whatever they are.

  `lossy` reads UTF-8 and puts one U+FFFD for each maximal invalid part: the
  longest run of bytes that some character begins with, or one byte that begins
  none.  The decoder is a machine over single bytes: `Decoder.push` consumes one
  byte and `Decoder.finish` closes a character that the input breaks off.
-/
import Depot.Bytes

namespace Depot.Text

/-- A character of which some bytes have been read: its bits so far, the number
    of bytes still to come (at least one), and the range of the next one. -/
structure Partial where
  bits : Nat
  more : Nat
  least : UInt8
  most : UInt8
  deriving DecidableEq, Repr

/-- What the first byte of a character of several bytes announces.  The range of
    the second byte excludes overlong forms, surrogates and values above
    U+10FFFF. -/
def Partial.ofLead? (b : UInt8) : Option Partial :=
  let n := b.toNat
  if 0xC2 ≤ n ∧ n ≤ 0xDF then some ⟨n - 0xC0, 1, 0x80, 0xBF⟩
  else if n = 0xE0 then some ⟨0, 2, 0xA0, 0xBF⟩
  else if n = 0xED then some ⟨0xD, 2, 0x80, 0x9F⟩
  else if 0xE1 ≤ n ∧ n ≤ 0xEF then some ⟨n - 0xE0, 2, 0x80, 0xBF⟩
  else if n = 0xF0 then some ⟨0, 3, 0x90, 0xBF⟩
  else if 0xF1 ≤ n ∧ n ≤ 0xF3 then some ⟨n - 0xF0, 3, 0x80, 0xBF⟩
  else if n = 0xF4 then some ⟨4, 3, 0x80, 0x8F⟩
  else none

/-- The sign that stands for an invalid part. -/
def replacement : Char := '\ufffd'

/-- The decoder between two bytes: a character under way, and the characters
    written, last one first. -/
structure Decoder where
  partialChar : Option Partial := none
  written : List Char := []
  deriving DecidableEq, Repr

namespace Decoder

/-- Read a byte that begins a character, or is an invalid part by itself. -/
def begin (written : List Char) (b : UInt8) : Decoder :=
  if b < 0x80 then ⟨none, Char.ofNat b.toNat :: written⟩
  else match Partial.ofLead? b with
    | some p => ⟨some p, written⟩
    | none => ⟨none, replacement :: written⟩

/-- Read one byte.  A byte that cannot continue the character under way ends it
    as an invalid part and is then read as a first byte. -/
def push (d : Decoder) (b : UInt8) : Decoder :=
  match d.partialChar with
  | none => begin d.written b
  | some p =>
    if p.least ≤ b ∧ b ≤ p.most then
      let bits := p.bits * 64 + b.toNat % 64
      if p.more ≤ 1 then ⟨none, Char.ofNat bits :: d.written⟩
      else ⟨some ⟨bits, p.more - 1, 0x80, 0xBF⟩, d.written⟩
    else begin (replacement :: d.written) b

/-- The characters read.  A character that the input breaks off is an invalid
    part. -/
def finish (d : Decoder) : List Char :=
  match d.partialChar with
  | none => d.written.reverse
  | some _ => (replacement :: d.written).reverse

end Decoder

/-- The characters that the bytes stand for, U+FFFD for each maximal invalid
    part. -/
def lossyChars (bs : Bytes) : List Char :=
  (bs.foldl Decoder.push ⟨none, []⟩).finish

/-- The text that the bytes stand for, U+FFFD for each maximal invalid part. -/
def lossy (bs : Bytes) : String := String.ofList (lossyChars bs)

/-- The text that the bytes stand for, if all of them are valid: then, and only
    then, writing the text gives the bytes back. -/
def utf8? (bs : Bytes) : Option (List Char) :=
  let cs := lossyChars bs
  if Bytes.ofText (String.ofList cs) = bs then some cs else none

end Depot.Text
