/-
  Depot — the items of a pattern.

  How an item is understood depends on the `Switches` in force: whether it is
  about characters or about bytes, whether the case of letters counts, and whether
  blanks and comments do.  `Item.isKnown` and `Item.isMember` say which items can
  be used under them, by three rules: beyond ASCII neither the classes of
  characters nor their other case are known; nor are the ends of words; and no
  pattern of bytes may match a part of a character.
-/
import Depot.Text.Blank
import Depot.Text.Numeral

namespace Depot.Text.Pattern

/-! ## Switches -/

/-- How a part of a pattern is understood. -/
structure Switches where
  /-- Whether it is about characters, or else about bytes. -/
  unicode : Bool := true
  /-- Whether letters stand for those of the other case too. -/
  anyCase : Bool := false
  /-- Whether blanks, and comments from a number sign on, are passed over. -/
  spaced : Bool := false
  deriving DecidableEq, Repr

namespace Switches

/-- Turn the switch of a letter on or off; the others make no difference here. -/
def turn (s : Switches) (on : Bool) : Char → Switches
  | 'u' => { s with unicode := on }
  | 'i' => { s with anyCase := on }
  | 'x' => { s with spaced := on }
  | _ => s

end Switches

/-- What follows blanks and comments; a comment ends with its line. -/
def skipBlanks : (inComment : Bool) → List Char → List Char
  | _, [] => []
  | true, c :: cs => skipBlanks (c ≠ '\n') cs
  | false, c :: cs =>
    if isBlank c then skipBlanks false cs
    else if c = '#' then skipBlanks true cs
    else c :: cs

/-- What follows the blanks and comments that are passed over. -/
def Switches.skip (s : Switches) (cs : List Char) : List Char :=
  if s.spaced then skipBlanks false cs else cs

/-! ## Items -/

/-- An item of a pattern. -/
inductive Item where
  /-- A character; `isCode` says that it is written as the code of a byte. -/
  | char (c : Char) (isCode : Bool)
  /-- A class that a letter stands for, or the characters outside of it. -/
  | set (isNegated : Bool)
  /-- An end of a line or of the text. -/
  | edge
  /-- An end of a word, or the inside of one. -/
  | wordEdge
  deriving DecidableEq, Repr

namespace Item

def isKnown (s : Switches) : Item → Bool
  | char c isCode => if s.unicode then !s.anyCase else !(isCode && 0x80 ≤ c.toNat)
  | set isNegated => !s.unicode && !isNegated
  | edge => true
  | wordEdge => !s.unicode

/-- Whether the item can stand in a class between brackets. -/
def isMember (s : Switches) : Item → Bool
  | char c _ => if s.unicode then !s.anyCase else c.toNat < 0x80
  | set isNegated => !s.unicode && !isNegated
  | _ => false

end Item

/-! ## Escapes -/

/-- Whether a backslash takes away what the character means, if it means
    anything. -/
def isEscapable (c : Char) : Bool := c.toNat < 0x80 && !c.isAlphanum && c ≠ '<' && c ≠ '>'

/-- The number of the next `count` hexadecimal digits, after `acc`. -/
def code? (s : Switches) : (count acc : Nat) → List Char → Option (Nat × List Char)
  | 0, acc, cs => some (acc, cs)
  | _, _, [] => none
  | count + 1, acc, c :: cs =>
    (hexDigit? c).bind fun d => code? s count (acc * 16 + d) (s.skip cs)

/-- The character with the code in the next `count` hexadecimal digits. -/
def coded? (s : Switches) (count : Nat) (cs : List Char) : Option (Item × List Char) := do
  let (n, rest) ← code? s count 0 (s.skip cs)
  if n.isValidChar then some (.char (Char.ofNat n) (count ≤ 2), rest) else none

/-- The items that a letter after a backslash stands for. -/
def letterItems : List (Char × Item) :=
  [('d', .set false), ('s', .set false), ('w', .set false), ('D', .set true), ('S', .set true),
    ('W', .set true), ('A', .edge), ('z', .edge), ('b', .wordEdge), ('B', .wordEdge),
    ('<', .wordEdge), ('>', .wordEdge), ('a', .char '\x07' false), ('f', .char '\x0c' false),
    ('n', .char '\n' false), ('r', .char '\r' false), ('t', .char '\t' false),
    ('v', .char '\x0b' false)]

def escape? (s : Switches) : List Char → Option (Item × List Char)
  | [] => none
  | 'x' :: cs => coded? s 2 cs
  | 'u' :: cs => coded? s 4 cs
  | 'U' :: cs => coded? s 8 cs
  | c :: cs =>
    if isEscapable c then some (.char c false, cs)
    else (letterItems.lookup c).map fun item => (item, cs)

end Depot.Text.Pattern
