/-
  Depot — JSON text as tokens.

  The lexer is a machine over single characters: `Lexer.push` reads one and
  `Lexer.finish` closes the token that the text ends in.  A string is kept as its
  pieces, since what `\u` names is half of a character at times: a string that
  nobody reads may hold such a half alone, and `textOf?` refuses it.
-/
import Depot.Text.Numeral

namespace Depot.Json

/-! ## Strings -/

/-- A piece of a string: a character, or a code unit of sixteen bits written
    `\u`. -/
inductive Piece where
  | char (c : Char)
  | unit (code : Nat)
  deriving DecidableEq, Repr

/-- Whether a code unit is the first half of a character. -/
def isHighHalf (code : Nat) : Bool := 0xD800 ≤ code && code ≤ 0xDBFF

/-- Whether a code unit is the second half of a character. -/
def isLowHalf (code : Nat) : Bool := 0xDC00 ≤ code && code ≤ 0xDFFF

/-- The text of a string, in which no half of a character stands alone. -/
def textOf? : List Piece → Option (List Char)
  | [] => some []
  | .char c :: pieces => (textOf? pieces).map (c :: ·)
  | .unit code :: pieces =>
    if isLowHalf code then none
    else if isHighHalf code then
      match pieces with
      | .unit low :: pieces =>
        if isLowHalf low then
          (textOf? pieces).map
            (Char.ofNat (0x10000 + (code - 0xD800) * 0x400 + (low - 0xDC00)) :: ·)
        else none
      | _ => none
    else (textOf? pieces).map (Char.ofNat code :: ·)

/-- The character after a backslash; `u` is not among them. -/
def escape? : Char → Option Char
  | '"' => some '"'
  | '\\' => some '\\'
  | '/' => some '/'
  | 'b' => some '\x08'
  | 'f' => some '\x0c'
  | 'n' => some '\n'
  | 'r' => some '\r'
  | 't' => some '\t'
  | _ => none

/-! ## Numbers -/

/-- Whether `c` is a decimal digit. -/
def isDigit (c : Char) : Bool := (Text.digit? c).isSome

def isExponent : List Char → Bool
  | [] => true
  | e :: cs =>
    let digits := match cs with
      | '+' :: cs | '-' :: cs => cs
      | cs => cs
    (e = 'e' || e = 'E') && !digits.isEmpty && digits.all isDigit

/-- Whether the text is a number: digits without a leading zero, perhaps behind
    a minus sign, and perhaps a fraction and an exponent behind them. -/
def isNumber (cs : List Char) : Bool :=
  let cs := match cs with
    | '-' :: cs => cs
    | cs => cs
  let whole := cs.takeWhile isDigit
  let rest := cs.dropWhile isDigit
  let wholeOk := whole = ['0'] || (!whole.isEmpty && whole.head? ≠ some '0')
  let restOk := match rest with
    | '.' :: cs => !(cs.takeWhile isDigit).isEmpty && isExponent (cs.dropWhile isDigit)
    | cs => isExponent cs
  wholeOk && restOk

/-! ## Tokens -/

/-- A token of JSON text. -/
inductive Token where
  | openBrace
  | closeBrace
  | openBracket
  | closeBracket
  | colon
  | comma
  | null
  | bool (value : Bool)
  | number (digits : List Char)
  | string (pieces : List Piece)
  deriving DecidableEq, Repr

def Token.ofMark? : Char → Option Token
  | '\x7b' => some openBrace
  | '\x7d' => some closeBrace
  | '[' => some openBracket
  | ']' => some closeBracket
  | ':' => some colon
  | ',' => some comma
  | _ => none

def Token.ofWord? (cs : List Char) : Option Token :=
  if cs = ['n', 'u', 'l', 'l'] then some null
  else if cs = ['t', 'r', 'u', 'e'] then some (bool true)
  else if cs = ['f', 'a', 'l', 's', 'e'] then some (bool false)
  else none

/-- Where the lexer stands; what is read of a token is kept last one first. -/
inductive Reading where
  /-- Between tokens. -/
  | gap
  | word (read : List Char)
  | number (read : List Char)
  | string (read : List Piece)
  /-- After a backslash. -/
  | escape (read : List Piece)
  /-- Within `\u`, with `more` digits to come. -/
  | unit (more code : Nat) (read : List Piece)
  deriving DecidableEq, Repr

/-- The lexer between two characters, with the tokens read, last one first. -/
structure Lexer where
  reading : Reading := .gap
  tokens : List Token := []
  deriving DecidableEq, Repr

namespace Lexer

/-- A word is of small letters. -/
def isWordChar (c : Char) : Bool := 'a' ≤ c && c ≤ 'z'

def isNumberChar (c : Char) : Bool :=
  isDigit c || c = '-' || c = '+' || c = '.' || c = 'e' || c = 'E'

def begin? (tokens : List Token) (c : Char) : Option Lexer :=
  if c = ' ' || c = '\t' || c = '\n' || c = '\r' then some ⟨.gap, tokens⟩
  else if c = '"' then some ⟨.string [], tokens⟩
  else if isDigit c || c = '-' then some ⟨.number [c], tokens⟩
  else if isWordChar c then some ⟨.word [c], tokens⟩
  else (Token.ofMark? c).map fun t => ⟨.gap, t :: tokens⟩

/-- End the token that is being read; a string does not end so. -/
def close? (l : Lexer) : Option (List Token) :=
  match l.reading with
  | .gap => some l.tokens
  | .word read => (Token.ofWord? read.reverse).map (· :: l.tokens)
  | .number read =>
    let digits := read.reverse
    if isNumber digits then some (.number digits :: l.tokens) else none
  | _ => none

/-- Read a character; `none` if no text goes on so. -/
def push? (l : Lexer) (c : Char) : Option Lexer :=
  match l.reading with
  | .gap => begin? l.tokens c
  | .word read =>
    if isWordChar c then some { l with reading := .word (c :: read) }
    else l.close?.bind (begin? · c)
  | .number read =>
    if isNumberChar c then some { l with reading := .number (c :: read) }
    else l.close?.bind (begin? · c)
  | .string read =>
    if c = '"' then some ⟨.gap, .string read.reverse :: l.tokens⟩
    else if c = '\\' then some { l with reading := .escape read }
    else if c.toNat < 0x20 then none
    else some { l with reading := .string (.char c :: read) }
  | .escape read =>
    if c = 'u' then some { l with reading := .unit 4 0 read }
    else (escape? c).map fun e => { l with reading := .string (.char e :: read) }
  | .unit more code read =>
    (Text.hexDigit? c).map fun d =>
      let code := code * 16 + d
      if more ≤ 1 then { l with reading := .string (.unit code :: read) }
      else { l with reading := .unit (more - 1) code read }

end Lexer

def tokens? (cs : List Char) : Option (List Token) :=
  ((cs.foldlM Lexer.push? {}).bind Lexer.close?).map List.reverse

end Depot.Json
