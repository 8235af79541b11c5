/-
  Depot — strings in JSON text.

  `jsonString` writes a string: the quote, the backslash and the controls are
  escaped, all else stands as it is.
-/
import Depot.Text.Numeral

namespace Depot.Json

def escaped (c : Char) : List Char :=
  match c with
  | '"' => ['\\', '"']
  | '\\' => ['\\', '\\']
  | '\x08' => ['\\', 'b']
  | '\x0c' => ['\\', 'f']
  | '\n' => ['\\', 'n']
  | '\r' => ['\\', 'r']
  | '\t' => ['\\', 't']
  | c =>
    if c.toNat < 0x20 then ['\\', 'u', '0', '0'] ++ (Text.hex2 (UInt8.ofNat c.toNat)).toList
    else [c]

def jsonString (s : String) : String :=
  String.ofList ('"' :: s.toList.flatMap escaped ++ ['"'])

end Depot.Json
