/-
  Depot — text quoted for messages.

  `quoted` puts text between double quotes so that it can be read off a
  terminal: the quote, the backslash and the common controls take a backslash,
  and any other character without a glyph of its own is written `\u{…}` with its
  code point in hexadecimal.  The single quote stays as it is.
-/
import Depot.Text.Glyph
import Depot.Text.Numeral

namespace Depot.Text

def quotedChar (c : Char) : List Char :=
  match c with
  | '"' => ['\\', '"']
  | '\\' => ['\\', '\\']
  | '\t' => ['\\', 't']
  | '\n' => ['\\', 'n']
  | '\r' => ['\\', 'r']
  | '\x00' => ['\\', '0']
  | c => if Glyph.isVisible c then [c] else ['\\', 'u', '\x7b'] ++ hex c.toNat ++ ['\x7d']

def quoted (cs : List Char) : String :=
  String.ofList ('"' :: cs.flatMap quotedChar ++ ['"'])

end Depot.Text
