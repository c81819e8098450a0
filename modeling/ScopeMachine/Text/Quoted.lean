import ScopeMachine.Text.Glyphless
import ScopeMachine.Text.Layout

/-!
# Quoted text

A string between double quotes, on one line and free of invisible characters: the quote, the
backslash, NUL, tab, newline and carriage return have escapes of two characters, and every other
character without a glyph of its own is written by its code point.
-/

namespace ScopeMachine.Text.Quoted

def escape (c : Char) : List Char :=
  match c with
  | '\x00' => ['\\', '0']
  | '\t' => ['\\', 't']
  | '\n' => ['\\', 'n']
  | '\r' => ['\\', 'r']
  | '"' => ['\\', '"']
  | '\\' => ['\\', '\\']
  | c =>
    if Glyphless.contains c then
      ['\\', 'u', '\x7b'] ++ (hex 1 c.toNat).toList ++ ['\x7d']
    else [c]

def encode (s : String) : String :=
  String.ofList ('"' :: s.toList.flatMap escape ++ ['"'])

end ScopeMachine.Text.Quoted
