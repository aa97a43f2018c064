import StreamMux.Text.Unprintable

/-!
# Quoted text

`quote` puts a text between double quotes so that every character of it can be seen: quotes and
backslashes have a backslash in front, a few controls have a letter of their own, and what has no
picture is written by its code point.
-/

namespace StreamMux.Text

/-- One character of a quoted text. -/
def quoteChar (c : Char) : List Char :=
  if c == '\x00' then ['\\', '0']
  else if c == '\t' then ['\\', 't']
  else if c == '\r' then ['\\', 'r']
  else if c == '\n' then ['\\', 'n']
  else if c == '\\' || c == '"' then ['\\', c]
  else if isUnprintable c then
    ['\\', 'u', '\x7b'] ++ Nat.toDigits 16 c.toNat ++ ['\x7d']
  else [c]

/-- A text between quotes. -/
def quote (text : String) : String :=
  "\"" ++ String.ofList (text.toList.flatMap quoteChar) ++ "\""

end StreamMux.Text
