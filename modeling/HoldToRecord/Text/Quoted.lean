import HoldToRecord.Text.Hidden

/-!
# Quoted text in messages

A text named in a message stands between double quotes. The quote, the backslash, tab, line feed,
carriage return and NUL have two-character forms; other hidden characters are written by number,
`\u{…}` in lower-case hexadecimal; all else stands for itself.
-/

namespace HoldToRecord.Text.Quoted

/-- The form of one character between the quotes. -/
def escape (c : Char) : List Char :=
  if c == '"' then ['\\', '"']
  else if c == '\\' then ['\\', '\\']
  else if c == '\n' then ['\\', 'n']
  else if c == '\r' then ['\\', 'r']
  else if c == '\t' then ['\\', 't']
  else if c == '\x00' then ['\\', '0']
  else if isHidden c then ['\\', 'u', '\x7b'] ++ Nat.toDigits 16 c.toNat ++ ['\x7d']
  else [c]

/-- A text between double quotes. -/
def quote (s : String) : String :=
  String.ofList ('"' :: s.toList.flatMap escape ++ ['"'])

end HoldToRecord.Text.Quoted
