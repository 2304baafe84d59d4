import HoldToRecord.Json.Value
import HoldToRecord.Text.Utf8

/-!
# Writing JSON

`Value.write` is the compact text of a value: no blanks, members in their order. In strings only
the quote, the backslash and the controls below U+0020 are escaped, the controls by a letter where
there is one.
-/

namespace HoldToRecord.Json

/-- The character of a hexadecimal digit, in lower case. -/
def hexDigit (d : Nat) : Char := if d < 10 then Char.ofNat (48 + d) else Char.ofNat (87 + d)

/-- The form of one character in a string. -/
def escape (c : Char) : List Char :=
  if c == '"' then ['\\', '"']
  else if c == '\\' then ['\\', '\\']
  else if c.toNat < 0x20 then
    if c == '\n' then ['\\', 'n']
    else if c == '\r' then ['\\', 'r']
    else if c == '\t' then ['\\', 't']
    else if c == '\x08' then ['\\', 'b']
    else if c == '\x0c' then ['\\', 'f']
    else ['\\', 'u', '0', '0', hexDigit (c.toNat / 16), hexDigit (c.toNat % 16)]
  else [c]

/-- A string between quotes. -/
def writeText (s : String) : List Char := '"' :: s.toList.flatMap escape ++ ['"']

mutual

/-- The compact text of a value. -/
def Value.write : Value → List Char
  | .null => ['n', 'u', 'l', 'l']
  | .boolean true => ['t', 'r', 'u', 'e']
  | .boolean false => ['f', 'a', 'l', 's', 'e']
  | .number n => n.write
  | .text s => writeText s
  | .list items => '[' :: writeItems items ++ [']']
  | .object members => '\x7b' :: writeMembers members ++ ['\x7d']

/-- Items with commas between. -/
def writeItems : List Value → List Char
  | [] => []
  | [v] => v.write
  | v :: w :: vs => v.write ++ ',' :: writeItems (w :: vs)

/-- Members with commas between. -/
def writeMembers : List (String × Value) → List Char
  | [] => []
  | [(k, v)] => writeText k ++ ':' :: v.write
  | (k, v) :: m :: ms => writeText k ++ ':' :: v.write ++ ',' :: writeMembers (m :: ms)

end

/-- The compact text of a value as a string. -/
def Value.toText (v : Value) : String := String.ofList v.write

/-- The compact text of a value as bytes. -/
def Value.toBytes (v : Value) : Bytes := Text.Utf8.encode v.write

end HoldToRecord.Json
