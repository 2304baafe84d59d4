import HoldToRecord.Json.Value
import HoldToRecord.Text.Quoted
import HoldToRecord.Text.Utf8

/-!
# Faults of JSON texts

A text can be no JSON (`Malformed`), or be JSON that does not fit what is read from it
(`Mismatch`). A reader knows the place of a fault as the number of bytes it has not read yet;
`Fault.locate` turns that into a line and a column of the whole text. Faults in values that were
read before they were looked at have no place.
-/

namespace HoldToRecord.Json

/-- What makes a text no JSON. -/
inductive Malformed
  | endInList
  | endInObject
  | endInString
  | endInValue
  | noColon
  | noListComma
  | noObjectComma
  | noWord
  | noValue
  | badEscape
  | badNumber
  | numberTooLarge
  | badCharacter
  | rawControl
  | keyNotText
  | loneSurrogate
  | trailingComma
  | trailingCharacters
  | cutEscape
  | tooDeep
  deriving DecidableEq, Repr

/-- The wording of each of them. -/
def Malformed.message : Malformed → String
  | .endInList => "EOF while parsing a list"
  | .endInObject => "EOF while parsing an object"
  | .endInString => "EOF while parsing a string"
  | .endInValue => "EOF while parsing a value"
  | .noColon => "expected `:`"
  | .noListComma => "expected `,` or `]`"
  | .noObjectComma => "expected `,` or `\x7d`"
  | .noWord => "expected ident"
  | .noValue => "expected value"
  | .badEscape => "invalid escape"
  | .badNumber => "invalid number"
  | .numberTooLarge => "number out of range"
  | .badCharacter => "invalid unicode code point"
  | .rawControl => "control character (\\u0000-\\u001F) found while parsing a string"
  | .keyNotText => "key must be a string"
  | .loneSurrogate => "lone leading surrogate in hex escape"
  | .trailingComma => "trailing comma"
  | .trailingCharacters => "trailing characters"
  | .cutEscape => "unexpected end of hex escape"
  | .tooDeep => "recursion limit exceeded"

/-- What was found where something else was wanted. -/
inductive Found
  | null
  | boolean (b : Bool)
  | number (n : Number)
  | text (s : String)
  | list
  | object
  deriving DecidableEq, Repr

/-- The wording of what was found. -/
def Found.describe : Found → String
  | .null => "null"
  | .boolean b => "boolean `" ++ (if b then "true" else "false") ++ "`"
  | .number (.integer i) => "integer `" ++ String.ofList (Decimal.signed i) ++ "`"
  | .number (.float bits) =>
    "floating point `" ++ String.ofList (Number.write (.float bits)) ++ "`"
  | .text s => "string " ++ Text.Quoted.quote s
  | .list => "sequence"
  | .object => "map"

/-- What a value is, seen from outside. -/
def Value.found : Value → Found
  | .null => .null
  | .boolean b => .boolean b
  | .number n => .number n
  | .text s => .text s
  | .list _ => .list
  | .object _ => .object

/-- What does not fit in a well-formed text. -/
inductive Mismatch
  | wrongType (found : Found) (wanted : String)
  | wrongValue (found : Found) (wanted : String)
  | wrongLength (length : Nat) (wanted : String)
  | unknownVariant (name : String) (known : List String)
  | missingField (name : String)
  | duplicateField (name : String)
  | refused (why : String)
  deriving DecidableEq, Repr

/-- A choice of names, each between backquotes. -/
def choice (names : List String) : String :=
  let quoted := names.map fun n => "`" ++ n ++ "`"
  match quoted with
  | [a] => a
  | [a, b] => a ++ " or " ++ b
  | _ => "one of " ++ String.intercalate ", " quoted

/-- The wording of a mismatch. -/
def Mismatch.message : Mismatch → String
  | .wrongType found wanted => "invalid type: " ++ found.describe ++ ", expected " ++ wanted
  | .wrongValue found wanted => "invalid value: " ++ found.describe ++ ", expected " ++ wanted
  | .wrongLength length wanted =>
    "invalid length " ++ String.ofList (Decimal.digits length) ++ ", expected " ++ wanted
  | .unknownVariant name known =>
    "unknown variant `" ++ name ++ "`, expected " ++ choice known
  | .missingField name => "missing field `" ++ name ++ "`"
  | .duplicateField name => "duplicate field `" ++ name ++ "`"
  | .refused why => why

/-- A fault of either sort. -/
inductive Cause
  | malformed (m : Malformed)
  | mismatch (m : Mismatch)
  deriving DecidableEq, Repr

/-- The wording of a fault without its place. -/
def Cause.message : Cause → String
  | .malformed m => m.message
  | .mismatch m => m.message

/-- The sorts of faults that a caller tells apart. -/
inductive Category
  /-- The text ends too early. -/
  | ending
  /-- The text is no JSON. -/
  | grammar
  /-- The text is JSON of another shape than the one read. -/
  | data
  deriving DecidableEq, Repr

/-- The sort of a fault. -/
def Cause.category : Cause → Category
  | .malformed .endInList => .ending
  | .malformed .endInObject => .ending
  | .malformed .endInString => .ending
  | .malformed .endInValue => .ending
  | .malformed _ => .grammar
  | .mismatch _ => .data

/-- A fault as a reader meets it, with the number of bytes left at its place. -/
structure Fault where
  cause : Cause
  left : Option Nat
  deriving DecidableEq, Repr

/-- A malformed text, noticed just before the unread bytes. -/
def Fault.here (m : Malformed) (rest : Bytes) : Fault := ⟨.malformed m, some rest.length⟩

/-- A malformed text, noticed at the first of the unread bytes, which the place takes in. -/
def Fault.onNext (m : Malformed) (rest : Bytes) : Fault := ⟨.malformed m, some (rest.length - 1)⟩

/-- A mismatch at the place just before the unread bytes. -/
def Fault.mismatch (m : Mismatch) (rest : Bytes) : Fault := ⟨.mismatch m, some rest.length⟩

/-- A mismatch in a value that was read before, which has no place. -/
def Fault.unplaced (m : Mismatch) : Fault := ⟨.mismatch m, none⟩

/-- A place in a text: lines are counted from one, columns are the bytes since the last line
feed. -/
structure Place where
  line : Nat
  column : Nat
  deriving DecidableEq, Repr

/-- The place after some bytes. -/
def Place.after (bytes : Bytes) : Place :=
  bytes.foldl (fun p b => if b = 10 then ⟨p.line + 1, 0⟩ else ⟨p.line, p.column + 1⟩) ⟨1, 0⟩

/-- A fault with its place in the whole text. -/
structure Error where
  cause : Cause
  place : Option Place
  deriving DecidableEq, Repr

/-- A fault of a reader of `text`, with its place. -/
def Fault.locate (text : Bytes) (f : Fault) : Error :=
  ⟨f.cause, f.left.map fun n => Place.after (text.take (text.length - n))⟩

/-- The wording of a fault with its place. -/
def Error.message (e : Error) : String :=
  match e.place with
  | none => e.cause.message
  | some p =>
    e.cause.message ++ " at line " ++ String.ofList (Decimal.digits p.line) ++ " column " ++
      String.ofList (Decimal.digits p.column)

end HoldToRecord.Json
