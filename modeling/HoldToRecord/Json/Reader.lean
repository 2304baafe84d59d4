import HoldToRecord.Json.Number

/-!
# Reading JSON values

`value` reads one value of any shape from the front of some bytes. Lists and objects may be nested
`depthLimit` deep. The steps between items and between members, `nextItem` and `nextKey`, are
shared with the readers of known shapes.
-/

namespace HoldToRecord.Json

/-- How deep lists and objects may be nested. -/
def depthLimit : Nat := 127

/-! ## Between items and members -/

/-- What comes next in a list or an object: another item or member, which starts at `rest`, or the
closing bracket, after which `rest` follows. -/
inductive Next
  | more (rest : Bytes)
  | close (rest : Bytes)
  deriving DecidableEq, Repr

/-- The step to the next item of a list; `first` before the first one. -/
def nextItem (first : Bool) (s : Bytes) : Except Fault Next :=
  match skipBlank s with
  | [] => .error (.onNext .endInList [])
  | b :: s =>
    if b = byte ']' then .ok (.close s)
    else if first then .ok (.more (b :: s))
    else if b = byte ',' then
      match skipBlank s with
      | [] => .error (.onNext .endInValue [])
      | c :: s =>
        if c = byte ']' then .error (.onNext .trailingComma (c :: s)) else .ok (.more (c :: s))
    else .error (.onNext .noListComma (b :: s))

/-- The step to the next key of an object, whose opening quote is taken as well; `first` before the
first one. -/
def nextKey (first : Bool) (s : Bytes) : Except Fault Next :=
  match skipBlank s with
  | [] => .error (.onNext .endInObject [])
  | b :: s =>
    if b = byte '\x7d' then .ok (.close s)
    else if first then
      if b = byte '"' then .ok (.more s) else .error (.onNext .keyNotText (b :: s))
    else if b = byte ',' then
      match skipBlank s with
      | [] => .error (.onNext .endInValue [])
      | c :: s =>
        if c = byte '"' then .ok (.more s)
        else if c = byte '\x7d' then .error (.onNext .trailingComma (c :: s))
        else .error (.onNext .keyNotText (c :: s))
    else .error (.onNext .noObjectComma (b :: s))

/-- The rest after the colon between a key and its value. -/
def colon (s : Bytes) : Except Fault Bytes :=
  match skipBlank s with
  | [] => .error (.onNext .endInObject [])
  | b :: s => if b = byte ':' then .ok s else .error (.onNext .noColon (b :: s))

/-! ## Values -/

/-- A value other than a list or an object, from its first byte on. -/
def scalar (b : UInt8) (s : Bytes) : Except Fault (Value × Bytes) :=
  if b = byte 'n' then do
    let s ← word ['u', 'l', 'l'] s
    .ok (.null, s)
  else if b = byte 't' then do
    let s ← word ['r', 'u', 'e'] s
    .ok (.boolean true, s)
  else if b = byte 'f' then do
    let s ← word ['a', 'l', 's', 'e'] s
    .ok (.boolean false, s)
  else if b = byte '-' then do
    let (n, s) ← number true s
    .ok (.number n, s)
  else if isDigit b then do
    let (n, s) ← number false (b :: s)
    .ok (.number n, s)
  else if b = byte '"' then do
    let (t, s) ← text s
    .ok (.text t, s)
  else .error (.onNext .noValue (b :: s))

mutual

/-- A value that may hold `depth` further levels; `fuel` bounds the steps. -/
def valueWithin (fuel depth : Nat) (s : Bytes) : Except Fault (Value × Bytes) :=
  match fuel with
  | 0 => .error (.here .endInValue s)
  | fuel + 1 =>
    match skipBlank s with
    | [] => .error (.onNext .endInValue [])
    | b :: s =>
      if b = byte '[' then
        match depth with
        | 0 => .error (.onNext .tooDeep (b :: s))
        | depth + 1 => do
          let (items, s) ← itemsWithin fuel depth true [] s
          .ok (.list items, s)
      else if b = byte '\x7b' then
        match depth with
        | 0 => .error (.onNext .tooDeep (b :: s))
        | depth + 1 => do
          let (members, s) ← membersWithin fuel depth true [] s
          .ok (.object members, s)
      else scalar b s

/-- The items of a list up to and with its closing bracket, after those in `acc`, last first. -/
def itemsWithin (fuel depth : Nat) (first : Bool) (acc : List Value) (s : Bytes) :
    Except Fault (List Value × Bytes) :=
  match fuel with
  | 0 => .error (.here .endInValue s)
  | fuel + 1 =>
    match nextItem first s with
    | .error f => .error f
    | .ok (.close s) => .ok (acc.reverse, s)
    | .ok (.more s) =>
      match valueWithin fuel depth s with
      | .error f => .error f
      | .ok (v, s) => itemsWithin fuel depth false (v :: acc) s

/-- The members of an object up to and with its closing bracket, after those in `acc`, last
first. -/
def membersWithin (fuel depth : Nat) (first : Bool) (acc : List (String × Value)) (s : Bytes) :
    Except Fault (List (String × Value) × Bytes) :=
  match fuel with
  | 0 => .error (.here .endInValue s)
  | fuel + 1 =>
    match nextKey first s with
    | .error f => .error f
    | .ok (.close s) => .ok (acc.reverse, s)
    | .ok (.more s) =>
      match text s with
      | .error f => .error f
      | .ok (k, s) =>
        match colon s with
        | .error f => .error f
        | .ok s =>
          match valueWithin fuel depth s with
          | .error f => .error f
          | .ok (v, s) => membersWithin fuel depth false ((k, v) :: acc) s

end

/-- Fuel that no text of these bytes uses up: a bracket takes a byte, and a step for the value that
it starts and one for what is inside come with it. -/
def fuelFor (s : Bytes) : Nat := 2 * s.length + 2

/-- A value of any shape. -/
def value (s : Bytes) : Except Fault (Value × Bytes) := valueWithin (fuelFor s) depthLimit s

/-! ## Whole texts -/

/-- Only blanks are left. -/
def finished (s : Bytes) : Except Fault Unit :=
  match skipBlank s with
  | [] => .ok ()
  | b :: s => .error (.onNext .trailingCharacters (b :: s))

/-- Reads a whole text with a reader of its front. -/
def whole {α : Type} (read : Bytes → Except Fault (α × Bytes)) (s : Bytes) : Except Error α :=
  match read s with
  | .error f => .error (f.locate s)
  | .ok (a, rest) =>
    match finished rest with
    | .error f => .error (f.locate s)
    | .ok () => .ok a

end HoldToRecord.Json
