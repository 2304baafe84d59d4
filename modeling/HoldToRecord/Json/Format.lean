import HoldToRecord.Json.Skip

/-!
# Typed JSON formats

Three sorts of typed texts. A `Kind` is one field's value, a `RecordFormat` an object with named
fields, and a `UnionFormat` an object whose member `type` says which variant its other members
belong to. Records and unions may also be written as lists: the fields in their order, the tag of a
union first. Unknown members of a record are passed over; the members of a union are read as values
first and looked at when the tag is known, so that faults in them have no place.
-/

namespace HoldToRecord.Json

/-! ## Faults of a wrong shape -/

/-- The fault of text that is not what is wanted; a scalar is read first, so that it can be
named. -/
def unwanted (wanted : String) (b : UInt8) (s : Bytes) : Fault :=
  if b = byte '[' then .mismatch (.wrongType .list wanted) (b :: s)
  else if b = byte '\x7b' then .mismatch (.wrongType .object wanted) (b :: s)
  else
    match scalar b s with
    | .error f => f
    | .ok (v, rest) => .mismatch (.wrongType v.found wanted) rest

/-- The end of a list that should have no further item. -/
def endList (s : Bytes) : Except Fault Bytes :=
  match skipBlank s with
  | [] => .error (.onNext .endInList [])
  | b :: s =>
    if b = byte ']' then .ok s
    else if b = byte ',' then
      match skipBlank s with
      | [] => .error (.onNext .trailingCharacters [])
      | c :: s =>
        if c = byte ']' then .error (.onNext .trailingComma (c :: s))
        else .error (.onNext .trailingCharacters (c :: s))
    else .error (.onNext .trailingCharacters (b :: s))

/-- Where a fault noticed within an object is placed: after the bracket if it closes here, else
before the next character. -/
def placeInObject (s : Bytes) : Bytes :=
  match skipBlank s with
  | [] => []
  | b :: s => if b = byte '\x7d' then s else b :: s

/-! ## Fields -/

/-- How a field's value is read from text and from a value, and what it is if it is absent. -/
structure Kind (α : Type) where
  read : Bytes → Except Fault (α × Bytes)
  ofValue : Value → Except Mismatch α
  absent : Option α

/-- A string, checked by `check`; `wanted` names what should be there. -/
def readTextWith {α : Type} (wanted : String) (check : String → Except Mismatch α) (s : Bytes) :
    Except Fault (α × Bytes) :=
  match skipBlank s with
  | [] => .error (.onNext .endInValue [])
  | b :: s =>
    if b = byte '"' then
      match text s with
      | .error f => .error f
      | .ok (t, rest) =>
        match check t with
        | .ok a => .ok (a, rest)
        | .error m => .error (.mismatch m rest)
    else .error (unwanted wanted b s)

/-- A value that should be a string, checked by `check`. -/
def textOfValue {α : Type} (wanted : String) (check : String → Except Mismatch α) :
    Value → Except Mismatch α
  | .text t => check t
  | v => .error (.wrongType v.found wanted)

/-- A string that has to pass a check. -/
def Kind.checked {α : Type} (wanted : String) (check : String → Except Mismatch α) : Kind α :=
  ⟨readTextWith wanted check, textOfValue wanted check, none⟩

/-- Any string. -/
def Kind.string : Kind String := .checked "a string" .ok

/-- `true` or `false`. -/
def Kind.flag : Kind Bool where
  read s :=
    match skipBlank s with
    | [] => .error (.onNext .endInValue [])
    | b :: s =>
      match b = byte 't' || b = byte 'f', scalar b s with
      | true, .error f => .error f
      | true, .ok (.boolean v, rest) => .ok (v, rest)
      | _, _ => .error (unwanted "a boolean" b s)
  ofValue
    | .boolean v => .ok v
    | v => .error (.wrongType v.found "a boolean")
  absent := none

/-- A number that should be an integer from 0 to 2^64-1. -/
def countOf (n : Number) : Except Mismatch UInt64 :=
  match n with
  | .integer (.ofNat i) => .ok (UInt64.ofNat i)
  | .integer i => .error (.wrongValue (.number (.integer i)) "u64")
  | .float bits => .error (.wrongType (.number (.float bits)) "u64")

/-- An integer from 0 to 2^64-1. -/
def Kind.count : Kind UInt64 where
  read s :=
    match skipBlank s with
    | [] => .error (.onNext .endInValue [])
    | b :: s =>
      match b = byte '-' || isDigit b, scalar b s with
      | true, .error f => .error f
      | true, .ok (.number n, rest) =>
        match countOf n with
        | .ok c => .ok (c, rest)
        | .error m => .error (.mismatch m rest)
      | _, _ => .error (unwanted "u64" b s)
  ofValue
    | .number n => countOf n
    | v => .error (.wrongType v.found "u64")
  absent := none

/-- A value that may be `null` or absent. -/
def Kind.optional {α : Type} (k : Kind α) : Kind (Option α) where
  read s :=
    match skipBlank s with
    | [] => (k.read []).map fun p => (some p.1, p.2)
    | b :: s =>
      if b = byte 'n' then (word ['u', 'l', 'l'] s).map fun s => (none, s)
      else (k.read (b :: s)).map fun p => (some p.1, p.2)
  ofValue
    | .null => .ok none
    | v => (k.ofValue v).map some
  absent := some none

/-- One of some names. -/
def oneOf {α : Type} (names : List (String × α)) (name : String) : Except Mismatch α :=
  match names.lookup name with
  | some a => .ok a
  | none => .error (.unknownVariant name (names.map (·.1)))

/-- What a variant without fields holds when it is written as a member: nothing. -/
def unitOfValue : Value → Except Mismatch Unit
  | .null => .ok ()
  | .object [] => .ok ()
  | v => .error (.wrongType v.found "unit")

/-- `null`, read from text. -/
def readUnit (s : Bytes) : Except Fault Bytes :=
  match skipBlank s with
  | [] => .error (.onNext .endInValue [])
  | b :: s =>
    if b = byte 'n' then word ['u', 'l', 'l'] s else .error (unwanted "unit" b s)

/-- Where the key of an object starts that has to have one. -/
def firstKey (s : Bytes) : Except Fault Bytes :=
  match skipBlank s with
  | [] => .error (.onNext .endInObject [])
  | b :: s =>
    if b = byte '"' then .ok (b :: s)
    else if b = byte '\x7d' then .error (.onNext .noValue (b :: s))
    else .error (.onNext .keyNotText (b :: s))

/-- A name with nothing under it, as the only member of an object whose bracket has been read. -/
def readNameMember {α : Type} (names : List (String × α)) (s : Bytes) :
    Except Fault (α × Bytes) := do
  let s ← firstKey s
  let (a, s) ← readTextWith "variant identifier" (oneOf names) s
  let s ← colon s
  let s ← readUnit s
  match skipBlank s with
  | [] => .error (.here .endInObject [])
  | b :: s => if b = byte '\x7d' then .ok (a, s) else .error (.here .noValue (b :: s))

/-- A name out of a choice: a string, or an object whose only key it is and whose value is
`null`. -/
def Kind.name {α : Type} (names : List (String × α)) : Kind α where
  read s :=
    match skipBlank s with
    | [] => .error (.onNext .endInValue [])
    | b :: s =>
      if b = byte '\x7b' then readNameMember names s
      else if b = byte '"' then readTextWith "variant identifier" (oneOf names) (b :: s)
      else .error (.onNext .noValue (b :: s))
  ofValue
    | .text t => oneOf names t
    | .object [(k, v)] => do
      let a ← oneOf names k
      let _ ← unitOfValue v
      .ok a
    | .object _ => .error (.wrongValue .object "map with a single key")
    | v => .error (.wrongType v.found "string or map")
  absent := none

/-! ## Records -/

/-- A field of a record that is filled in step by step: whether it is there already, and how it is
read into a record whose fields so far are `σ`. -/
structure FieldFormat (σ : Type) where
  name : String
  given : σ → Bool
  read : σ → Bytes → Except Fault (σ × Bytes)
  ofValue : σ → Value → Except Mismatch σ

/-- The field of a kind, with its place among the fields. -/
def FieldFormat.of {σ α : Type} (name : String) (kind : Kind α) (get : σ → Option α)
    (set : σ → α → σ) : FieldFormat σ where
  name := name
  given st := (get st).isSome
  read st s := (kind.read s).map fun p => (set st p.1, p.2)
  ofValue st v := (kind.ofValue v).map (set st)

/-- A field's value after the last member, or its absence. -/
def Kind.settle {α : Type} (kind : Kind α) (name : String) (got : Option α) : Except Mismatch α :=
  match got, kind.absent with
  | some a, _ => .ok a
  | none, some a => .ok a
  | none, none => .error (.missingField name)

/-- A record: its title in messages, its fields in their order, the record without any field, and
how the fields make up the result. -/
structure RecordFormat (σ α : Type) where
  title : String
  fields : List (FieldFormat σ)
  blank : σ
  build : σ → Except Mismatch α

namespace RecordFormat

variable {σ α : Type}

/-- What the message on a list of the wrong length asks for. -/
def listTitle (f : RecordFormat σ α) : String :=
  f.title ++ " with " ++ String.ofList (Decimal.digits f.fields.length) ++
    if f.fields.length = 1 then " element" else " elements"

/-- The field of a name. -/
def field? (f : RecordFormat σ α) (name : String) : Option (FieldFormat σ) :=
  f.fields.find? fun field => field.name == name

/-- The fields of a list up to its closing bracket, from the `read`-th on. -/
def readItems (f : RecordFormat σ α) :
    List (FieldFormat σ) → Nat → σ → Bytes → Except Fault (α × Bytes)
  | [], _, st, s =>
    match f.build st with
    | .error m => .error (.mismatch m s)
    | .ok a =>
      match endList s with
      | .error e => .error e
      | .ok s => .ok (a, s)
  | field :: fields, read, st, s =>
    match nextItem (read == 0) s with
    | .error e => .error e
    | .ok (.close s) => .error (.mismatch (.wrongLength read f.listTitle) s)
    | .ok (.more s) =>
      match field.read st s with
      | .error e => .error e
      | .ok (st, s) => f.readItems fields (read + 1) st s

/-- The members of an object up to its closing bracket; `fuel` bounds their number. -/
def readMembers (f : RecordFormat σ α) (fuel : Nat) (first : Bool) (st : σ) (s : Bytes) :
    Except Fault (α × Bytes) :=
  match fuel with
  | 0 => .error (.here .endInValue s)
  | fuel + 1 =>
    match nextKey first s with
    | .error e => .error e
    | .ok (.close s) =>
      match f.build st with
      | .error m => .error (.mismatch m s)
      | .ok a => .ok (a, s)
    | .ok (.more s) =>
      match text s with
      | .error e => .error e
      | .ok (key, s) =>
        match f.field? key with
        | none =>
          match colon s with
          | .error e => .error e
          | .ok s =>
            match skipValue fuel s with
            | .error e => .error e
            | .ok s => f.readMembers fuel false st s
        | some field =>
          if field.given st then .error (.mismatch (.duplicateField key) (placeInObject s))
          else
            match colon s with
            | .error e => .error e
            | .ok s =>
              match field.read st s with
              | .error e => .error e
              | .ok (st, s) => f.readMembers fuel false st s

/-- A record, read from text. -/
def read (f : RecordFormat σ α) (s : Bytes) : Except Fault (α × Bytes) :=
  match skipBlank s with
  | [] => .error (.onNext .endInValue [])
  | b :: s =>
    if b = byte '[' then f.readItems f.fields 0 f.blank s
    else if b = byte '\x7b' then f.readMembers (fuelFor s) true f.blank s
    else .error (unwanted f.title b s)

/-- The fields of a list of values, from the `read`-th on. -/
def ofItemsFrom (f : RecordFormat σ α) :
    List (FieldFormat σ) → Nat → σ → List Value → Except Mismatch α
  | [], read, st, items => do
    let a ← f.build st
    if items.isEmpty then .ok a
    else
      .error (.wrongLength (read + items.length)
        (String.ofList (Decimal.digits read) ++
          if read = 1 then " element in sequence" else " elements in sequence"))
  | _ :: _, read, _, [] => .error (.wrongLength read f.listTitle)
  | field :: fields, read, st, v :: items => do
    f.ofItemsFrom fields (read + 1) (← field.ofValue st v) items

/-- The record in a list of values. -/
def ofItems (f : RecordFormat σ α) (items : List Value) : Except Mismatch α :=
  f.ofItemsFrom f.fields 0 f.blank items

/-- The record that the fields so far and some members make up. -/
def ofMembersFrom (f : RecordFormat σ α) : σ → List (String × Value) → Except Mismatch α
  | st, [] => f.build st
  | st, (key, v) :: members =>
    match f.field? key with
    | none => f.ofMembersFrom st members
    | some field =>
      if field.given st then .error (.duplicateField key)
      else do f.ofMembersFrom (← field.ofValue st v) members

/-- The record in the members of an object. -/
def ofMembers (f : RecordFormat σ α) (members : List (String × Value)) : Except Mismatch α :=
  f.ofMembersFrom f.blank members

end RecordFormat

/-! ## Unions -/

/-- What a tagged text holds beside its tag. -/
inductive Body
  | items (items : List Value)
  | members (members : List (String × Value))

/-- A variant of a union: the name that is its tag, and what its body means. -/
structure Variant (α : Type) where
  name : String
  ofBody : Body → Except Mismatch α

/-- A variant without fields; members in its body are passed over, items are not. -/
def Variant.unit {α : Type} (name : String) (a : α) : Variant α where
  name := name
  ofBody
    | .items [] => .ok a
    | .items items => .error (.wrongLength items.length "0 elements in sequence")
    | .members _ => .ok a

/-- A variant whose fields are those of a record. -/
def Variant.record {σ α : Type} (name : String) (format : RecordFormat σ α) : Variant α where
  name := name
  ofBody
    | .items items => format.ofItems items
    | .members members => format.ofMembers members

/-- A union of tagged variants and its title in messages. -/
structure UnionFormat (α : Type) where
  title : String
  variants : List (Variant α)

namespace UnionFormat

variable {α : Type}

/-- The member that holds the tag. -/
def tagKey : String := "type"

/-- The variant of a tag. -/
def variant (u : UnionFormat α) (name : String) : Except Mismatch (Variant α) :=
  oneOf (u.variants.map fun v => (v.name, v)) name

/-- The tag, read from text. -/
def readTag (u : UnionFormat α) (s : Bytes) : Except Fault (Variant α × Bytes) :=
  readTextWith "variant identifier" u.variant s

/-- The tag in a value that was read before; it may also be the variant's number. -/
def tagOfValue (u : UnionFormat α) : Value → Except Mismatch (Variant α)
  | .text t => u.variant t
  | .number (.integer (.ofNat i)) =>
    match u.variants[i]? with
    | some v => .ok v
    | none =>
      .error (.wrongValue (.number (.integer i))
        ("variant index 0 <= i < " ++ String.ofList (Decimal.digits u.variants.length)))
  | v => .error (.wrongType v.found "variant identifier")

/-- The tag of an object and its other members, up to its closing bracket; `fuel` bounds their
number, and `acc` holds the members already read, last first. -/
def readMembers (u : UnionFormat α) (fuel : Nat) (first : Bool) (tag : Option (Variant α))
    (acc : List (String × Value)) (s : Bytes) :
    Except Fault ((Variant α × List (String × Value)) × Bytes) :=
  match fuel with
  | 0 => .error (.here .endInValue s)
  | fuel + 1 =>
    match nextKey first s with
    | .error e => .error e
    | .ok (.close s) =>
      match tag with
      | none => .error (.mismatch (.missingField tagKey) s)
      | some v => .ok ((v, acc.reverse), s)
    | .ok (.more s) =>
      match text s with
      | .error e => .error e
      | .ok (key, s) =>
        if key = tagKey then
          if tag.isSome then .error (.mismatch (.duplicateField tagKey) (placeInObject s))
          else
            match colon s with
            | .error e => .error e
            | .ok s =>
              match u.readTag s with
              | .error e => .error e
              | .ok (v, s) => u.readMembers fuel false (some v) acc s
        else
          match colon s with
          | .error e => .error e
          | .ok s =>
            match valueWithin fuel (depthLimit - 1) s with
            | .error e => .error e
            | .ok (v, s) => u.readMembers fuel false tag ((key, v) :: acc) s

/-- The tag of a list and its other items, whose bracket has been read. -/
def readItems (u : UnionFormat α) (s : Bytes) :
    Except Fault ((Variant α × List Value) × Bytes) :=
  match nextItem true s with
  | .error e => .error e
  | .ok (.close s) => .error (.mismatch (.missingField tagKey) s)
  | .ok (.more s) =>
    match u.readTag s with
    | .error e => .error e
    | .ok (v, s) =>
      match itemsWithin (fuelFor s) (depthLimit - 1) false [] s with
      | .error e => .error e
      | .ok (items, s) => .ok ((v, items), s)

/-- The value of a variant's body, with the rest of the text. -/
def finish (v : Variant α) (body : Body) (s : Bytes) : Except Fault (α × Bytes) :=
  match v.ofBody body with
  | .ok a => .ok (a, s)
  | .error m => .error (.unplaced m)

/-- A union, read from text. -/
def read (u : UnionFormat α) (s : Bytes) : Except Fault (α × Bytes) :=
  match skipBlank s with
  | [] => .error (.onNext .endInValue [])
  | b :: s =>
    if b = byte '[' then
      match u.readItems s with
      | .error e => .error e
      | .ok ((v, items), s) => finish v (.items items) s
    else if b = byte '\x7b' then
      match u.readMembers (fuelFor s) true none [] s with
      | .error e => .error e
      | .ok ((v, members), s) => finish v (.members members) s
    else .error (unwanted u.title b s)

/-- The tag among some members and the other ones; `acc` holds those already seen, last first. -/
def splitMembers (u : UnionFormat α) (tag : Option (Variant α)) (acc : List (String × Value)) :
    List (String × Value) → Except Mismatch (Variant α × List (String × Value))
  | [] =>
    match tag with
    | none => .error (.missingField tagKey)
    | some v => .ok (v, acc.reverse)
  | (key, v) :: members =>
    if key = tagKey then
      if tag.isSome then .error (.duplicateField tagKey)
      else
        match u.tagOfValue v with
        | .error m => .error m
        | .ok v => u.splitMembers (some v) acc members
    else u.splitMembers tag ((key, v) :: acc) members

/-- The union in a value that was read before. -/
def ofValue (u : UnionFormat α) : Value → Except Mismatch α
  | .list [] => .error (.missingField tagKey)
  | .list (tag :: items) => do
    let v ← u.tagOfValue tag
    v.ofBody (.items items)
  | .object members => do
    let (v, members) ← u.splitMembers none [] members
    v.ofBody (.members members)
  | v => .error (.wrongType v.found u.title)

/-- A union as the value of a field. -/
def kind (u : UnionFormat α) : Kind α := ⟨u.read, u.ofValue, none⟩

end UnionFormat

end HoldToRecord.Json
