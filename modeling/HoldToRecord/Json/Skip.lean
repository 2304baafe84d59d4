import HoldToRecord.Json.Reader

/-!
# Passing over JSON values

A member that nobody asks for is passed over without being built: its brackets have to match, but
they may be nested to any depth, strings need not be well-formed UTF-8, surrogates need not be
paired, and numbers may be of any size.
-/

namespace HoldToRecord.Json

/-- The two sorts of brackets. -/
inductive Bracket
  | list
  | object
  deriving DecidableEq, Repr

/-- The byte that closes a bracket. -/
def Bracket.closing : Bracket → UInt8
  | .list => byte ']'
  | .object => byte '\x7d'

/-- The fault of a text that ends within a bracket. -/
def Bracket.cut : Bracket → Malformed
  | .list => .endInList
  | .object => .endInObject

/-- The fault of something other than a comma or the closing bracket. -/
def Bracket.uncut : Bracket → Malformed
  | .list => .noListComma
  | .object => .noObjectComma

/-- The rest after an escape whose backslash has been read. -/
def skipEscape : Bytes → Except Fault Bytes
  | [] => .error (.here .endInString [])
  | b :: s =>
    if b = byte 'u' then do
      let (_, s) ← hexUnit s
      .ok s
    else if b = byte '"' || b = byte '\\' || b = byte '/' || b = byte 'b' || b = byte 'f' ||
        b = byte 'n' || b = byte 'r' || b = byte 't' then .ok s
    else .error (.here .badEscape s)

/-- An escape that is passed over leaves fewer bytes. -/
theorem length_of_skipEscape {s r : Bytes} (h : skipEscape s = .ok r) : r.length < s.length := by
  unfold skipEscape at h
  split at h
  · simp at h
  · next b s =>
    split at h
    · cases h1 : hexUnit s with
      | error f => simp [h1, bind, Except.bind] at h
      | ok p =>
        obtain ⟨n, s1⟩ := p
        have := length_of_hexUnit h1
        simp only [h1, bind, Except.bind, Except.ok.injEq] at h
        subst h
        simp only [List.length_cons]
        omega
    · split at h
      · simp only [Except.ok.injEq] at h
        subst h
        simp
      · simp at h

/-- The rest after a string whose opening quote has been read. -/
def skipText (s : Bytes) : Except Fault Bytes :=
  match s with
  | [] => .error (.here .endInString [])
  | b :: s =>
    if b = byte '"' then .ok s
    else if b = byte '\\' then
      match _h : skipEscape s with
      | .ok r => skipText r
      | .error f => .error f
    else if b < 32 then .error (.here .rawControl (b :: s))
    else skipText s
termination_by s.length
decreasing_by
  · have := length_of_skipEscape _h
    simp only [List.length_cons]
    omega
  · simp

/-- The rest after an exponent whose `e` has been read. -/
def skipExponent (s : Bytes) : Except Fault Bytes :=
  let (_, s) := exponentSign s
  match s with
  | [] => .error (.here .badNumber [])
  | b :: s => if isDigit b then .ok (skipDigits s) else .error (.here .badNumber s)

/-- The rest after an exponent, if there is one. -/
def skipTail (s : Bytes) : Except Fault Bytes :=
  match exponentFollows s with
  | some s => skipExponent s
  | none => .ok s

/-- The rest after a fraction and an exponent, as far as they are there. -/
def skipFraction (s : Bytes) : Except Fault Bytes :=
  match s with
  | [] => .ok []
  | b :: s =>
    if b = byte '.' then
      if startsWithDigit s then skipTail (skipDigits s) else .error (.onNext .badNumber s)
    else skipTail (b :: s)

/-- The rest after a number whose sign has been read. -/
def skipNumber (s : Bytes) : Except Fault Bytes :=
  match s with
  | [] => .error (.here .badNumber [])
  | b :: s =>
    if b = byte '0' then
      if startsWithDigit s then .error (.onNext .badNumber s) else skipFraction s
    else if isDigit b then skipFraction (skipDigits s)
    else .error (.here .badNumber s)

/-- The rest after a value other than a list or an object, from its first byte on. -/
def skipScalar (b : UInt8) (s : Bytes) : Except Fault Bytes :=
  if b = byte 'n' then word ['u', 'l', 'l'] s
  else if b = byte 't' then word ['r', 'u', 'e'] s
  else if b = byte 'f' then word ['a', 'l', 's', 'e'] s
  else if b = byte '-' then skipNumber s
  else if isDigit b then skipNumber (b :: s)
  else if b = byte '"' then skipText s
  else .error (.onNext .noValue (b :: s))

/-- The rest after a key and its colon. -/
def skipKey (s : Bytes) : Except Fault Bytes :=
  match skipBlank s with
  | [] => .error (.onNext .endInObject [])
  | b :: s =>
    if b = byte '"' then do
      let s ← skipText s
      colon s
    else .error (.onNext .keyNotText (b :: s))

/-- Goes to where the next value in a bracket starts. -/
def Bracket.enter (b : Bracket) (s : Bytes) : Except Fault Bytes :=
  match b with
  | .list => .ok s
  | .object => skipKey s

/-- What is to come: a value, or what follows a value (`true`) or an opening bracket (`false`). -/
inductive Awaited
  | value
  | after (comma : Bool)
  deriving DecidableEq, Repr

/-- Passes over what is to come until the brackets in `enclosing`, innermost first, are closed. -/
def skipWithin (fuel : Nat) (awaited : Awaited) (enclosing : List Bracket) (s : Bytes) :
    Except Fault Bytes :=
  match fuel with
  | 0 => .error (.here .endInValue s)
  | fuel + 1 =>
    match awaited with
    | .value =>
      match skipBlank s with
      | [] => .error (.onNext .endInValue [])
      | b :: s =>
        if b = byte '[' then skipWithin fuel (.after false) (.list :: enclosing) s
        else if b = byte '\x7b' then skipWithin fuel (.after false) (.object :: enclosing) s
        else
          match skipScalar b s with
          | .error f => .error f
          | .ok s => skipWithin fuel (.after true) enclosing s
    | .after comma =>
      match enclosing with
      | [] => .ok s
      | bracket :: outer =>
        match skipBlank s with
        | [] => .error (.onNext bracket.cut [])
        | b :: s =>
          if b = bracket.closing then skipWithin fuel (.after true) outer s
          else if comma && b != byte ',' then .error (.onNext bracket.uncut (b :: s))
          else
            match bracket.enter (if comma then s else b :: s) with
            | .error f => .error f
            | .ok s => skipWithin fuel .value (bracket :: outer) s

/-- The rest after a value that is passed over; `bound` is at least the number of bytes. A byte is
taken at least at every second step. -/
def skipValue (bound : Nat) (s : Bytes) : Except Fault Bytes :=
  skipWithin (2 * bound + 2) .value [] s

end HoldToRecord.Json
