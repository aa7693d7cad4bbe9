import LineLexer.Decimal.Shortest
import LineLexer.Text.Escaped

/-!
What can be wrong with a JSON document, and where. A fault keeps the number of bytes that were still
unread when it was found; only the whole text turns that into a line and a column.
-/

namespace LineLexer.Json

/-- What was being read when the text ended. -/
inductive Construct
  | value | list | object | string
  deriving DecidableEq, Repr

def Construct.phrase : Construct → String
  | value => "a value"
  | list => "a list"
  | object => "an object"
  | string => "a string"

/-- A value that stands where another kind of value was wanted. -/
inductive Found
  | null
  | boolean (b : Bool)
  | integer (n : Int)
  | real (x : Float)
  | string (s : String)
  | sequence
  | map

/-- Numbers in messages: an exponent is written from the sixteenth power of ten on and below the
hundred-thousandth part. -/
def numberLayout : Decimal.Layout := ⟨-5, 15⟩

def Found.phrase : Found → String
  | null => "null"
  | boolean b => s!"boolean `{b}`"
  | integer n => s!"integer `{n}`"
  | real x => s!"floating point `{Decimal.text numberLayout x}`"
  | string s => s!"string {Text.quoted s}"
  | sequence => "sequence"
  | map => "map"

inductive Cause
  | unfinished (construct : Construct)
  | expectedValue
  | expectedWord
  | expectedColon
  | expectedListEnd
  | expectedObjectEnd
  | keyNotString
  | trailingComma
  | trailingCharacters
  | invalidNumber
  | numberOutOfRange
  | controlCharacter
  | invalidEscape
  | loneSurrogate
  | unpairedSurrogate
  | unknownField (name : String) (known : List String)
  | unknownVariant (name : String) (known : List String)
  | duplicateField (name : String)
  | missingField (name : String)
  | invalidLength (length : Nat) (expected : String)
  | invalidType (found : Found) (expected : String)
  | invalidValue (found : Found) (expected : String)

def oneOf (names : List String) : String :=
  match names.map fun name => s!"`{name}`" with
  | [] => "nothing"
  | [a] => a
  | [a, b] => s!"{a} or {b}"
  | all => "one of " ++ ", ".intercalate all

def Cause.message : Cause → String
  | unfinished c => s!"EOF while parsing {c.phrase}"
  | expectedValue => "expected value"
  | expectedWord => "expected ident"
  | expectedColon => "expected `:`"
  | expectedListEnd => "expected `,` or `]`"
  | expectedObjectEnd => "expected `,` or `\x7d`"
  | keyNotString => "key must be a string"
  | trailingComma => "trailing comma"
  | trailingCharacters => "trailing characters"
  | invalidNumber => "invalid number"
  | numberOutOfRange => "number out of range"
  | controlCharacter => "control character (\\u0000-\\u001F) found while parsing a string"
  | invalidEscape => "invalid escape"
  | loneSurrogate => "lone leading surrogate in hex escape"
  | unpairedSurrogate => "unexpected end of hex escape"
  | unknownField name known => s!"unknown field `{name}`, expected {oneOf known}"
  | unknownVariant name known => s!"unknown variant `{name}`, expected {oneOf known}"
  | duplicateField name => s!"duplicate field `{name}`"
  | missingField name => s!"missing field `{name}`"
  | invalidLength length expected => s!"invalid length {length}, expected {expected}"
  | invalidType found expected => s!"invalid type: {found.phrase}, expected {expected}"
  | invalidValue found expected => s!"invalid value: {found.phrase}, expected {expected}"

def byteSize (cs : List Char) : Nat := cs.foldr (fun c n => c.utf8Size + n) 0

@[simp] theorem byteSize_nil : byteSize [] = 0 := rfl

@[simp] theorem byteSize_cons (c : Char) (cs : List Char) :
    byteSize (c :: cs) = c.utf8Size + byteSize cs := rfl

structure Fault where
  cause : Cause
  /-- How many bytes of the text lie behind the place of the fault. -/
  unread : Nat

/-- A fault found when everything in front of `rest` had been read. -/
def Fault.before (cause : Cause) (rest : List Char) : Fault := ⟨cause, byteSize rest⟩

/-- A fault of the first byte of `rest`, which counts as read if there is one. -/
def Fault.on (cause : Cause) (rest : List Char) : Fault := ⟨cause, byteSize rest - 1⟩

/-- A place in a text: lines count from one, columns are bytes since the last line feed. -/
structure Position where
  line : Nat
  column : Nat
  deriving DecidableEq, Repr

/-- The place after the given number of bytes, when `here` is the place in front of the text. -/
def Position.after (here : Position) : List Char → Nat → Position
  | [], _ => here
  | c :: cs, bytes =>
    if bytes < c.utf8Size then { here with column := here.column + bytes }
    else if c = '\n' then after ⟨here.line + 1, 0⟩ cs (bytes - 1)
    else after { here with column := here.column + c.utf8Size } cs (bytes - c.utf8Size)

def Fault.position (f : Fault) (text : List Char) : Position :=
  Position.after ⟨1, 0⟩ text (byteSize text - f.unread)

def Fault.message (f : Fault) (text : List Char) : String :=
  let place := f.position text
  s!"{f.cause.message} at line {place.line} column {place.column}"

/-- A reading that succeeds in two steps succeeds in each of them. -/
theorem exists_of_bind_eq_ok {α β : Type} {x : Except Fault α} {f : α → Except Fault β} {b : β}
    (h : x >>= f = .ok b) : ∃ a, x = .ok a ∧ f a = .ok b := by
  cases x with
  | error e => cases h
  | ok a => exact ⟨a, rfl, h⟩

end LineLexer.Json
