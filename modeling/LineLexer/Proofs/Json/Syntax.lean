import Mathlib
import LineLexer.Json.Number
import LineLexer.Json.Quoted
import LineLexer.Json.Space

/-!
JSON texts as trees. A tree keeps every choice that the grammar leaves to a writer: white space, the
way in which a character is escaped, the form of a number. The texts of all trees are therefore all
texts of the grammar. What a tree means apart from these choices is told by `text?` and `natural?`.
-/

namespace LineLexer.Json

/-- White space between the tokens of a text. -/
structure Gap where
  chars : List Char
  blank : ∀ c ∈ chars, isSpace c = true

def Gap.none : Gap := ⟨[], List.forall_mem_nil _⟩

/-! ### Strings -/

structure HexDigit where
  char : Char
  value : Nat
  hexValue?_eq : hexValue? char = some value

/-- A unit of UTF-16, as four hexadecimal digits. -/
structure CodeUnit where
  (a b c d : HexDigit)

namespace CodeUnit

def chars (u : CodeUnit) : List Char := [u.a.char, u.b.char, u.c.char, u.d.char]

def value (u : CodeUnit) : Nat :=
  ((u.a.value * 16 + u.b.value) * 16 + u.c.value) * 16 + u.d.value

end CodeUnit

/-- A piece of a string: a character as itself or by the letter of its escape, or a unit of UTF-16,
which is a character or one half of one. -/
inductive Piece
  | plain (c : Char) (h : ¬ c < ' ' ∧ c ≠ '"' ∧ c ≠ '\\')
  | letter (escape : Char × Char) (h : escape ∈ letterEscapes)
  | unit (u : CodeUnit)

namespace Piece

def chars : Piece → List Char
  | plain c _ => [c]
  | letter escape _ => ['\\', escape.2]
  | unit u => '\\' :: 'u' :: u.chars

/-- The characters of consecutive pieces, unless half of a character stands alone. -/
def decode : List Piece → Option (List Char)
  | [] => some []
  | plain c _ :: pieces => (decode pieces).map (c :: ·)
  | letter escape _ :: pieces => (decode pieces).map (escape.1 :: ·)
  | unit u :: pieces =>
    if isLowSurrogate u.value then none
    else if isHighSurrogate u.value then
      match pieces with
      | unit w :: pieces =>
        if isLowSurrogate w.value then (decode pieces).map (ofSurrogates u.value w.value :: ·)
        else none
      | _ => none
    else (decode pieces).map (Char.ofNat u.value :: ·)

end Piece

structure Literal where
  pieces : List Piece

namespace Literal

/-- The text behind the opening quote. -/
def body (l : Literal) : List Char := l.pieces.flatMap Piece.chars ++ ['"']

def chars (l : Literal) : List Char := '"' :: l.body

def text? (l : Literal) : Option String := (Piece.decode l.pieces).map String.ofList

end Literal

/-! ### Numbers -/

structure Digits where
  chars : List Char
  ne_nil : chars ≠ []
  isDigit : ∀ c ∈ chars, c.isDigit = true

def Digits.value (ds : Digits) : Nat := Nat.ofDigitChars 10 ds.chars 0

structure Exponent where
  letter : Char
  letter_eq : letter = 'e' ∨ letter = 'E'
  sign : List Char
  sign_mem : sign ∈ [[], ['+'], ['-']]
  digits : Digits

def Exponent.chars (e : Exponent) : List Char := e.letter :: (e.sign ++ e.digits.chars)

structure Numeral where
  negative : Bool
  whole : Digits
  /-- A leading zero stands alone. -/
  whole_eq : whole.chars.head? = some '0' → whole.chars = ['0']
  fraction? : Option Digits
  exponent? : Option Exponent

namespace Numeral

/-- What stands behind the integer digits. -/
def tail (n : Numeral) : List Char :=
  match n.fraction?, n.exponent? with
  | none, none => []
  | none, some e => e.chars
  | some ds, none => '.' :: ds.chars
  | some ds, some e => '.' :: (ds.chars ++ e.chars)

def chars (n : Numeral) : List Char :=
  (if n.negative then ['-'] else []) ++ n.whole.chars ++ n.tail

/-- The number of an integer literal without a sign. -/
def natural? (n : Numeral) : Option Nat :=
  if n.negative || n.fraction?.isSome || n.exponent?.isSome then none else some n.whole.value

end Numeral

/-! ### Values -/

mutual

inductive Tree
  | null
  | boolean (b : Bool)
  | number (n : Numeral)
  | string (s : Literal)
  | list (gap : Gap) (items : List Item)
  | object (gap : Gap) (members : List Member)

/-- A value of a list and the white space around it. -/
structure Item where
  before : Gap
  value : Tree
  behind : Gap

/-- A member of an object and the white space between its tokens. -/
structure Member where
  before : Gap
  key : Literal
  behindKey : Gap
  beforeValue : Gap
  value : Tree
  behind : Gap

end

/-- What stands in front of an entry of a list or an object. -/
def separator (fresh : Bool) : List Char := if fresh then [] else [',']

mutual

def Tree.chars : Tree → List Char
  | .null => ['n', 'u', 'l', 'l']
  | .boolean true => ['t', 'r', 'u', 'e']
  | .boolean false => ['f', 'a', 'l', 's', 'e']
  | .number n => n.chars
  | .string s => s.chars
  | .list gap items => '[' :: (gap.chars ++ (itemsChars true items ++ [']']))
  | .object gap members => '\x7b' :: (gap.chars ++ (membersChars true members ++ ['\x7d']))

/-- The items up to the end of a list, where `fresh` says that the first of the list is the first of
them. -/
def itemsChars (fresh : Bool) : List Item → List Char
  | [] => []
  | ⟨before, value, behind⟩ :: items =>
    separator fresh ++ before.chars ++ value.chars ++ behind.chars ++ itemsChars false items

def membersChars (fresh : Bool) : List Member → List Char
  | [] => []
  | ⟨before, key, behindKey, beforeValue, value, behind⟩ :: members =>
    separator fresh ++ before.chars ++ key.chars ++ behindKey.chars ++ ':' :: beforeValue.chars
      ++ value.chars ++ behind.chars ++ membersChars false members

end

section

variable (fresh : Bool)

@[simp] theorem itemsChars_nil : itemsChars fresh [] = [] := by rw [itemsChars]

@[simp] theorem itemsChars_cons (item : Item) (items : List Item) :
    itemsChars fresh (item :: items) =
      separator fresh ++ (item.before.chars ++ (item.value.chars ++
        (item.behind.chars ++ itemsChars false items))) := by
  cases item
  rw [itemsChars, List.append_assoc, List.append_assoc, List.append_assoc]

@[simp] theorem membersChars_nil : membersChars fresh [] = [] := by rw [membersChars]

@[simp] theorem membersChars_cons (member : Member) (members : List Member) :
    membersChars fresh (member :: members) =
      separator fresh ++ (member.before.chars ++ '"' :: (member.key.body ++
        (member.behindKey.chars ++ ':' :: (member.beforeValue.chars ++ (member.value.chars ++
          (member.behind.chars ++ membersChars false members)))))) := by
  cases member
  rw [membersChars]
  simp [Literal.chars]

end

namespace Tree

def text? : Tree → Option String
  | string s => s.text?
  | _ => none

def natural? : Tree → Option Nat
  | number n => n.natural?
  | _ => none

end Tree

/-- What may follow a value. -/
def Ends (rest : List Char) : Prop :=
  ∀ c ∈ rest.head?, isSpace c = true ∨ c = ',' ∨ c = ']' ∨ c = '\x7d'

/-- A whole text: one value with white space around it. -/
structure Document where
  before : Gap
  value : Tree
  behind : Gap

def Document.text (d : Document) : String :=
  String.ofList (d.before.chars ++ d.value.chars ++ d.behind.chars)

end LineLexer.Json
