import LineLexer.Json.Quoted

/-!
JSON values and their written form: one entry a line, two spaces of indentation a level, and an
empty list or object on one line.
-/

namespace LineLexer.Json

inductive Value
  | number (n : Nat)
  | string (s : String)
  | list (items : List Value)
  | object (members : List (String × Value))

def newline (depth : Nat) : List Char := '\n' :: List.replicate (2 * depth) ' '

mutual

/-- A value whose first line is indented already, at the given depth. -/
def Value.write (depth : Nat) : Value → List Char
  | .number n => Nat.toDigits 10 n
  | .string s => writeString s
  | .list [] => ['[', ']']
  | .list (item :: items) =>
    '[' :: newline (depth + 1) ++ item.write (depth + 1) ++ writeItems depth items
      ++ newline depth ++ [']']
  | .object [] => ['\x7b', '\x7d']
  | .object ((key, value) :: members) =>
    '\x7b' :: newline (depth + 1) ++ writeString key ++ ':' :: ' ' :: value.write (depth + 1)
      ++ writeMembers depth members ++ newline depth ++ ['\x7d']

/-- The items behind the first of a list at the given depth. -/
def writeItems (depth : Nat) : List Value → List Char
  | [] => []
  | item :: items =>
    ',' :: newline (depth + 1) ++ item.write (depth + 1) ++ writeItems depth items

/-- The members behind the first of an object at the given depth. -/
def writeMembers (depth : Nat) : List (String × Value) → List Char
  | [] => []
  | (key, value) :: members =>
    ',' :: newline (depth + 1) ++ writeString key ++ ':' :: ' ' :: value.write (depth + 1)
      ++ writeMembers depth members

end

def Value.text (v : Value) : String := String.ofList (v.write 0)

end LineLexer.Json
