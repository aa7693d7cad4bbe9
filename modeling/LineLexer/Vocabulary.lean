import LineLexer.Token.Kind

/-!
A vocabulary says which words are reserved. Words are compared without regard to the case of ASCII
letters, and no reserved word has more than five letters.
-/

namespace LineLexer

inductive Vocabulary
  | initial | extended
  deriving DecidableEq, Repr

namespace Vocabulary

/-- The newest vocabulary; it reserves whatever an earlier one does. -/
def current : Vocabulary := extended

def name : Vocabulary → String
  | initial => "initial"
  | extended => "extended"

/-- The names under which a vocabulary may be asked for. -/
def choices : List (String × Vocabulary) :=
  [("initial", initial), ("current", current), ("extended", extended)]

/-- The words that every vocabulary reserves. -/
def common : List Keyword := [.and_, .class_, .else_, .false_, .for_, .if_, .nil_, .or_]

def reserved : Vocabulary → List Keyword
  | initial => common
  | extended => common ++ [.var_, .while_, .true_]

/-- The spellings that every vocabulary looks up, with the words that they stand for. -/
def commonTable : List (String × Keyword) :=
  [("AND", .and_), ("CLASS", .class_), ("ELSE", .else_), ("FALSE", .false_), ("FOR", .for_),
    ("IF", .if_), ("NIL", .nil_), ("OR", .or_)]

def table : Vocabulary → List (String × Keyword)
  | initial => commonTable
  | extended => commonTable ++ [("VAR", .var_), ("WHILE", .while_), ("TRUE", .true_)]

/-- The table has one entry for each reserved word, under its spelling. -/
theorem table_eq (v : Vocabulary) : v.table = v.reserved.map fun k => (k.spelling, k) := by
  cases v <;> rfl

/-- The length in bytes beyond which no word is looked up. -/
def longest : Nat := 5

theorem utf8ByteSize_spelling_le (k : Keyword) : k.spelling.utf8ByteSize ≤ longest := by
  cases k <;> decide

def lookup? (v : Vocabulary) (lexeme : String) : Option Keyword :=
  if lexeme.utf8ByteSize > longest then none
  else v.table.lookup lexeme.toUpper

/-- The kind of a word: a keyword if it is reserved, else an identifier. -/
def classify (v : Vocabulary) (lexeme : String) : Token.Kind :=
  match v.lookup? lexeme with
  | some k => .keyword k
  | none => .identifier

/-- The reserved words in lower case, sorted. -/
def words (v : Vocabulary) : List String :=
  (v.table.map (·.1.toLower)).mergeSort (· ≤ ·)

end Vocabulary
end LineLexer
