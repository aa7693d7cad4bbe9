/-!
The words that a vocabulary may reserve, with their one canonical spelling.
-/

namespace LineLexer

inductive Keyword
  | and_ | class_ | else_ | false_ | for_ | if_ | nil_ | or_ | var_ | while_ | true_
  deriving DecidableEq, Repr

namespace Keyword

/-- Every keyword, in the order in which kinds are listed. -/
def all : List Keyword :=
  [and_, class_, else_, false_, for_, if_, nil_, or_, var_, while_, true_]

/-- The word in capitals, which is also the name of its kind. -/
def spelling : Keyword → String
  | and_ => "AND"
  | class_ => "CLASS"
  | else_ => "ELSE"
  | false_ => "FALSE"
  | for_ => "FOR"
  | if_ => "IF"
  | nil_ => "NIL"
  | or_ => "OR"
  | var_ => "VAR"
  | while_ => "WHILE"
  | true_ => "TRUE"

theorem spelling_injective {j k : Keyword} (h : j.spelling = k.spelling) : j = k := by
  cases j <;> cases k <;> simp_all [spelling]

end Keyword
end LineLexer
