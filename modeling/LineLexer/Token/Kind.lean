import LineLexer.Token.Keyword

/-!
The kinds of token, their names and the order in which they are listed. Names are unique, so a kind
can be read back from its name.
-/

namespace LineLexer.Token

inductive Kind
  | semicolon | leftParen | rightParen | leftBrace | rightBrace
  | plus | minus | star | slash | power
  | equal | equalEqual | bang | bangEqual | less | lessEqual
  | identifier | string | number
  | keyword (word : Keyword)
  deriving DecidableEq, Repr

namespace Kind

/-- Every kind, in listing order: brackets, operators, words and literals, keywords. -/
def all : List Kind :=
  [semicolon, leftParen, rightParen, leftBrace, rightBrace, plus, minus, star, slash, power,
    equal, equalEqual, bang, bangEqual, less, lessEqual, identifier, string, number]
    ++ Keyword.all.map keyword

def name : Kind → String
  | semicolon => "SEMICOLON"
  | leftParen => "LEFT_PAREN"
  | rightParen => "RIGHT_PAREN"
  | leftBrace => "LEFT_BRACE"
  | rightBrace => "RIGHT_BRACE"
  | plus => "PLUS"
  | minus => "MINUS"
  | star => "STAR"
  | slash => "SLASH"
  | power => "POWER"
  | equal => "EQUAL"
  | equalEqual => "EQUAL_EQUAL"
  | bang => "BANG"
  | bangEqual => "BANG_EQUAL"
  | less => "LESS"
  | lessEqual => "LESS_EQUAL"
  | identifier => "IDENTIFIER"
  | string => "STRING"
  | number => "NUMBER"
  | keyword word => word.spelling

def isKeyword : Kind → Bool
  | keyword _ => true
  | _ => false

def rank (k : Kind) : Nat := all.idxOf k

/-- Kinds in listing order; equal kinds stay together. -/
def sorted (kinds : List Kind) : List Kind := kinds.mergeSort (fun a b => a.rank ≤ b.rank)

end Kind
end LineLexer.Token
