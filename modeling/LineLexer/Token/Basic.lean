import LineLexer.Token.Kind

/-!
A token is a kind, the exact characters it was made from and the number of its line. A stream of
tokens is a list in source order.
-/

namespace LineLexer

structure Token where
  kind : Token.Kind
  lexeme : String
  line : Nat
  deriving DecidableEq, Repr

namespace Token

/-- The short form of a token in messages. -/
def display (t : Token) : String := s!"{t.kind.name}('{t.lexeme}') @{t.line}"

def kinds (tokens : List Token) : List Kind := tokens.map kind

def lexemes (tokens : List Token) : List String := tokens.map lexeme

def onLine (tokens : List Token) (line : Nat) : List Token := tokens.filter (·.line == line)

@[simp] theorem onLine_nil (line : Nat) : onLine [] line = [] := rfl

@[simp] theorem onLine_append (xs ys : List Token) (line : Nat) :
    onLine (xs ++ ys) line = onLine xs line ++ onLine ys line := List.filter_append ..

end Token
end LineLexer
