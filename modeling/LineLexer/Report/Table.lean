import LineLexer.Token.Basic

/-!
Two plain dumps of a token stream: a table with one row a token, and one line a token with its kind
and lexeme. Cells are padded on the right and never cut, so a long lexeme moves the later columns.
-/

namespace LineLexer.Report

def cell (width : Nat) (s : String) : String :=
  s ++ String.ofList (List.replicate (width - s.length) ' ')

/-- A row of the table: place, kind, lexeme, line. -/
def row (place kind lexeme line : String) : String :=
  " | ".intercalate [cell 30 place, cell 20 kind, cell 20 lexeme, cell 20 line]

def heading : String := row "Scanning At" "Found A" "Lexeme" "Line"

def rule : String := String.ofList (List.replicate heading.length '-')

def tokenRow (t : Token) : String :=
  row s!"Scanning at: {t.line}, index: ..." s!"Found a: {t.kind.name}" s!"'{t.lexeme}'"
    (toString t.line)

/-- The table of a token stream, with heading and rule. -/
def table (tokens : List Token) : String :=
  String.join ((heading :: rule :: tokens.map tokenRow).map (· ++ "\n"))

def kindLine (t : Token) : String := s!"{t.kind.name} {t.lexeme}"

/-- One line a token: its kind and its lexeme. -/
def kindList (tokens : List Token) : String :=
  String.join (tokens.map (kindLine · ++ "\n"))

end LineLexer.Report
