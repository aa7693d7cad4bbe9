/-!
What is recorded when the rest of a line has to be given up: why, on which line, at which character,
and the beginning of what was left. Messages are exact.
-/

namespace LineLexer

/-- Why a line is given up. -/
inductive Diagnostic.Cause
  | unrecognizedCharacter | unterminatedString
  deriving DecidableEq, Repr

structure Diagnostic where
  cause : Diagnostic.Cause
  line : Nat
  character : Char
  context : String
  deriving DecidableEq, Repr

namespace Diagnostic

def Cause.name : Cause → String
  | unrecognizedCharacter => "unrecognized-character"
  | unterminatedString => "unterminated-string"

def longestContext : Nat := 10

/-- The report of a character that starts no token. -/
def unrecognized (line : Nat) (character : Char) (context : String) : Diagnostic :=
  ⟨.unrecognizedCharacter, line, character, context⟩

/-- The report of a string that its line does not close; it is found at the opening quote. -/
def unterminated (line : Nat) (context : String) : Diagnostic :=
  ⟨.unterminatedString, line, '"', context⟩

def message (d : Diagnostic) : String :=
  match d.cause with
  | .unrecognizedCharacter =>
      s!"Unrecognized token on line {d.line}, character '{d.character}'. Context: '{d.context}'."
  | .unterminatedString => s!"Unterminated string on line {d.line}. Context: '{d.context}'."

end Diagnostic
end LineLexer
