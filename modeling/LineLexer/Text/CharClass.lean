import LineLexer.Text.Line

/-!
The character classes of the token language. All of them are ASCII: a letter or digit of any other
script starts no token.
-/

namespace LineLexer.Text

/-- The white space of ASCII. -/
def isSpace (c : Char) : Bool := [' ', '\t', '\n', '\x0c', '\r'].contains c

/-- What may separate lexemes on a line: white space, of which some ends lines and is on none. -/
def isBlank (c : Char) : Bool := isSpace c && !isBreak c

def isWordStart (c : Char) : Bool := c.isAlpha || c == '_'

def isWordPart (c : Char) : Bool := c.isAlphanum || c == '_'

theorem isWordPart_of_isWordStart {c : Char} (h : isWordStart c = true) : isWordPart c = true := by
  simp only [isWordStart, isWordPart, Char.isAlphanum, Bool.or_eq_true] at h ⊢
  rcases h with h | h
  · exact .inl (.inl h)
  · exact .inr h

theorem isWordPart_of_isDigit {c : Char} (h : c.isDigit = true) : isWordPart c = true := by
  simp [isWordPart, Char.isAlphanum, h]

end LineLexer.Text
