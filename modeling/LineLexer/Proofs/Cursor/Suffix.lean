import Mathlib
import LineLexer.Cursor

/-!
A cursor is as good as the suffix of its line that is ahead of it. Whatever operations have moved a
cursor, it shows what can be told from the line and this suffix alone, and each further operation
drops characters from the front of the suffix. Offsets are words, however: both holds as long as the
sums that are asked for fit into one.
-/

namespace LineLexer.Cursor

/-- What moves a cursor. -/
inductive Operation
  | advance (n : Nat)
  | toEnd
  | eatWhile (p : Char → Bool)

/-- The offset that an operation asks for fits into a word. -/
def Operation.Fits (c : Cursor) : Operation → Prop
  | advance n => c.offset + n < UInt64.size
  | toEnd | eatWhile _ => True

end LineLexer.Cursor
