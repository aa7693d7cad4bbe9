import LineLexer.Failure
import LineLexer.Json.Reader

/-!
Whole JSON documents: one value, with nothing but white space around it. A document that cannot be
read is a failure of configuration, whatever it was meant to hold.
-/

namespace LineLexer.Json.Reader

/-- The value of a text that holds nothing else, or its first fault. -/
def only {α : Type} (r : Reader α) (cs : List Char) : Except Fault α := do
  let (a, rest) ← r.run cs
  match skipSpace rest with
  | [] => .ok a
  | rest => .error (.on .trailingCharacters rest)

def load {α : Type} (r : Reader α) (text : String) : Except Failure α :=
  (r.only text.toList).mapError fun f => .configuration (f.message text.toList)

end LineLexer.Json.Reader
