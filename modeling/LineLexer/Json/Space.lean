import LineLexer.Json.Fault

/-!
White space and literal words of JSON documents.
-/

namespace LineLexer.Json

def isSpace (c : Char) : Bool := c == ' ' || c == '\t' || c == '\n' || c == '\r'

def skipSpace (cs : List Char) : List Char := cs.dropWhile isSpace

theorem length_skipSpace_le (cs : List Char) : (skipSpace cs).length ≤ cs.length :=
  (List.dropWhile_suffix isSpace).length_le

/-- What follows a literal word, of which the text has to be the beginning. -/
def readWord : List Char → List Char → Except Fault (List Char)
  | [], cs => .ok cs
  | _ :: _, [] => .error (.on (.unfinished .value) [])
  | w :: ws, c :: cs => if c = w then readWord ws cs else .error (.on .expectedWord (c :: cs))

theorem readWord_eq_ok {word cs rest : List Char} (h : readWord word cs = .ok rest) :
    cs = word ++ rest := by
  fun_induction readWord word cs with
  | case1 cs => simpa using h
  | case2 => simp at h
  | case3 w ws cs ih => simp [ih h]
  | case4 => simp at h

end LineLexer.Json
