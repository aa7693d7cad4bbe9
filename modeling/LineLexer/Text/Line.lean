/-!
Lines of a text. One of ten characters ends a line, and so does the pair of carriage return and
line feed; a break at the very end of the text starts no further line.
-/

namespace LineLexer.Text

def isBreak (c : Char) : Bool :=
  ['\n', '\r', '\x0b', '\x0c', '\x1c', '\x1d', '\x1e', '\x85', '\u2028', '\u2029'].contains c

/-- The text behind the break at its head. Carriage return and line feed are one break. -/
def dropBreak : List Char → List Char
  | '\r' :: '\n' :: rest => rest
  | _ :: rest => rest
  | [] => []

theorem length_dropBreak_cons (c : Char) (cs : List Char) :
    (dropBreak (c :: cs)).length ≤ cs.length := by
  unfold dropBreak
  split <;> simp_all

theorem length_dropWhile_le (p : Char → Bool) (cs : List Char) :
    (cs.dropWhile p).length ≤ cs.length :=
  (List.dropWhile_suffix p).length_le

def firstLine (text : List Char) : List Char := text.takeWhile (!isBreak ·)

def afterLine (text : List Char) : List Char := dropBreak (text.dropWhile (!isBreak ·))

theorem length_afterLine_cons (c : Char) (cs : List Char) :
    (afterLine (c :: cs)).length < (c :: cs).length := by
  have h := length_dropWhile_le (!isBreak ·) (c :: cs)
  unfold afterLine
  cases hd : (c :: cs).dropWhile (!isBreak ·) with
  | nil => simp [dropBreak]
  | cons d ds =>
      have hb := length_dropBreak_cons d ds
      simp only [hd, List.length_cons] at h ⊢
      omega

/-- The lines of a text, without their breaks. -/
def lines (text : List Char) : List (List Char) :=
  match text with
  | [] => []
  | c :: cs => firstLine (c :: cs) :: lines (afterLine (c :: cs))
termination_by text.length
decreasing_by exact length_afterLine_cons c cs

@[simp] theorem lines_nil : lines [] = [] := by simp [lines]

theorem lines_cons (c : Char) (cs : List Char) :
    lines (c :: cs) = firstLine (c :: cs) :: lines (afterLine (c :: cs)) := by
  rw [lines]

theorem isBreak_eq_false_of_mem_firstLine {text : List Char} {c : Char} (hc : c ∈ firstLine text) :
    isBreak c = false := by
  simpa using List.all_eq_true.mp List.all_takeWhile c hc

theorem isBreak_eq_false_of_mem_lines {text line : List Char} (hl : line ∈ lines text) {c : Char}
    (hc : c ∈ line) : isBreak c = false := by
  fun_induction lines text with
  | case1 => simp at hl
  | case2 d ds ih =>
      rcases List.mem_cons.mp hl with rfl | h
      · exact isBreak_eq_false_of_mem_firstLine hc
      · exact ih h

end LineLexer.Text
