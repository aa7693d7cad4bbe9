/-!
A position within one line: the characters of the line and an offset into them. A cursor only moves
forward and never leaves its line, since each operation is clamped to it. What is ahead of a cursor
is a suffix of the line, and each operation has an equation that tells it by this suffix.
-/

namespace LineLexer

@[ext] structure Cursor where
  line : Nat
  chars : Array Char
  /-- How many characters are behind the cursor. -/
  offset : Nat
  offset_le : offset ≤ chars.size

namespace Cursor

def start (line : Nat) (text : List Char) : Cursor := ⟨line, text.toArray, 0, Nat.zero_le _⟩

def text (c : Cursor) : List Char := c.chars.toList

/-- The characters from the cursor to the end of the line. -/
def ahead (c : Cursor) : List Char := c.text.drop c.offset

def current? (c : Cursor) : Option Char := c.chars[c.offset]?

def atEnd (c : Cursor) : Bool := c.chars.size ≤ c.offset

/-- Whether `x` follows the current character. -/
def followedBy (c : Cursor) (x : Char) : Bool := c.chars[c.offset + 1]? == some x

/-- Offsets are words of 64 bits. No line in memory is so long that a word could not count twice its
characters; instead of a condition on lines, a word is taken to be wide enough for any of them. -/
def wordSize (c : Cursor) : Nat := max UInt64.size (2 * c.chars.size)

/-- The offset `n` characters on, as a word: a sum that does not fit into one wraps around. -/
def reach (c : Cursor) (n : Nat) : Nat := (c.offset + n) % c.wordSize

/-- Moves over `n` characters, or to the end of the line if it is nearer. -/
def advance (c : Cursor) (n : Nat) : Cursor :=
  { c with offset := min (c.reach n) c.chars.size, offset_le := Nat.min_le_right _ _ }

def toEnd (c : Cursor) : Cursor := { c with offset := c.chars.size, offset_le := Nat.le_refl _ }

/-- Moves over the characters that satisfy `p`, up to the first that does not. -/
def eatWhile (c : Cursor) (p : Char → Bool) : Cursor :=
  if h : c.offset < c.chars.size then
    if p c.chars[c.offset] then eatWhile { c with offset := c.offset + 1, offset_le := h } p else c
  else c
termination_by c.chars.size - c.offset

/-- How many characters `eatWhile` moves over. -/
def run (c : Cursor) (p : Char → Bool) : Nat := (c.eatWhile p).offset - c.offset

/-- The first place of `x` among the characters from an offset on. -/
def indexFrom? (c : Cursor) (x : Char) (i : Nat) : Option Nat :=
  if h : i < c.chars.size then
    if c.chars[i] == x then some i else indexFrom? c x (i + 1)
  else none
termination_by c.chars.size - i

/-- The offset of the first `x` behind the current character. -/
def findAfter? (c : Cursor) (x : Char) : Option Nat := c.indexFrom? x (c.offset + 1)

/-- The text between two offsets, as far as the line reaches. -/
def slice (c : Cursor) (first last : Nat) : String :=
  let last := min last c.chars.size
  let first := min first last
  String.ofList (c.chars.extract first last).toList

/-- The next `n` characters, or all that are left. -/
def preview (c : Cursor) (n : Nat) : String := c.slice c.offset (c.reach n)

/-- The cursor behind the next `n` characters, or behind all that are left. -/
def skip (c : Cursor) (n : Nat) : Cursor :=
  { c with offset := min (c.offset + n) c.chars.size, offset_le := Nat.min_le_right _ _ }

/-- The text of the next `n` characters, or of all that are left. -/
def next (c : Cursor) (n : Nat) : String := String.ofList (c.ahead.take n)

@[simp] theorem text_start (line : Nat) (text : List Char) : (start line text).text = text := rfl

@[simp] theorem ahead_start (line : Nat) (text : List Char) : (start line text).ahead = text := rfl

@[simp] theorem line_start (line : Nat) (text : List Char) : (start line text).line = line := rfl

@[simp] theorem line_skip (c : Cursor) (n : Nat) : (c.skip n).line = c.line := rfl

@[simp] theorem text_skip (c : Cursor) (n : Nat) : (c.skip n).text = c.text := rfl

@[simp] theorem length_text (c : Cursor) : c.text.length = c.chars.size := Array.length_toList

theorem offset_add_length_ahead (c : Cursor) : c.offset + c.ahead.length = c.text.length := by
  have := c.offset_le
  simp only [ahead, List.length_drop, length_text]
  omega

theorem offset_skip (c : Cursor) (n : Nat) :
    (c.skip n).offset = c.offset + min n c.ahead.length := by
  have := c.offset_add_length_ahead
  simp only [skip, length_text] at this ⊢
  omega

@[simp] theorem ahead_skip (c : Cursor) (n : Nat) : (c.skip n).ahead = c.ahead.drop n := by
  rw [ahead, text_skip, offset_skip, ahead, List.drop_drop, List.drop_eq_drop_iff]
  simp only [List.length_drop]
  omega

theorem skip_skip (c : Cursor) (n k : Nat) : (c.skip n).skip k = c.skip (n + k) := by
  ext1
  · rfl
  · rfl
  · simp only [skip]
    omega

theorem skip_zero (c : Cursor) : c.skip 0 = c := by
  ext1
  · rfl
  · rfl
  · exact Nat.min_eq_left c.offset_le

/-! ### Sums that fit into a word -/

theorem reach_eq {c : Cursor} {n : Nat} (h : c.offset + n < c.wordSize) :
    c.reach n = c.offset + n :=
  Nat.mod_eq_of_lt h

/-- No sum with a number of characters on the line, or one that is small, fails to fit. -/
theorem lt_wordSize_of_le {c : Cursor} {n : Nat} (h : n ≤ c.ahead.length ∨ 2 * n < UInt64.size) :
    c.offset + n < c.wordSize := by
  have here := c.offset_le
  have left := c.offset_add_length_ahead
  have pos : 0 < UInt64.size := by decide
  rw [length_text] at left
  unfold wordSize
  omega

theorem advance_eq {c : Cursor} {n : Nat} (h : c.offset + n < c.wordSize) :
    c.advance n = c.skip n := by
  ext1
  · rfl
  · rfl
  · exact congrArg (min · c.chars.size) (reach_eq h)

theorem drop_text_eq_cons (c : Cursor) {i : Nat} (h : i < c.chars.size) :
    c.text.drop i = c.chars[i] :: c.text.drop (i + 1) := by
  rw [List.drop_eq_getElem_cons (by simpa using h)]
  rfl

/-- In front of a character the suffix begins with it. -/
theorem ahead_eq_cons (c : Cursor) (h : c.offset < c.chars.size) :
    c.ahead = c.chars[c.offset] :: (c.skip 1).ahead := by
  rw [ahead_skip, ahead, c.drop_text_eq_cons h]
  rfl

theorem atEnd_iff (c : Cursor) : c.atEnd = true ↔ c.ahead = [] := by
  rw [atEnd, decide_eq_true_iff, ahead, List.drop_eq_nil_iff, length_text]

theorem current?_eq (c : Cursor) : c.current? = c.ahead.head? := by
  rw [current?, ahead, List.head?_drop, text, Array.getElem?_toList]

theorem followedBy_eq (c : Cursor) (x : Char) :
    c.followedBy x = (c.ahead.tail.head? == some x) := by
  rw [followedBy, ahead, List.tail_drop, List.head?_drop, text, Array.getElem?_toList]

theorem slice_eq (c : Cursor) (first last : Nat) :
    c.slice first last = String.ofList ((c.text.take last).drop first) := by
  rw [slice, Array.toList_extract, List.extract_eq_drop_take', text]
  congr 1
  rw [← List.take_take, ← Array.length_toList, List.take_length, List.drop_eq_drop_iff]
  simp only [List.length_take]
  omega

theorem preview_eq {c : Cursor} {n : Nat} (h : c.offset + n < c.wordSize) :
    c.preview n = c.next n := by
  rw [preview, reach_eq h, slice_eq, next, ahead, List.drop_take, Nat.add_sub_cancel_left]

/-- What was moved over is what came next. -/
theorem slice_skip (c : Cursor) (n : Nat) :
    (c.skip n).slice c.offset (c.skip n).offset = c.next n := by
  rw [slice_eq, next, text_skip, offset_skip, List.drop_take, Nat.add_sub_cancel_left,
    ← ahead, ← List.take_eq_take_min]

theorem next_takeWhile {c : Cursor} {x : Char} {rest : List Char} (h : c.ahead = x :: rest)
    (p : Char → Bool) :
    c.next ((rest.takeWhile p).length + 1) = String.ofList (x :: rest.takeWhile p) := by
  rw [next, h, List.take_succ_cons, ← List.prefix_iff_eq_take.mp (List.takeWhile_prefix p)]

theorem eatWhile_eq (c : Cursor) (p : Char → Bool) :
    c.eatWhile p = c.skip (c.ahead.takeWhile p).length := by
  fun_induction eatWhile c p with
  | case1 c h hp ih =>
      have next : { c with offset := c.offset + 1, offset_le := h } = c.skip 1 := by
        ext1
        · rfl
        · rfl
        · exact (Nat.min_eq_left h).symm
      rw [ih, next, c.ahead_eq_cons h, List.takeWhile_cons_of_pos hp, List.length_cons,
        skip_skip, Nat.add_comm]
  | case2 c h hp =>
      rw [c.ahead_eq_cons h, List.takeWhile_cons_of_neg hp]
      exact c.skip_zero.symm
  | case3 c h =>
      rw [c.atEnd_iff.mp (by simpa [atEnd] using h)]
      exact c.skip_zero.symm

theorem indexFrom?_eq (c : Cursor) (x : Char) (i : Nat) :
    c.indexFrom? x i = ((c.text.drop i).idxOf? x).map (i + ·) := by
  fun_induction indexFrom? c x i with
  | case1 i h hx =>
      rw [c.drop_text_eq_cons h, List.idxOf?_cons, if_pos hx]
      rfl
  | case2 i h hx ih =>
      rw [c.drop_text_eq_cons h, List.idxOf?_cons, if_neg hx, ih, Option.map_map]
      congr 1
      funext k
      simp only [Function.comp_apply]
      omega
  | case3 i h =>
      rw [List.drop_eq_nil_of_le (by simpa using h)]
      rfl

theorem findAfter?_eq (c : Cursor) (x : Char) :
    c.findAfter? x = (c.ahead.tail.idxOf? x).map (c.offset + 1 + ·) := by
  rw [findAfter?, indexFrom?_eq, ahead, List.tail_drop]

end Cursor
end LineLexer
