import Mathlib
import LineLexer.Proofs.Text.Breaks

/-!
Lines of a text that is put together. Behind a break, the lines of a text go on with the lines of
what follows; only a line feed behind a carriage return belongs to the break before it.
-/

namespace LineLexer.Text

/-- What a chunk adds behind another one: all of it, but for a line feed that completes a pair. -/
def following (a b : List Char) : List Char :=
  if a.getLast? = some '\r' ∧ b.head? = some '\n' then b.tail else b

/-! ### One line and its break -/

section

variable {line : List Char} (hline : ∀ c ∈ line, isBreak c = false)

include hline

theorem lines_of_isBreak_eq_false (h : line ≠ []) : lines line = [line] := by
  have hp : ∀ c ∈ line, (!isBreak c) = true := by simpa using hline
  obtain ⟨c, cs, rfl⟩ := List.exists_cons_of_ne_nil h
  rw [lines_cons, firstLine, afterLine, List.takeWhile_eq_self_iff.mpr hp,
    List.dropWhile_eq_nil_iff.mpr hp, dropBreak, lines_nil]

section

variable {c : Char} (hc : isBreak c = true) (rest : List Char)

include hc

theorem firstLine_append_cons : firstLine (line ++ c :: rest) = line := by
  have hp : ∀ d ∈ line, (!isBreak d) = true := by simpa using hline
  rw [firstLine, List.takeWhile_append_of_pos hp, List.takeWhile_cons_of_neg (by simp [hc]),
    List.append_nil]

theorem afterLine_append_cons : afterLine (line ++ c :: rest) = dropBreak (c :: rest) := by
  have hp : ∀ d ∈ line, (!isBreak d) = true := by simpa using hline
  rw [afterLine, List.dropWhile_append_of_pos hp, List.dropWhile_cons_of_neg (by simp [hc])]

/-- A line is cut off at its break, whatever comes behind. -/
theorem lines_append_cons :
    lines (line ++ c :: rest) = line :: lines (dropBreak (c :: rest)) := by
  have hf := firstLine_append_cons hline hc rest
  have ha := afterLine_append_cons hline hc rest
  cases line with
  | nil => rw [List.nil_append, lines_cons, ← hf, ← ha]; rfl
  | cons d ds => rw [List.cons_append, lines_cons, ← List.cons_append, hf, ha]

end

end

theorem lines_flatMap_lineFeed {texts : List (List Char)}
    (h : ∀ line ∈ texts, ∀ c ∈ line, isBreak c = false) :
    lines (texts.flatMap (· ++ ['\n'])) = texts := by
  induction texts with
  | nil => exact lines_nil
  | cons line texts ih =>
      rw [List.forall_mem_cons] at h
      rw [List.flatMap_cons, List.append_assoc, List.singleton_append,
        lines_append_cons h.1 (by decide), dropBreak, ih h.2]
      rintro _ ⟨⟩

/-- A text that ends with a break starts with a line and its break. -/
theorem exists_line_of_getLast? {a : List Char} (ha : a ≠ [])
    (h : ∀ c ∈ a.getLast?, isBreak c = true) :
    ∃ line c rest, a = line ++ c :: rest ∧ (∀ d ∈ line, isBreak d = false) ∧ isBreak c = true := by
  cases hd : a.dropWhile (!isBreak ·) with
  | nil =>
      have hlast := List.dropWhile_eq_nil_iff.mp hd _ (List.getLast_mem ha)
      rw [h _ (List.getLast?_eq_some_getLast ha)] at hlast
      cases hlast
  | cons c rest =>
      have hc : c ∈ (a.dropWhile (!isBreak ·)).head? := by
        rw [hd]
        rfl
      refine ⟨firstLine a, c, rest, ?_, ?_, isBreak_of_mem_head?_dropWhile hc⟩
      · rw [← hd, firstLine, List.takeWhile_append_dropWhile]
      · intro d hd
        exact isBreak_eq_false_of_mem_firstLine hd

/-! ### The break between two chunks -/

theorem dropBreak_cons_cons (c d : Char) (rest : List Char) :
    dropBreak (c :: d :: rest) = if c = '\r' ∧ d = '\n' then rest else d :: rest := by
  split
  · next h => rw [h.1, h.2, dropBreak]
  · next h =>
      rw [dropBreak]
      intro rest' hc hd
      exact h ⟨hc, (List.cons.inj hd).1⟩

theorem dropBreak_cons (c : Char) (b : List Char) : dropBreak (c :: b) = following [c] b := by
  cases b with
  | nil => simp [dropBreak, following]
  | cons d ds => simp [dropBreak_cons_cons, following]

theorem dropBreak_append (c d : Char) (rest b : List Char) :
    dropBreak (c :: d :: rest ++ b) = dropBreak (c :: d :: rest) ++ b := by
  rw [List.cons_append, List.cons_append, dropBreak_cons_cons, dropBreak_cons_cons]
  split <;> rfl

theorem mem_getLast?_of_dropBreak {c d e : Char} {rest : List Char}
    (h : e ∈ (dropBreak (c :: d :: rest)).getLast?) : e ∈ (c :: d :: rest).getLast? := by
  rw [dropBreak_cons_cons] at h
  split at h
  · cases rest with
    | nil => cases h
    | cons _ _ => simpa using h
  · simpa using h

theorem following_append {y : List Char} (h : y ≠ []) (x b : List Char) :
    following (x ++ y) b = following y b := by
  rw [following, List.getLast?_append_of_ne_nil x h, following]

theorem following_dropBreak (c d : Char) (rest b : List Char) :
    following (dropBreak (c :: d :: rest)) b = following (c :: d :: rest) b := by
  rw [dropBreak_cons_cons]
  split
  · next h =>
      cases rest with
      | nil => simp [following, h.2]
      | cons e es => exact (following_append (List.cons_ne_nil e es) [c, d] b).symm
  · exact (following_append (List.cons_ne_nil d rest) [c] b).symm

/-- Behind a break, the lines of a text are the lines before and the lines of what follows. -/
theorem lines_append {a : List Char} (b : List Char) (h : ∀ c ∈ a.getLast?, isBreak c = true) :
    lines (a ++ b) = lines a ++ lines (following a b) := by
  -- line by line through the first chunk, which keeps its last character until it is used up
  induction hn : a.length using Nat.strongRecOn generalizing a with
  | ind n ih =>
      subst hn
      by_cases ha : a = []
      · subst ha
        simp [following]
      · obtain ⟨line, c, rest, rfl, hline, hc⟩ := exists_line_of_getLast? ha h
        rw [List.append_assoc, List.cons_append, lines_append_cons hline hc,
          lines_append_cons hline hc, following_append (List.cons_ne_nil c rest)]
        cases rest with
        | nil =>
            -- only here can the break reach into what comes behind
            rw [List.nil_append, dropBreak_cons]
            simp [dropBreak]
        | cons d ds =>
            have hlen := length_dropBreak_cons c (d :: ds)
            rw [← List.cons_append, dropBreak_append, ih _ _ _ rfl, following_dropBreak]
            · rfl
            · simp only [List.length_append, List.length_cons] at hlen ⊢
              omega
            · intro e he
              apply h
              simpa using mem_getLast?_of_dropBreak he

end LineLexer.Text
