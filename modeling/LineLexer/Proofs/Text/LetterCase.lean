import Mathlib
import LineLexer.Proofs.Lexeme.Class
import LineLexer.Proofs.Text.Chunks

/-!
Texts up to the case of ASCII letters. No class of characters tells a capital from its small letter,
and lines end at the same places whatever the case of the letters on them.
-/

namespace LineLexer.Text

/-- One character, or a capital and its small letter among the ASCII ones. -/
def SameLetter (c d : Char) : Prop :=
  c = d ∨ c.isAlpha = true ∧ d.isAlpha = true ∧ c.toLower = d.toLower

/-- Texts of one length that agree at every position, up to the case of ASCII letters. -/
def Recased (s t : String) : Prop := List.Forall₂ SameLetter s.toList t.toList

section

variable {c d : Char}

theorem toLower_of_isAlpha_eq_false (h : c.isAlpha = false) : c.toLower = c := by
  apply Char.toLower_eq_of_not_isUpper
  intro hu
  rw [Char.isAlpha, hu] at h
  cases h

theorem sameLetter_iff : SameLetter c d ↔ c.toLower = d.toLower := by
  constructor
  · rintro (rfl | ⟨_, _, h⟩)
    · rfl
    · exact h
  · intro h
    have same : c.isAlpha = d.isAlpha := by
      rw [← Char.isAlpha_toLower_eq_isAlpha c, h, Char.isAlpha_toLower_eq_isAlpha]
    cases hc : c.isAlpha with
    | true => exact .inr ⟨hc, same ▸ hc, h⟩
    | false =>
        rw [toLower_of_isAlpha_eq_false hc, toLower_of_isAlpha_eq_false (same ▸ hc)] at h
        exact .inl h

end

instance : DecidableRel SameLetter := fun _ _ => decidable_of_iff _ sameLetter_iff.symm

instance (s t : String) : Decidable (Recased s t) :=
  inferInstanceAs (Decidable (List.Forall₂ SameLetter s.toList t.toList))

theorem recased_iff {s t : String} : Recased s t ↔ s.toLower = t.toLower := by
  have same : SameLetter = fun c d => c.toLower = d.toLower := by
    funext c d
    exact propext sameLetter_iff
  rw [← String.toList_inj, String.toLower, String.toLower, String.toList_map, String.toList_map,
    ← List.forall₂_eq_eq_eq, List.forall₂_map_left_iff, List.forall₂_map_right_iff, Recased, same]

/-! ### Strings -/

theorem toLower_ofList (cs : List Char) :
    (String.ofList cs).toLower = String.ofList (cs.map Char.toLower) := by
  rw [← String.toList_inj, String.toLower, String.toList_map, String.toList_ofList,
    String.toList_ofList]

theorem toLower_toUpper (s : String) : s.toUpper.toLower = s.toLower := by
  rw [← String.toList_inj, String.toLower, String.toUpper, String.toLower, String.toList_map,
    String.toList_map, String.toList_map, List.map_map]
  congr 1
  exact funext Char.toLower_toUpper_eq_toLower

theorem toUpper_toLower (s : String) : s.toLower.toUpper = s.toUpper := by
  rw [← String.toList_inj, String.toUpper, String.toLower, String.toUpper, String.toList_map,
    String.toList_map, String.toList_map, List.map_map]
  congr 1
  exact funext Char.toUpper_toLower_eq_toUpper

/-! ### Classes of characters -/

/-- What is one and the same on all letters does not see their case. -/
theorem apply_toLower {α : Type} {f : Char → α} {a : α} (h : ∀ c, c.isAlpha = true → f c = a)
    (c : Char) : f c.toLower = f c := by
  cases hc : c.isAlpha with
  | true => rw [h c hc, h _ ((Char.isAlpha_toLower_eq_isAlpha c).trans hc)]
  | false => rw [toLower_of_isAlpha_eq_false hc]

section

variable (c : Char)

/-- No character of a list without letters changes with the case of letters. -/
theorem contains_toLower {cs : List Char} (h : ∀ d ∈ cs, d.isAlpha = false) :
    cs.contains c.toLower = cs.contains c := by
  apply apply_toLower (a := false)
  intro d hd
  rw [Bool.eq_false_iff]
  intro hm
  rw [h d (List.contains_iff_mem.mp hm)] at hd
  cases hd

theorem beq_toLower {d : Char} (h : d.isAlpha = false) : (c.toLower == d) = (c == d) := by
  have one : ∀ e ∈ [d], e.isAlpha = false := by simpa using h
  simpa using contains_toLower c one

@[simp] theorem isBreak_toLower : isBreak c.toLower = isBreak c :=
  contains_toLower c (by simp)

@[simp] theorem isBlank_toLower : isBlank c.toLower = isBlank c := by
  rw [isBlank, isBreak_toLower, isSpace, contains_toLower c (by simp), isBlank, isSpace]

@[simp] theorem isDigit_toLower : c.toLower.isDigit = c.isDigit := by
  apply apply_toLower (a := false)
  intro d hd
  apply Lexeme.isDigit_eq_false_of_isWordStart
  rw [isWordStart, hd, Bool.true_or]

@[simp] theorem isWordStart_toLower : isWordStart c.toLower = isWordStart c := by
  rw [isWordStart, Char.isAlpha_toLower_eq_isAlpha, beq_toLower c (by decide), isWordStart]

@[simp] theorem isWordPart_toLower : isWordPart c.toLower = isWordPart c := by
  rw [isWordPart, Char.isAlphanum, Char.isAlpha_toLower_eq_isAlpha, isDigit_toLower,
    beq_toLower c (by decide), isWordPart, Char.isAlphanum]

end

/-! ### Lines -/

section

variable (text : List Char)

theorem takeWhile_toLower {p : Char → Bool} (hp : ∀ c, p c.toLower = p c) :
    (text.map Char.toLower).takeWhile p = (text.takeWhile p).map Char.toLower := by
  rw [List.takeWhile_map]
  congr 2
  exact funext hp

theorem dropWhile_toLower {p : Char → Bool} (hp : ∀ c, p c.toLower = p c) :
    (text.map Char.toLower).dropWhile p = (text.dropWhile p).map Char.toLower := by
  rw [List.dropWhile_map]
  congr 2
  exact funext hp

theorem firstLine_toLower : firstLine (text.map Char.toLower) = (firstLine text).map Char.toLower :=
  takeWhile_toLower text (by simp)

theorem dropBreak_toLower :
    dropBreak (text.map Char.toLower) = (dropBreak text).map Char.toLower := by
  cases text with
  | nil => rfl
  | cons c rest =>
      cases rest with
      | nil => simp [dropBreak]
      | cons d rest =>
          have hc : c.toLower = '\r' ↔ c = '\r' := by
            simpa using beq_toLower c (d := '\r') (by decide)
          have hd : d.toLower = '\n' ↔ d = '\n' := by
            simpa using beq_toLower d (d := '\n') (by decide)
          simp only [List.map_cons, dropBreak_cons_cons, hc, hd]
          split <;> rfl

theorem afterLine_toLower :
    afterLine (text.map Char.toLower) = (afterLine text).map Char.toLower := by
  rw [afterLine, dropWhile_toLower text (by simp), dropBreak_toLower, afterLine]

theorem lines_toLower :
    lines (text.map Char.toLower) = (lines text).map (·.map Char.toLower) := by
  fun_induction lines text with
  | case1 => rw [List.map_nil, lines_nil, List.map_nil]
  | case2 c cs ih =>
      rw [List.map_cons, lines_cons, ← List.map_cons, firstLine_toLower, afterLine_toLower, ih]
      rfl

end

/-! ### Characters outside of ASCII -/

/-- A character outside of ASCII that ends no line. -/
structure IsForeign (c : Char) : Prop where
  lt_toNat : 127 < c.toNat
  isBreak_eq_false : isBreak c = false

namespace IsForeign

variable {c : Char} (h : IsForeign c)

include h

theorem ne_of_ascii {d : Char} (hd : d.toNat ≤ 127) : c ≠ d := by
  rintro rfl
  exact Nat.not_lt.mpr hd h.lt_toNat

theorem isWordPart_eq_false : isWordPart c = false := by
  rw [Bool.eq_false_iff]
  intro hw
  have hu : c ≠ '_' := h.ne_of_ascii (by decide)
  simp only [isWordPart, Char.isAlphanum, Char.isAlpha, Char.isUpper, Char.isLower, Char.isDigit,
    Bool.or_eq_true, Bool.and_eq_true, decide_eq_true_eq, beq_iff_eq, hu, or_false, ge_iff_le,
    UInt32.le_iff_toNat_le] at hw
  have hlt : 127 < c.val.toNat := h.lt_toNat
  have : 'Z'.val.toNat = 90 := rfl
  have : 'z'.val.toNat = 122 := rfl
  have : '9'.val.toNat = 57 := rfl
  omega

theorem isAlpha_eq_false : c.isAlpha = false := by
  have hw := h.isWordPart_eq_false
  simp only [isWordPart, Char.isAlphanum, Bool.or_eq_false_iff] at hw
  exact hw.1.1

theorem isBlank_eq_false : isBlank c = false := by
  rw [Bool.eq_false_iff, ne_eq, Lexeme.isBlank_iff, not_or]
  exact ⟨h.ne_of_ascii (by decide), h.ne_of_ascii (by decide)⟩

theorem opening_eq : Lexeme.opening c = .other := by
  have hw := Bool.eq_false_iff.mp h.isWordPart_eq_false
  have hb := Bool.eq_false_iff.mp h.isBlank_eq_false
  have hd : ¬ c.isDigit = true := fun hd => hw (isWordPart_of_isDigit hd)
  have hs : ¬ isWordStart c = true := fun hs => hw (isWordPart_of_isWordStart hs)
  rw [Lexeme.opening, if_neg hb, if_neg (h.ne_of_ascii (by decide)), if_neg hd, if_neg hs]

theorem not_isLexeme (l : List Char) : ¬ Lexeme.IsLexeme (c :: l) := by
  intro hl
  obtain ⟨k, hk⟩ := hl.exists_spelling h.opening_eq
  have ascii : ∀ p ∈ Lexeme.spellings, ∀ d ∈ p.1.head?, d.toNat ≤ 127 := by
    simp [Lexeme.spellings]
  exact h.ne_of_ascii (ascii _ hk c rfl) rfl

theorem not_sameLetter {d : Char} (hne : c ≠ d) : ¬ SameLetter c d := by
  rintro (hc | ⟨hc, _, _⟩)
  · exact hne hc
  · rw [h.isAlpha_eq_false] at hc
    cases hc

end IsForeign

end LineLexer.Text
