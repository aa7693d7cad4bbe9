import LineLexer.LineScan
import LineLexer.Proofs.Lexeme.Munch

/-!
Calls of the classifier stay within their line. A call made without any clamps, in which a request
beyond the line is refused, is never refused anything and has the same outcome; it gives the line
up, passes over one blank, or makes a token of the characters that it moves over. A line is
therefore scanned in no more calls than it has characters.
-/

namespace LineLexer

namespace Classifier

/-! ### Calls without clamps -/

/-- Nothing is clamped: what reaches beyond the line, or ends before it starts, is refused. A string
has two quotes at least, and only a preview may reach beyond the line, by the longest context. -/
def strict : Handling Option where
  advance c n :=
    if h : c.offset + n ≤ c.chars.size then some { c with offset := c.offset + n, offset_le := h }
    else none
  slice c first last :=
    if first ≤ last ∧ last ≤ c.chars.size then
      some (String.ofList (c.chars.extract first last).toList)
    else none
  preview c n :=
    if c.offset + n ≤ c.chars.size + Diagnostic.longestContext then some (c.preview n) else none
  width first last :=
    if first ≤ last + 1 ∧ 2 ≤ last + 1 - first then some (last + 1 - first) else none

theorem lawful_strict : strict.Lawful where
  advance := by
    intro c n h
    have fits : c.offset + n ≤ c.chars.size := by
      rw [← c.length_text, ← c.offset_add_length_ahead]
      omega
    refine (dif_pos fits).trans (congrArg some ?_)
    ext1
    · rfl
    · rfl
    · exact (Nat.min_eq_left fits).symm
  slice := by
    intro c first last hf hl
    rw [Cursor.slice, Nat.min_eq_left hl, Nat.min_eq_left hf]
    exact if_pos ⟨hf, hl⟩
  preview c o := by
    have small : 2 * o.width < UInt64.size :=
      Nat.lt_of_le_of_lt (Nat.mul_le_mul_left 2 o.width_le) (by decide)
    rw [← Cursor.preview_eq (Cursor.lt_wordSize_of_le (.inr small))]
    exact if_pos (Nat.add_le_add c.offset_le o.width_le)
  width := by
    intro first last h
    exact if_pos (by omega)

theorem scanToken_strict {s : State} {c : Char} {rest : List Char}
    (ha : s.cursor.ahead = c :: rest) (o : Options) :
    scanToken strict o s = some (Id.run (scanToken clamped o s)) := by
  rw [scanToken_clamped ha]
  exact scanToken_eq lawful_strict ha o

/-! ### What a call makes of a scan -/

/-- A scan goes on behind a blank, or behind a token of the characters that the call moved over and
told of; a call that gives the line up leaves the tokens as they are. -/
inductive Progress (s : State) : Verdict × State → Prop
  | blank {c : Char} {next : State} (current?_eq : s.cursor.current? = some c)
      (hb : Text.isBlank c = true) (offset_eq : next.cursor.offset = s.cursor.offset + 1)
      (found_eq : next.found = s.found) (told_eq : next.told = s.told) : Progress s (.goOn, next)
  | token {t : Token} {next : State} (length_pos : 0 < t.lexeme.length)
      (offset_eq : next.cursor.offset = s.cursor.offset + t.lexeme.length)
      (found_eq : next.found = s.found.push t) (told_eq : next.told = s.told.push (.token t)) :
      Progress s (.goOn, next)
  | givenUp {diagnostic : Option Diagnostic} {next : State} (found_eq : next.found = s.found)
      (told_eq : next.told = s.told) : Progress s (.giveUp diagnostic, next)

theorem progress_scanToken (o : Options) {s : State} {c : Char} {rest : List Char}
    (ha : s.cursor.ahead = c :: rest) : Progress s (Id.run (scanToken clamped o s)) := by
  have current?_eq : s.cursor.current? = some c := by
    rw [Cursor.current?_eq, ha, List.head?_cons]
  rw [scanToken_clamped ha]
  cases hs : Lexeme.step o.vocabulary c rest with
  | blank =>
      have hd := Lexeme.decided_step o.vocabulary c rest
      rw [hs] at hd
      cases hd with
      | blank hb => exact .blank current?_eq hb (by simp [Cursor.offset_skip, ha]) rfl rfl
  | lexeme kind width =>
      obtain ⟨hw, hl⟩ := Lexeme.width_of_step hs
      have moved : (s.cursor.skip width).offset = s.cursor.offset + width := by
        rw [Cursor.offset_skip, ha]
        simp
        omega
      have shown : (s.cursor.next width).length = width := by
        rw [Cursor.next, ha]
        simp
        omega
      exact .token (by rw [shown]; exact hw) (by rw [shown]; exact moved) rfl rfl
  | stop cause =>
      cases cause with
      | unrecognizedCharacter => exact .givenUp rfl rfl
      | unterminatedString => exact .givenUp rfl rfl

end Classifier

namespace LineScan

open Classifier

/-- The loop over a line with no more than some number of calls, if these are enough. -/
def scanLineWithin {m : Type → Type} [Monad m] (h : Handling m) (o : Options) :
    Nat → State → m (Option (Array Token × Array Event × Ending))
  | 0, s => return if s.cursor.atEnd then some (s.found, s.told, .complete) else none
  | calls + 1, s => do
    if s.cursor.atEnd then return some (s.found, s.told, .complete)
    match ← scanToken h o s with
    | (.goOn, next) => scanLineWithin h o calls next
    | (.giveUp diagnostic, next) => return some (next.found, next.told, .abandoned diagnostic)

theorem scanLineWithin_strict (o : Options) {calls : Nat} {s : State}
    (h : s.cursor.ahead.length ≤ calls) :
    scanLineWithin strict o calls s = some (some (scanLine o s)) := by
  -- On the calls that are left: each that goes on has used up a character at least.
  induction calls generalizing s with
  | zero =>
      have ha : s.cursor.ahead = [] := List.length_eq_zero_iff.mp (by omega)
      rw [scanLineWithin, if_pos (s.cursor.atEnd_iff.mpr ha), scanLine_nil o ha]
      rfl
  | succ calls ih =>
      cases ha : s.cursor.ahead with
      | nil =>
          rw [scanLineWithin, if_pos (s.cursor.atEnd_iff.mpr ha), scanLine_nil o ha]
          rfl
      | cons c rest =>
          have he : ¬ s.cursor.atEnd = true := by simp [Cursor.atEnd_iff, ha]
          rw [scanLineWithin, if_neg he, scanToken_strict ha, scanLine_cons o ha,
            ← scanToken_clamped ha]
          cases hs : Id.run (scanToken clamped o s) with
          | mk verdict next =>
              cases verdict with
              | goOn =>
                  have shorter := length_ahead_of_goOn he hs
                  exact ih (by omega)
              | giveUp diagnostic => rfl

/-- In front of a character a call makes progress, and nothing that it asks for has to be clamped;
the calls on a line are at most as many as its characters. -/
theorem scanToken_within_line (o : Options) (s : State) :
    (s.cursor.atEnd = false →
      scanToken strict o s = some (Id.run (scanToken clamped o s)) ∧
        Progress s (Id.run (scanToken clamped o s))) ∧
      scanLineWithin strict o s.cursor.ahead.length s = some (some (scanLine o s)) := by
  refine ⟨fun h => ?_, scanLineWithin_strict o (Nat.le_refl _)⟩
  cases ha : s.cursor.ahead with
  | nil =>
      rw [s.cursor.atEnd_iff.mpr ha] at h
      cases h
  | cons c rest => exact ⟨scanToken_strict ha o, progress_scanToken o ha⟩

theorem scanToken_within_line_quoted :
    let s : State := ⟨.start 3 ['"', 'a', '"', ' ', '@'], #[], #[]⟩
    s.cursor.atEnd = false ∧ Progress s (Id.run (scanToken clamped {} s)) ∧
      scanLineWithin strict {} 5 s =
        some (some (#[⟨.string, "\"a\"", 3⟩], #[.token ⟨.string, "\"a\"", 3⟩],
          .diagnosed (.unrecognized 3 '@' "@"))) := by
  have within := scanToken_within_line {} ⟨.start 3 ['"', 'a', '"', ' ', '@'], #[], #[]⟩
  exact ⟨by decide, (within.1 (by decide)).2, within.2.trans (by decide +kernel)⟩

end LineScan
end LineLexer
