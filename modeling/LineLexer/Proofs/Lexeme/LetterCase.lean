import LineLexer.Proofs.LineScan.Determinism
import LineLexer.Proofs.Text.LetterCase

/-!
Decisions up to the case of ASCII letters. In front of a text and in front of its small letters the
same step is right, so that the longest lexemes of both are the same part of the text and have one
kind.
-/

namespace LineLexer

namespace Vocabulary

theorem classify_congr (v : Vocabulary) {l l' : String} (h : l.toUpper = l'.toUpper) :
    v.classify l = v.classify l' := by
  have same : v.lookup? l = v.lookup? l' := by
    apply Option.ext
    intro k
    rw [lookup?_eq_some_iff, lookup?_eq_some_iff, h]
  rw [classify, same, classify]

theorem classify_toLower (v : Vocabulary) (cs : List Char) :
    v.classify (String.ofList (cs.map Char.toLower)) = v.classify (String.ofList cs) := by
  apply classify_congr
  rw [← Text.toLower_ofList, Text.toUpper_toLower]

theorem classify_of_isForeign (v : Vocabulary) {word : String} {c : Char} (hc : c ∈ word.toList)
    (h : Text.IsForeign c) : v.classify word = .identifier := by
  rw [classify_eq_identifier_iff]
  intro k _ hk
  have ascii : ∀ d ∈ k.spelling.toList, d.toNat ≤ 127 := by
    cases k <;> simp [Keyword.spelling]
  have hu : c.toUpper = c := by
    apply Char.toUpper_eq_of_not_isLower
    intro hl
    have ha := h.isAlpha_eq_false
    rw [Char.isAlpha, hl, Bool.or_true] at ha
    cases ha
  have hm : c.toUpper ∈ k.spelling.toList := by
    rw [hk, String.toUpper, String.toList_map]
    exact List.mem_map_of_mem hc
  rw [hu] at hm
  exact h.ne_of_ascii (ascii c hm) rfl

end Vocabulary

namespace Lexeme

theorem pair?_toLower (c d : Char) : pair? c.toLower d.toLower = pair? c d := by
  have first (d : Char) : pair? c.toLower d = pair? c d := by
    apply Text.apply_toLower (f := (pair? · d)) (a := none)
    intro c hc
    fun_cases pair? c d <;> simp_all
  rw [first]
  apply Text.apply_toLower (a := none)
  intro d hd
  fun_cases pair? c d <;> simp_all

theorem single?_toLower (c : Char) : single? c.toLower = single? c := by
  apply Text.apply_toLower (a := none)
  intro c hc
  fun_cases single? c <;> simp_all

theorem fixed?_toLower (c : Char) (rest : List Char) :
    fixed? c.toLower (rest.map Char.toLower) = fixed? c rest := by
  cases rest <;> simp [fixed?, pair?_toLower, single?_toLower]

theorem step_toLower (v : Vocabulary) (c : Char) (rest : List Char) :
    step v c.toLower (rest.map Char.toLower) = step v c rest := by
  have hq : '"'.isAlpha = false := by decide
  have inside (d : Char) : (d.toLower != '"') = (d != '"') := by
    rw [bne, bne, Text.beq_toLower d hq]
  have body := Text.takeWhile_toLower rest (p := (· != '"')) inside
  have close := Text.dropWhile_toLower rest (p := (· != '"')) inside
  have digits := Text.takeWhile_toLower rest Text.isDigit_toLower
  have word := Text.takeWhile_toLower rest Text.isWordPart_toLower
  simp only [step, Text.isBlank_toLower, Text.beq_toLower c hq, Text.isDigit_toLower,
    Text.isWordStart_toLower, fixed?_toLower, body, close, digits, word, ← List.map_cons,
    v.classify_toLower, List.length_map]
  cases rest.dropWhile (· != '"') <;> rfl

theorem Decided.toLower {v : Vocabulary} {text : List Char} {s : Step} (h : Decided v text s) :
    Decided v (text.map Char.toLower) s := by
  cases text with
  | nil =>
      cases h with
      | lexeme hl _ => exact absurd (List.prefix_nil.mp hl.starts) hl.isLexeme.ne_nil
  | cons c rest =>
      have hd := decided_step v c.toLower (rest.map Char.toLower)
      rwa [step_toLower, h.step_eq] at hd

/-- What no lexeme begins with is no letter. -/
theorem Decided.isAlpha_eq_false {v : Vocabulary} {c : Char} {rest : List Char}
    {cause : Diagnostic.Cause} (h : Decided v (c :: rest) (.stop cause)) : c.isAlpha = false := by
  rw [Bool.eq_false_iff]
  intro hc
  have hs : Text.isWordStart c = true := by rw [Text.isWordStart, hc, Bool.true_or]
  have hw : IsWord [c] := ⟨hs, by simp⟩
  exact absurd (.word hw) (h.stuck.not_isLexeme ⟨rest, rfl⟩)

theorem Decided.exists_lexeme {v : Vocabulary} {text : List Char} {kind : Token.Kind} {width : Nat}
    (h : Decided v text (.lexeme kind width)) :
    ∃ l, l.length = width ∧ IsLongest text l ∧ HasKind v l kind := by
  cases h with
  | @lexeme _ l _ hl hk => exact ⟨l, rfl, hl, hk⟩

theorem IsLongest.toLower {v : Vocabulary} {l rest : List Char} {kind : Token.Kind}
    (h : IsLongest (l ++ rest) l) (hk : HasKind v l kind) :
    IsLongest (l.map Char.toLower ++ rest.map Char.toLower) (l.map Char.toLower) ∧
      HasKind v (l.map Char.toLower) kind := by
  have hd : Decided v (l ++ rest) (.lexeme kind l.length) := .lexeme h hk
  obtain ⟨m, hlen, hm, hmk⟩ := hd.toLower.exists_lexeme
  rw [List.map_append] at hm
  have hlen : m.length = (l.map Char.toLower).length := by rw [hlen, List.length_map]
  have hpre := List.prefix_of_prefix_length_le hm.starts (List.prefix_append _ _) hlen.le
  obtain rfl := hpre.eq_of_length hlen
  exact ⟨hm, hmk⟩

end Lexeme

end LineLexer
