import LineLexer.Lexeme
import LineLexer.Proofs.Vocabulary.Lookup

/-!
The lexemes of the language, class by class and without a scanner: fixed spellings, numbers, words
and strings. The first character of a lexeme tells its class, hence a lexeme has exactly one kind.
-/

namespace LineLexer.Lexeme

/-- The lexemes of a fixed spelling, each with its kind. -/
def spellings : List (List Char × Token.Kind) :=
  [([';'], .semicolon), (['('], .leftParen), ([')'], .rightParen), (['\x7b'], .leftBrace),
    (['\x7d'], .rightBrace), (['+'], .plus), (['-'], .minus), (['/'], .slash), (['^'], .power),
    (['*'], .star), (['*', '*'], .power), (['='], .equal), (['=', '='], .equalEqual),
    (['!'], .bang), (['!', '='], .bangEqual), (['<'], .less), (['<', '='], .lessEqual)]

def IsNumber (l : List Char) : Prop := l ≠ [] ∧ ∀ c ∈ l, c.isDigit = true

def IsWord : List Char → Prop
  | [] => False
  | c :: cs => Text.isWordStart c = true ∧ ∀ d ∈ cs, Text.isWordPart d = true

/-- A string ends with the first quote behind the one that opens it. -/
def IsString (l : List Char) : Prop := ∃ body, '"' ∉ body ∧ l = '"' :: (body ++ ['"'])

inductive IsLexeme : List Char → Prop
  | fixed {l : List Char} {k : Token.Kind} (h : (l, k) ∈ spellings) : IsLexeme l
  | number {l : List Char} (h : IsNumber l) : IsLexeme l
  | word {l : List Char} (h : IsWord l) : IsLexeme l
  | string {l : List Char} (h : IsString l) : IsLexeme l

/-- The kind of a lexeme. A word is compared with the reserved ones in capitals. -/
inductive HasKind (v : Vocabulary) : List Char → Token.Kind → Prop
  | fixed {l : List Char} {k : Token.Kind} (h : (l, k) ∈ spellings) : HasKind v l k
  | number {l : List Char} (h : IsNumber l) : HasKind v l .number
  | keyword {l : List Char} {k : Keyword} (h : IsWord l) (hk : k ∈ v.reserved)
      (hs : k.spelling.toList = l.map Char.toUpper) : HasKind v l (.keyword k)
  | identifier {l : List Char} (h : IsWord l)
      (hs : ∀ k ∈ v.reserved, k.spelling.toList ≠ l.map Char.toUpper) : HasKind v l .identifier
  | string {l : List Char} (h : IsString l) : HasKind v l .string

/-! ### The first character -/

/-- What a character can be the first of. -/
inductive Opening
  | blank | quote | digit | word | other
  deriving DecidableEq

def opening (c : Char) : Opening :=
  if Text.isBlank c then .blank
  else if c = '"' then .quote
  else if c.isDigit then .digit
  else if Text.isWordStart c then .word
  else .other

section

variable {c : Char} {cs : List Char}

/-- All white space but blanks and tabs ends lines. -/
theorem isBlank_iff : Text.isBlank c = true ↔ c = ' ' ∨ c = '\t' := by
  constructor
  · intro h
    rw [Text.isBlank, Bool.and_eq_true, Text.isSpace, List.contains_iff_mem] at h
    obtain ⟨hs, hb⟩ := h
    simp only [List.mem_cons, List.not_mem_nil, or_false] at hs
    rcases hs with rfl | rfl | rfl | rfl | rfl
    · exact .inl rfl
    · exact .inr rfl
    all_goals cases hb
  · rintro (rfl | rfl) <;> decide

theorem isWordStart_or_isDigit (h : Text.isWordPart c = true) :
    Text.isWordStart c = true ∨ c.isDigit = true := by
  simp only [Text.isWordPart, Text.isWordStart, Char.isAlphanum, Bool.or_eq_true] at h ⊢
  tauto

theorem isDigit_eq_false_of_isWordStart (h : Text.isWordStart c = true) : c.isDigit = false := by
  rw [Bool.eq_false_iff]
  intro hd
  have hn := Char.isDigit_iff_toNat.mp hd
  change 48 ≤ c.val.toNat ∧ c.val.toNat ≤ 57 at hn
  simp only [Text.isWordStart, Char.isAlpha, Char.isUpper, Char.isLower, Bool.or_eq_true,
    Bool.and_eq_true, decide_eq_true_eq, ge_iff_le, UInt32.le_iff_toNat_le, beq_iff_eq] at h
  rcases h with (hu | hl) | rfl
  · change 65 ≤ c.val.toNat ∧ c.val.toNat ≤ 90 at hu
    omega
  · change 97 ≤ c.val.toNat ∧ c.val.toNat ≤ 122 at hl
    omega
  · simp at hd

theorem opening_eq_blank_iff : opening c = .blank ↔ Text.isBlank c = true := by
  grind [opening]

theorem opening_eq_quote_iff : opening c = .quote ↔ c = '"' := by
  constructor
  · grind [opening]
  · rintro rfl
    decide

theorem opening_eq_digit_iff : opening c = .digit ↔ c.isDigit = true := by
  constructor
  · grind [opening]
  · intro h
    have hb : ¬ Text.isBlank c = true := by
      intro hb
      rcases isBlank_iff.mp hb with rfl | rfl <;> simp at h
    have hq : c ≠ '"' := by
      rintro rfl
      simp at h
    rw [opening, if_neg hb, if_neg hq, if_pos h]

theorem opening_eq_word_iff : opening c = .word ↔ Text.isWordStart c = true := by
  constructor
  · grind [opening]
  · intro h
    have hb : ¬ Text.isBlank c = true := by
      intro hb
      rcases isBlank_iff.mp hb with rfl | rfl <;> cases h
    have hq : c ≠ '"' := by
      rintro rfl
      cases h
    have hd := isDigit_eq_false_of_isWordStart h
    rw [opening, if_neg hb, if_neg hq, if_neg (Bool.eq_false_iff.mp hd), if_pos h]

theorem opening_of_mem_spellings {k : Token.Kind} (h : (c :: cs, k) ∈ spellings) :
    opening c = .other := by
  have all : ∀ p ∈ spellings, ∀ d ∈ p.1.head?, opening d = .other := by
    simp [spellings, opening, Text.isBlank, Text.isSpace, Text.isWordStart]
  exact all _ h c rfl

theorem opening_of_isNumber (h : IsNumber (c :: cs)) : opening c = .digit :=
  opening_eq_digit_iff.mpr (h.2 c List.mem_cons_self)

theorem opening_of_isWord (h : IsWord (c :: cs)) : opening c = .word :=
  opening_eq_word_iff.mpr h.1

theorem opening_of_isString (h : IsString (c :: cs)) : opening c = .quote := by
  obtain ⟨body, _, hl⟩ := h
  exact opening_eq_quote_iff.mpr (List.cons.inj hl).1

/-- The opening of a lexeme tells its class. -/
theorem IsLexeme.of_opening (h : IsLexeme (c :: cs)) :
    match opening c with
    | .blank => False
    | .quote => IsString (c :: cs)
    | .digit => IsNumber (c :: cs)
    | .word => IsWord (c :: cs)
    | .other => ∃ k, (c :: cs, k) ∈ spellings := by
  cases h with
  | fixed h => rw [opening_of_mem_spellings h]; exact ⟨_, h⟩
  | number h => rw [opening_of_isNumber h]; exact h
  | word h => rw [opening_of_isWord h]; exact h
  | string h => rw [opening_of_isString h]; exact h

theorem IsLexeme.isString (h : IsLexeme ('"' :: cs)) : IsString ('"' :: cs) := by
  have hs := h.of_opening
  rw [opening_eq_quote_iff.mpr rfl] at hs
  exact hs

theorem IsLexeme.isNumber (h : IsLexeme (c :: cs)) (hc : c.isDigit = true) : IsNumber (c :: cs) := by
  have hn := h.of_opening
  rw [opening_eq_digit_iff.mpr hc] at hn
  exact hn

theorem IsLexeme.isWord (h : IsLexeme (c :: cs)) (hc : Text.isWordStart c = true) :
    IsWord (c :: cs) := by
  have hw := h.of_opening
  rw [opening_eq_word_iff.mpr hc] at hw
  exact hw

theorem IsLexeme.exists_spelling (h : IsLexeme (c :: cs)) (hc : opening c = .other) :
    ∃ k, (c :: cs, k) ∈ spellings := by
  have hk := h.of_opening
  rw [hc] at hk
  exact hk

theorem IsLexeme.isBlank_eq_false (h : IsLexeme (c :: cs)) : Text.isBlank c = false := by
  rw [Bool.eq_false_iff]
  intro hb
  have hf := h.of_opening
  rw [opening_eq_blank_iff.mpr hb] at hf
  exact hf

end

theorem IsLexeme.ne_nil {l : List Char} (h : IsLexeme l) : l ≠ [] := by
  rintro rfl
  cases h with
  | fixed h => simp [spellings] at h
  | number h => exact h.1 rfl
  | word h => exact h
  | string h =>
      obtain ⟨body, _, hl⟩ := h
      cases hl

theorem IsLexeme.exists_tail {m rest : List Char} {c : Char} (h : IsLexeme m)
    (hpre : m <+: c :: rest) : ∃ tail, m = c :: tail ∧ tail <+: rest := by
  cases m with
  | nil => exact absurd rfl h.ne_nil
  | cons d tail =>
      obtain ⟨rfl, htail⟩ := List.cons_prefix_cons.mp hpre
      exact ⟨tail, rfl, htail⟩

/-! ### Kinds -/

theorem spelling_eq_iff {k : Keyword} {l : List Char} :
    k.spelling = (String.ofList l).toUpper ↔ k.spelling.toList = l.map Char.toUpper := by
  rw [← String.toList_inj, String.toUpper, String.toList_map, String.toList_ofList]

theorem hasKind_classify (v : Vocabulary) {l : List Char} (h : IsWord l) :
    HasKind v l (v.classify (String.ofList l)) := by
  by_cases hk : ∃ k ∈ v.reserved, k.spelling.toList = l.map Char.toUpper
  · obtain ⟨k, hk, hs⟩ := hk
    rw [Vocabulary.classify_eq_keyword_iff.mpr ⟨hk, spelling_eq_iff.mpr hs⟩]
    exact .keyword h hk hs
  · have none : ∀ k ∈ v.reserved, k.spelling.toList ≠ l.map Char.toUpper :=
      fun k hr hs => hk ⟨k, hr, hs⟩
    rw [Vocabulary.classify_eq_identifier_iff.mpr fun k hr hs => none k hr (spelling_eq_iff.mp hs)]
    exact .identifier h none

theorem IsLexeme.exists_hasKind {l : List Char} (h : IsLexeme l) (v : Vocabulary) :
    ∃ k, HasKind v l k := by
  cases h with
  | fixed h => exact ⟨_, .fixed h⟩
  | number h => exact ⟨_, .number h⟩
  | word h => exact ⟨_, hasKind_classify v h⟩
  | string h => exact ⟨_, .string h⟩

section

variable {v : Vocabulary} {l : List Char} {k : Token.Kind}

theorem HasKind.isLexeme (h : HasKind v l k) : IsLexeme l := by
  cases h with
  | fixed h => exact .fixed h
  | number h => exact .number h
  | keyword h | identifier h => exact .word h
  | string h => exact .string h

theorem HasKind.of_opening {c : Char} {cs : List Char} (h : HasKind v (c :: cs) k) :
    match opening c with
    | .blank => False
    | .quote => k = .string
    | .digit => k = .number
    | .word => k = v.classify (String.ofList (c :: cs))
    | .other => (c :: cs, k) ∈ spellings := by
  cases h with
  | fixed h => rw [opening_of_mem_spellings h]; exact h
  | number h => rw [opening_of_isNumber h]
  | string h => rw [opening_of_isString h]
  | keyword h hk hs =>
      rw [opening_of_isWord h]
      exact (Vocabulary.classify_eq_keyword_iff.mpr ⟨hk, spelling_eq_iff.mpr hs⟩).symm
  | identifier h hs =>
      rw [opening_of_isWord h]
      refine (Vocabulary.classify_eq_identifier_iff.mpr fun k hr hk => ?_).symm
      exact hs k hr (spelling_eq_iff.mp hk)

/-- No lexeme has two kinds. -/
theorem HasKind.unique {k' : Token.Kind} (h : HasKind v l k) (h' : HasKind v l k') : k = k' := by
  cases l with
  | nil => exact absurd rfl h.isLexeme.ne_nil
  | cons c cs =>
      have a := h.of_opening
      have b := h'.of_opening
      cases ho : opening c with
      | blank => simp only [ho] at a
      | quote | digit | word => simp only [ho] at a b; exact a.trans b.symm
      | other =>
          simp only [ho] at a b
          have one : ∀ p ∈ spellings, ∀ q ∈ spellings, p.1 = q.1 → p.2 = q.2 := by decide
          exact one _ a _ b rfl

end

end LineLexer.Lexeme
