import LineLexer.Proofs.Lexeme.Munch

/-!
Lexemes side by side. A lexeme stays whole in front of a text unless the next character continues
it, and whether another lexeme starts with such a character depends only on the two classes.
-/

namespace LineLexer.Lexeme

/-- What makes a longer lexeme of a lexeme. -/
inductive Continues : List Char → Char → Prop
  | digit {l : List Char} {c : Char} (hl : IsNumber l) (hc : c.isDigit = true) : Continues l c
  | part {l : List Char} {c : Char} (hl : IsWord l) (hc : Text.isWordPart c = true) : Continues l c
  | second {d c : Char} {k : Token.Kind} (h : ([d, c], k) ∈ spellings) : Continues [d] c

/-- The pairs of lexemes that need a blank between them. -/
inductive Glues : List Char → List Char → Prop
  | words {l m : List Char} (hl : IsWord l) (hm : IsWord m) : Glues l m
  | wordNumber {l m : List Char} (hl : IsWord l) (hm : IsNumber m) : Glues l m
  | numbers {l m : List Char} (hl : IsNumber l) (hm : IsNumber m) : Glues l m
  | equal {l m : List Char} (hl : l ∈ [['='], ['!'], ['<']]) (hm : m ∈ [['='], ['=', '=']]) :
      Glues l m
  | star {m : List Char} (hm : m ∈ [['*'], ['*', '*']]) : Glues ['*'] m

/-! ### The next character -/

theorem Continues.isLexeme {l : List Char} {c : Char} (h : Continues l c) : IsLexeme (l ++ [c]) := by
  cases h with
  | digit hl hc =>
      refine .number ⟨List.concat_ne_nil c l, ?_⟩
      exact List.forall_mem_append.mpr ⟨hl.2, List.forall_mem_singleton.mpr hc⟩
  | part hl hc =>
      cases l with
      | nil => exact hl.elim
      | cons d ds =>
          refine .word ⟨hl.1, ?_⟩
          exact List.forall_mem_append.mpr ⟨hl.2, List.forall_mem_singleton.mpr hc⟩
  | second h => exact .fixed h

/-- If a lexeme begins a longer one, the character behind it continues it. -/
theorem IsLexeme.continues {l m : List Char} {c : Char} (h : IsLexeme l)
    (hm : IsLexeme (l ++ c :: m)) : Continues l c := by
  have hc : c ∈ l ++ c :: m := by simp
  cases l with
  | nil => exact absurd rfl h.ne_nil
  | cons d ds =>
      cases h with
      | fixed h =>
          obtain ⟨k, hk⟩ := hm.exists_spelling (opening_of_mem_spellings h)
          rcases (spelling_shape hk).2 with hnil | ⟨e, he, _⟩
          · simp at hnil
          · rcases List.append_eq_singleton_iff.mp he with ⟨rfl, hcm⟩ | ⟨_, hcm⟩
            · obtain ⟨rfl, rfl⟩ := List.cons.inj hcm
              exact .second hk
            · cases hcm
      | number h => exact .digit h ((hm.isNumber (h.2 d List.mem_cons_self)).2 c hc)
      | word h => exact .part h ((hm.isWord h.1).2 c (by simp))
      | string h =>
          -- the closing quote of the first would stand inside the second
          obtain rfl := opening_eq_quote_iff.mp (opening_of_isString h)
          have same := isString_unique h hm.isString (List.prefix_append _ _) (List.prefix_refl _)
          simp at same

theorem isLongest_append_iff {l rest : List Char} (h : IsLexeme l) :
    IsLongest (l ++ rest) l ↔ ∀ c ∈ rest.head?, ¬ Continues l c := by
  constructor
  · intro hl c hc hcont
    obtain ⟨ds, rfl⟩ := List.head?_eq_some_iff.mp hc
    have longer := hl.longest (l ++ [c]) hcont.isLexeme ⟨ds, by simp⟩
    simp at longer
  · intro hrest
    refine ⟨h, List.prefix_append l rest, ?_⟩
    intro m hm hpre
    rcases List.prefix_or_prefix_of_prefix hpre (List.prefix_append l rest) with hml | ⟨q, rfl⟩
    · exact hml.length_le
    · cases q with
      | nil => rw [List.append_nil]
      | cons c q =>
          obtain ⟨s, rfl⟩ := (List.prefix_append_right_inj l).mp hpre
          exact absurd (h.continues hm) (hrest c rfl)

theorem not_continues_of_isBlank {l : List Char} {c : Char} (h : Text.isBlank c = true) :
    ¬ Continues l c := by
  rintro (⟨_, hc⟩ | ⟨_, hc⟩ | hk)
  · rcases isBlank_iff.mp h with rfl | rfl <;> cases hc
  · rcases isBlank_iff.mp h with rfl | rfl <;> cases hc
  · rcases isBlank_iff.mp h with rfl | rfl <;> simp [spellings] at hk

/-! ### The next lexeme -/

theorem IsLexeme.mem_repeated {m : List Char} {c : Char} (h : IsLexeme (c :: m))
    (hc : c = '=' ∨ c = '*') : c :: m ∈ [[c], [c, c]] := by
  have ho : opening c = .other := by rcases hc with rfl | rfl <;> decide
  obtain ⟨k, hk⟩ := h.exists_spelling ho
  have repeated : ∀ p ∈ spellings, ∀ c m, p.1 = c :: m → c = '=' ∨ c = '*' →
      c :: m ∈ [[c], [c, c]] := by
    simp [spellings]
  exact repeated _ hk c m rfl hc

/-- Two lexemes glue exactly if the second starts with a character that continues the first. -/
theorem glues_cons_iff {l m : List Char} {c : Char} (hm : IsLexeme (c :: m)) :
    Glues l (c :: m) ↔ Continues l c := by
  constructor
  · intro h
    cases h with
    | words hl hm => exact .part hl (Text.isWordPart_of_isWordStart hm.1)
    | wordNumber hl hm => exact .part hl (Text.isWordPart_of_isDigit (hm.2 c List.mem_cons_self))
    | numbers hl hm => exact .digit hl (hm.2 c List.mem_cons_self)
    | equal hl hm =>
        have head : ∀ l ∈ [['='], ['=', '=']], ∀ d ∈ l.head?, d = '=' := by simp
        obtain rfl := head _ hm c rfl
        have pairs : ∀ l ∈ [['='], ['!'], ['<']], ∃ d k, l = [d] ∧ ([d, '='], k) ∈ spellings := by
          simp [spellings]
        obtain ⟨d, k, rfl, hk⟩ := pairs l hl
        exact .second hk
    | star hm =>
        have head : ∀ l ∈ [['*'], ['*', '*']], ∀ d ∈ l.head?, d = '*' := by simp
        obtain rfl := head _ hm c rfl
        have pair : (['*', '*'], .power) ∈ spellings := by simp [spellings]
        exact .second pair
  · intro h
    cases h with
    | digit hl hc => exact .numbers hl (hm.isNumber hc)
    | part hl hc =>
        rcases isWordStart_or_isDigit hc with hc | hc
        · exact .words hl (hm.isWord hc)
        · exact .wordNumber hl (hm.isNumber hc)
    | @second d _ k h =>
        have pairs : ∀ p ∈ spellings, ∀ d c, p.1 = [d, c] →
            c = '=' ∧ [d] ∈ [['='], ['!'], ['<']] ∨ c = '*' ∧ d = '*' := by
          simp [spellings]
        rcases pairs _ h d c rfl with ⟨rfl, hd⟩ | ⟨rfl, rfl⟩
        · exact .equal hd (hm.mem_repeated (.inl rfl))
        · exact .star (hm.mem_repeated (.inr rfl))

end LineLexer.Lexeme
