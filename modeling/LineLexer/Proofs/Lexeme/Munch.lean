import LineLexer.Proofs.Lexeme.Class

/-!
Maximal munch. One look at the next character decides between lexemes of every length: what a step
takes is the longest lexeme that the text starts with, and it stops only where none starts.
-/

namespace LineLexer.Lexeme

/-- The longest of all lexemes that a text starts with. -/
structure IsLongest (text l : List Char) : Prop where
  isLexeme : IsLexeme l
  starts : l <+: text
  longest : ∀ m, IsLexeme m → m <+: text → m.length ≤ l.length

theorem IsLongest.unique {text l m : List Char} (hl : IsLongest text l) (hm : IsLongest text m) :
    l = m := by
  have hlm := hm.longest l hl.isLexeme hl.starts
  have hml := hl.longest m hm.isLexeme hm.starts
  exact (List.prefix_of_prefix_length_le hl.starts hm.starts hlm).eq_of_length (hlm.antisymm hml)

theorem IsLongest.isBlank_eq_false {c : Char} {rest l : List Char} (h : IsLongest (c :: rest) l) :
    Text.isBlank c = false := by
  obtain ⟨tail, rfl, _⟩ := h.isLexeme.exists_tail h.starts
  exact h.isLexeme.isBlank_eq_false

/-- Everything that a step can do in front of a text, with what makes it right. -/
inductive Decided (v : Vocabulary) : List Char → Step → Prop
  | blank {c : Char} {rest : List Char} (h : Text.isBlank c = true) : Decided v (c :: rest) .blank
  | lexeme {text l : List Char} {k : Token.Kind} (h : IsLongest text l) (hk : HasKind v l k) :
      Decided v text (.lexeme k l.length)
  | unrecognized {c : Char} {rest : List Char} (hb : Text.isBlank c = false) (hq : c ≠ '"')
      (h : ∀ l, ¬ IsLexeme (c :: l)) : Decided v (c :: rest) (.stop .unrecognizedCharacter)
  | unterminated {rest : List Char} (h : '"' ∉ rest) :
      Decided v ('"' :: rest) (.stop .unterminatedString)

theorem step_eq (v : Vocabulary) (c : Char) (rest : List Char) :
    step v c rest =
      match opening c with
      | .blank => .blank
      | .quote =>
        match rest.dropWhile (· != '"') with
        | _ :: _ => .lexeme .string ((rest.takeWhile (· != '"')).length + 2)
        | [] => .stop .unterminatedString
      | .digit => .lexeme .number ((rest.takeWhile Char.isDigit).length + 1)
      | .word =>
        let tail := rest.takeWhile Text.isWordPart
        .lexeme (v.classify (String.ofList (c :: tail))) (tail.length + 1)
      | .other =>
        match fixed? c rest with
        | some (kind, width) => .lexeme kind width
        | none => .stop .unrecognizedCharacter := by
  simp only [step, opening, beq_iff_eq]
  repeat' split
  all_goals simp_all

/-! ### Runs -/

theorem prefix_takeWhile {p : Char → Bool} {l text : List Char} (hp : ∀ c ∈ l, p c = true)
    (h : l <+: text) : l <+: text.takeWhile p := by
  obtain ⟨rest, rfl⟩ := h
  rw [List.takeWhile_append_of_pos hp]
  exact List.prefix_append _ _

/-- A run is the longest lexeme if all lexemes with its first character go on within the run. -/
theorem isLongest_run {p : Char → Bool} {c : Char} {rest : List Char}
    (h : IsLexeme (c :: rest.takeWhile p)) (hp : ∀ m, IsLexeme (c :: m) → ∀ d ∈ m, p d = true) :
    IsLongest (c :: rest) (c :: rest.takeWhile p) := by
  refine ⟨h, List.cons_prefix_cons.mpr ⟨rfl, List.takeWhile_prefix p⟩, ?_⟩
  intro m hm hpre
  obtain ⟨tail, rfl, htail⟩ := hm.exists_tail hpre
  exact Nat.succ_le_succ (prefix_takeWhile (hp tail hm) htail).length_le

theorem isLongest_number {c : Char} (rest : List Char) (ho : opening c = .digit) :
    IsNumber (c :: rest.takeWhile Char.isDigit) ∧
      IsLongest (c :: rest) (c :: rest.takeWhile Char.isDigit) := by
  have hn : IsNumber (c :: rest.takeWhile Char.isDigit) := by
    refine ⟨List.cons_ne_nil _ _, ?_⟩
    rw [List.forall_mem_cons]
    constructor
    · exact opening_eq_digit_iff.mp ho
    · exact List.all_eq_true.mp List.all_takeWhile
  refine ⟨hn, isLongest_run (.number hn) ?_⟩
  intro m hm d hd
  exact (hm.isNumber (opening_eq_digit_iff.mp ho)).2 d (List.mem_cons_of_mem c hd)

theorem isLongest_word {c : Char} (rest : List Char) (ho : opening c = .word) :
    IsWord (c :: rest.takeWhile Text.isWordPart) ∧
      IsLongest (c :: rest) (c :: rest.takeWhile Text.isWordPart) := by
  have hw : IsWord (c :: rest.takeWhile Text.isWordPart) :=
    ⟨opening_eq_word_iff.mp ho, List.all_eq_true.mp List.all_takeWhile⟩
  refine ⟨hw, isLongest_run (.word hw) ?_⟩
  intro m hm
  exact (hm.isWord (opening_eq_word_iff.mp ho)).2

/-! ### Strings -/

theorem takeWhile_of_not_mem_quote {body rest : List Char} (h : '"' ∉ body) :
    (body ++ '"' :: rest).takeWhile (· != '"') = body := by
  have inside : ∀ c ∈ body, (c != '"') = true := by
    intro c hc
    simp only [bne_iff_ne, ne_eq]
    rintro rfl
    exact h hc
  rw [List.takeWhile_append_of_pos inside]
  simp

theorem not_mem_quote_of_dropWhile {rest : List Char} (h : rest.dropWhile (· != '"') = []) :
    '"' ∉ rest := by
  intro hq
  have := List.dropWhile_eq_nil_iff.mp h '"' hq
  cases this

theorem exists_body_of_dropWhile {rest ds : List Char} {d : Char}
    (h : rest.dropWhile (· != '"') = d :: ds) :
    ∃ body, rest = body ++ '"' :: ds ∧ '"' ∉ body := by
  have hd : d = '"' := by
    have := List.head?_dropWhile_not (· != '"') rest
    simpa [h] using this
  subst hd
  refine ⟨rest.takeWhile (· != '"'), ?_, ?_⟩
  · rw [← h, List.takeWhile_append_dropWhile]
  · intro hq
    have := List.all_eq_true.mp List.all_takeWhile '"' hq
    cases this

/-- Two strings that begin the same text are one. -/
theorem isString_unique {l m text : List Char} (hl : IsString l) (hm : IsString m) (hlt : l <+: text)
    (hmt : m <+: text) : l = m := by
  obtain ⟨b, hb, rfl⟩ := hl
  obtain ⟨d, hd, rfl⟩ := hm
  obtain ⟨r, rfl⟩ := hlt
  obtain ⟨s, hs⟩ := hmt
  simp only [List.cons_append, List.append_assoc, List.cons.injEq, List.nil_append, true_and] at hs
  have := congrArg (List.takeWhile (· != '"')) hs
  rw [takeWhile_of_not_mem_quote hb, takeWhile_of_not_mem_quote hd] at this
  rw [this]

theorem isLongest_string {body : List Char} (rest : List Char) (h : '"' ∉ body) :
    IsLongest ('"' :: (body ++ '"' :: rest)) ('"' :: (body ++ ['"'])) := by
  have hs : IsString ('"' :: (body ++ ['"'])) := ⟨body, h, rfl⟩
  have starts : '"' :: (body ++ ['"']) <+: '"' :: (body ++ '"' :: rest) := ⟨rest, by simp⟩
  refine ⟨.string hs, starts, ?_⟩
  intro m hm hpre
  obtain ⟨tail, rfl, _⟩ := hm.exists_tail hpre
  rw [isString_unique hm.isString hs hpre starts]

/-! ### Fixed spellings -/

theorem pair?_eq_some_iff {c d : Char} {k : Token.Kind} :
    pair? c d = some k ↔ ([c, d], k) ∈ spellings := by
  constructor
  · intro h
    fun_cases pair? c d
    all_goals simp_all [pair?, spellings]
  · intro h
    have all : ∀ p ∈ spellings, ∀ c d, p.1 = [c, d] → pair? c d = some p.2 := by
      simp [spellings, pair?]
    exact all _ h c d rfl

theorem single?_eq_some_iff {c : Char} {k : Token.Kind} :
    single? c = some k ↔ ([c], k) ∈ spellings := by
  constructor
  · intro h
    fun_cases single? c
    all_goals simp_all [single?, spellings]
  · intro h
    have all : ∀ p ∈ spellings, ∀ c, p.1 = [c] → single? c = some p.2 := by
      simp [spellings, single?]
    exact all _ h c rfl

/-- A spelling has one or two characters, and the first is a spelling by itself. -/
theorem spelling_shape {c : Char} {m : List Char} {k : Token.Kind} (h : (c :: m, k) ∈ spellings) :
    (∃ j, single? c = some j) ∧ (m = [] ∨ ∃ d, m = [d] ∧ pair? c d = some k) := by
  have head : ∀ p ∈ spellings, ∀ d ∈ p.1.head?, (single? d).isSome = true := by
    simp [spellings, single?]
  have short : ∀ p ∈ spellings, p.1.length ≤ 2 := by simp [spellings]
  refine ⟨Option.isSome_iff_exists.mp (head _ h c rfl), ?_⟩
  cases m with
  | nil => exact .inl rfl
  | cons d ds =>
      have hlen : ds.length + 2 ≤ 2 := short _ h
      obtain rfl : ds = [] := List.length_eq_zero_iff.mp (by omega)
      exact .inr ⟨d, rfl, pair?_eq_some_iff.mpr h⟩

section

variable {c : Char} {rest : List Char}

/-- What can start a text whose first character opens no other class. -/
theorem fixed_of_starts {m : List Char} (ho : opening c = .other) (hm : IsLexeme m)
    (hpre : m <+: c :: rest) :
    (∃ j, single? c = some j) ∧
      (m = [c] ∨ ∃ j, m.length = 2 ∧ rest.head?.bind (pair? c) = some j) := by
  obtain ⟨tail, rfl, htail⟩ := hm.exists_tail hpre
  obtain ⟨k, hk⟩ := hm.exists_spelling ho
  obtain ⟨hj, rfl | ⟨e, rfl, he⟩⟩ := spelling_shape hk
  · exact ⟨hj, .inl rfl⟩
  · obtain ⟨ds, rfl⟩ := htail
    exact ⟨hj, .inr ⟨k, rfl, he⟩⟩

theorem isLongest_of_fixed? {k : Token.Kind} {width : Nat} (h : fixed? c rest = some (k, width)) :
    ∃ l, l.length = width ∧ (l, k) ∈ spellings ∧ IsLongest (c :: rest) l := by
  rw [fixed?] at h
  split at h
  · next j hp =>
      obtain ⟨d, hd, hp⟩ := Option.bind_eq_some_iff.mp hp
      obtain ⟨ds, rfl⟩ := List.head?_eq_some_iff.mp hd
      cases h
      have hs := pair?_eq_some_iff.mp hp
      refine ⟨[c, d], rfl, hs, .fixed hs, ⟨ds, rfl⟩, ?_⟩
      intro m hm hpre
      rcases (fixed_of_starts (opening_of_mem_spellings hs) hm hpre).2 with rfl | ⟨_, hl, _⟩
      · exact Nat.le_succ 1
      · exact Nat.le_of_eq hl
  · next hp =>
      obtain ⟨j, hj, hk⟩ := Option.map_eq_some_iff.mp h
      cases hk
      have hs := single?_eq_some_iff.mp hj
      refine ⟨[c], rfl, hs, .fixed hs, ⟨rest, rfl⟩, ?_⟩
      intro m hm hpre
      rcases (fixed_of_starts (opening_of_mem_spellings hs) hm hpre).2 with rfl | ⟨i, _, hi⟩
      · exact Nat.le_refl 1
      · rw [hp] at hi
        cases hi

theorem not_isLexeme_of_fixed? (ho : opening c = .other) (h : fixed? c rest = none)
    (l : List Char) : ¬ IsLexeme (c :: l) := by
  intro hl
  obtain ⟨j, hj⟩ := (fixed_of_starts ho hl (List.prefix_refl _)).1
  rw [fixed?, hj] at h
  split at h <;> cases h

/-- A step takes the longest lexeme, under its kind, and stops only where no lexeme starts. -/
theorem decided_step (v : Vocabulary) (c : Char) (rest : List Char) :
    Decided v (c :: rest) (step v c rest) := by
  rw [step_eq]
  cases ho : opening c with
  | blank => exact .blank (opening_eq_blank_iff.mp ho)
  | quote =>
      obtain rfl := opening_eq_quote_iff.mp ho
      cases hd : rest.dropWhile (· != '"') with
      | nil => exact .unterminated (not_mem_quote_of_dropWhile hd)
      | cons d ds =>
          obtain ⟨body, rfl, hb⟩ := exists_body_of_dropWhile hd
          rw [takeWhile_of_not_mem_quote hb]
          have hl := isLongest_string ds hb
          have hk : HasKind v _ .string := .string ⟨body, hb, rfl⟩
          simpa using Decided.lexeme hl hk
  | digit =>
      obtain ⟨hn, hl⟩ := isLongest_number rest ho
      exact .lexeme hl (.number hn)
  | word =>
      obtain ⟨hw, hl⟩ := isLongest_word rest ho
      exact .lexeme hl (hasKind_classify v hw)
  | other =>
      cases hf : fixed? c rest with
      | none =>
          refine .unrecognized ?_ ?_ (not_isLexeme_of_fixed? ho hf)
          · rw [Bool.eq_false_iff]
            intro hb
            rw [opening_eq_blank_iff.mpr hb] at ho
            cases ho
          · rintro rfl
            rw [opening_eq_quote_iff.mpr rfl] at ho
            cases ho
      | some p =>
          obtain ⟨k, width⟩ := p
          obtain ⟨l, rfl, hs, hl⟩ := isLongest_of_fixed? hf
          exact .lexeme hl (.fixed hs)

end

end LineLexer.Lexeme
