import LineLexer.Proofs.Lexeme.Munch

/-!
The texts that can be cut into blanks and lexemes, in whatever way. Every lexeme but a string is a
row of lexemes of one character. So these texts are the messages of a prefix code, and of a message
that begins with another message the rest is a message too.
-/

open Computability

namespace LineLexer.Lexeme

theorem mem_kstar_of_mem {A : Language Char} {x : List Char} (h : x ∈ A) : x ∈ A∗ :=
  (le_kstar : A ≤ A∗) h

/-- A language without the empty word in which no word begins another. -/
structure IsPrefixCode (A : Language Char) : Prop where
  nil_notMem : [] ∉ A
  eq_of_starts : ∀ x ∈ A, ∀ y ∈ A, x <+: y → x = y

theorem IsPrefixCode.mem_kstar_of_append {A : Language Char} (h : IsPrefixCode A)
    {x y : List Char} (hx : x ∈ A∗) (hxy : x ++ y ∈ A∗) : y ∈ A∗ := by
  obtain ⟨ws, rfl, hws⟩ := Language.mem_kstar.mp hx
  clear hx
  induction ws with
  | nil => exact hxy
  | cons w ws ih =>
      have hw : w ∈ A := hws w List.mem_cons_self
      obtain ⟨us, hus, hmem⟩ := Language.mem_kstar.mp hxy
      rw [List.flatten_cons, List.append_assoc] at hus
      cases us with
      | nil =>
          have : w = [] := (List.append_eq_nil_iff.mp hus).1
          exact absurd (this ▸ hw) h.nil_notMem
      | cons u us =>
          -- the first words begin the same text, so that one begins the other
          have hu : u ∈ A := hmem u List.mem_cons_self
          have hwt : w <+: u ++ us.flatten := ⟨_, hus⟩
          have hut : u <+: u ++ us.flatten := List.prefix_append _ _
          have heq : w = u := by
            rcases List.prefix_or_prefix_of_prefix hwt hut with hpre | hpre
            · exact h.eq_of_starts w hw u hu hpre
            · exact (h.eq_of_starts u hu w hw hpre).symm
          subst heq
          have htail := List.append_cancel_left hus
          apply ih fun z hz => hws z (List.mem_cons_of_mem _ hz)
          rw [htail]
          exact Language.join_mem_kstar fun z hz => hmem z (List.mem_cons_of_mem _ hz)

/-- A space, a tab or a lexeme. -/
def parts : Language Char := {l | l = [' '] ∨ l = ['\t'] ∨ IsLexeme l}

/-- The texts that some cut divides into spaces, tabs and lexemes. -/
def sequences : Language Char := parts∗

/-- The parts that no other part begins. -/
def atoms : Language Char := {l | l ∈ parts ∧ (l.length = 1 ∨ IsString l)}

theorem blank_mem_parts {c : Char} (h : Text.isBlank c = true) : [c] ∈ parts := by
  rcases isBlank_iff.mp h with rfl | rfl
  · exact .inl rfl
  · exact .inr (.inl rfl)

theorem quote_notMem_parts : ['"'] ∉ parts := by
  rintro (h | h | h)
  · cases h
  · cases h
  · obtain ⟨body, _, hb⟩ := h.isString
    have := congrArg List.length hb
    simp at this

theorem isPrefixCode_atoms : IsPrefixCode atoms := by
  have single_string {x y : List Char} (hx : x ∈ parts) (hl : x.length = 1) (hy : IsString y)
      (h : x <+: y) : False := by
    obtain ⟨c, rfl⟩ := List.length_eq_one_iff.mp hl
    obtain ⟨body, _, rfl⟩ := hy
    obtain ⟨rfl, _⟩ := List.cons_prefix_cons.mp h
    exact quote_notMem_parts hx
  constructor
  · rintro ⟨_, h | ⟨body, _, h⟩⟩ <;> cases h
  · rintro x ⟨hx, hx1 | hxs⟩ y ⟨hy, hy1 | hys⟩ h
    · exact h.eq_of_length (hx1.trans hy1.symm)
    · exact (single_string hx hx1 hys h).elim
    · obtain ⟨body, _, rfl⟩ := hxs
      have := h.length_le
      simp [hy1] at this
    · exact isString_unique hxs hys h (List.prefix_refl y)

/-! ### Lexemes are rows of atoms -/

theorem mem_kstar_atoms {l : List Char} (h : ∀ c ∈ l, IsLexeme [c]) : l ∈ atoms∗ := by
  refine Language.mem_kstar.mpr ⟨l.map fun c => [c], ?_, ?_⟩
  · rw [← List.flatMap_def, List.flatMap_singleton']
  · intro y hy
    obtain ⟨c, hc, rfl⟩ := List.mem_map.mp hy
    exact ⟨.inr (.inr (h c hc)), .inl rfl⟩

theorem isLexeme_digit {c : Char} (h : c.isDigit = true) : IsLexeme [c] := by
  refine .number ⟨List.cons_ne_nil _ _, ?_⟩
  intro d hd
  rwa [List.mem_singleton.mp hd]

theorem isLexeme_wordStart {c : Char} (h : Text.isWordStart c = true) : IsLexeme [c] :=
  .word ⟨h, by simp⟩

theorem isLexeme_wordPart {c : Char} (h : Text.isWordPart c = true) : IsLexeme [c] := by
  rcases isWordStart_or_isDigit h with hs | hd
  · exact isLexeme_wordStart hs
  · exact isLexeme_digit hd

theorem parts_le : parts ≤ atoms∗ := by
  rintro l (rfl | rfl | h)
  · exact mem_kstar_of_mem ⟨.inl rfl, .inl rfl⟩
  · exact mem_kstar_of_mem ⟨.inr (.inl rfl), .inl rfl⟩
  · cases h with
    | fixed hk =>
        have all : ∀ p ∈ spellings, ∀ c ∈ p.1, (single? c).isSome = true := by
          simp [spellings, single?]
        apply mem_kstar_atoms
        intro c hc
        obtain ⟨j, hj⟩ := Option.isSome_iff_exists.mp (all _ hk c hc)
        exact .fixed (single?_eq_some_iff.mp hj)
    | number hn => exact mem_kstar_atoms fun c hc => isLexeme_digit (hn.2 c hc)
    | word hw =>
        cases l with
        | nil => exact hw.elim
        | cons d ds =>
            apply mem_kstar_atoms
            rw [List.forall_mem_cons]
            constructor
            · exact isLexeme_wordStart hw.1
            · intro c hc
              exact isLexeme_wordPart (hw.2 c hc)
    | string hs => exact mem_kstar_of_mem ⟨.inr (.inr (.string hs)), .inr hs⟩

theorem sequences_eq : sequences = atoms∗ := by
  apply le_antisymm
  · exact (kstar_mono parts_le).trans_eq (kstar_idem atoms)
  · exact kstar_mono fun l h => h.1

/-! ### Sequences -/

theorem append_mem_sequences {x y : List Char} (hx : x ∈ sequences) (hy : y ∈ sequences) :
    x ++ y ∈ sequences := by
  have h := Language.append_mem_mul hx hy
  rwa [sequences, kstar_mul_kstar] at h

/-- Taking a sequence away from the front of another never leads into a dead end. -/
theorem mem_sequences_of_append {x y : List Char} (hx : x ∈ sequences) (hxy : x ++ y ∈ sequences) :
    y ∈ sequences := by
  rw [sequences_eq] at hx hxy ⊢
  exact isPrefixCode_atoms.mem_kstar_of_append hx hxy

theorem blanks_mem_sequences {l : List Char} (h : ∀ c ∈ l, Text.isBlank c = true) :
    l ∈ sequences := by
  induction l with
  | nil => exact Language.nil_mem_kstar parts
  | cons c cs ih =>
      have hc : [c] ∈ sequences :=
        mem_kstar_of_mem (blank_mem_parts (h c List.mem_cons_self))
      exact append_mem_sequences hc (ih fun d hd => h d (List.mem_cons_of_mem c hd))

theorem IsLexeme.mem_sequences {l : List Char} (h : IsLexeme l) : l ∈ sequences :=
  mem_kstar_of_mem (show l ∈ parts from .inr (.inr h))

end LineLexer.Lexeme
