import LineLexer.Json.Reader
import LineLexer.Proofs.Json.Literal

/-!
Numbers, read and written. A number is read as a natural number if it is an integer literal without
a sign that fits in 64 bits, and refused as one otherwise; a number that nobody looks at is passed
over whatever its form. What is written for a natural number is a literal with its value.
-/

namespace LineLexer.Json

theorem Ends.continues_eq_false {rest : List Char} (h : Ends rest) :
    ∀ c ∈ rest.head?, c.isDigit = false ∧ c ≠ '.' ∧ c ≠ 'e' ∧ c ≠ 'E' := by
  intro c hc
  rcases h c hc with hs | rfl | rfl | rfl
  · simp only [isSpace, Bool.or_eq_true, beq_iff_eq] at hs
    rcases hs with ((rfl | rfl) | rfl) | rfl <;> decide
  all_goals decide

/-! ### Digits -/

section

variable {ds rest : List Char} (hd : ∀ c ∈ ds, c.isDigit = true)
  (hr : ∀ c ∈ rest.head?, c.isDigit = false)

include hd hr

theorem leadingDigits_append : leadingDigits (ds ++ rest) = ds := by
  rw [leadingDigits, List.takeWhile_append_of_pos hd]
  cases rest with
  | nil => simp
  | cons c rest => simp [hr c rfl]

theorem afterDigits_append : afterDigits (ds ++ rest) = rest := by
  rw [afterDigits, List.dropWhile_append_of_pos hd]
  cases rest with
  | nil => simp
  | cons c rest => simp [hr c rfl]

end

theorem Digits.exists_cons (ds : Digits) : ∃ c cs, ds.chars = c :: cs ∧ c.isDigit = true := by
  obtain ⟨c, cs, hc⟩ := List.exists_cons_of_ne_nil ds.ne_nil
  exact ⟨c, cs, hc, ds.isDigit c (hc ▸ List.mem_cons_self)⟩

theorem any_isDigit_head? {rest : List Char} (h : ∀ c ∈ rest.head?, c.isDigit = false) :
    rest.head?.any Char.isDigit = false := by
  cases hr : rest.head? with
  | none => rfl
  | some c => exact h c hr

theorem le_ofDigitChars (ds : List Char) (value : Nat) : value ≤ Nat.ofDigitChars 10 ds value := by
  induction ds generalizing value with
  | nil => exact Nat.le_refl value
  | cons d ds ih =>
      rw [Nat.ofDigitChars_cons]
      have := ih (10 * value + (d.toNat - '0'.toNat))
      omega

theorem absorb_eq {limit value : Nat} {ds : List Char}
    (h : Nat.ofDigitChars 10 ds value ≤ limit) :
    absorb limit value ds = (Nat.ofDigitChars 10 ds value, []) := by
  induction ds generalizing value with
  | nil => rfl
  | cons d ds ih =>
      rw [Nat.ofDigitChars_cons, Nat.mul_comm] at h ⊢
      rw [absorb, digitValue, if_pos ((le_ofDigitChars ds _).trans h), ih h]

theorem absorb_ne_nil {limit value : Nat} {ds : List Char} (hv : value ≤ limit)
    (h : limit < Nat.ofDigitChars 10 ds value) : (absorb limit value ds).2 ≠ [] := by
  induction ds generalizing value with
  | nil => exact absurd hv (Nat.not_le.mpr h)
  | cons d ds ih =>
      rw [Nat.ofDigitChars_cons, Nat.mul_comm] at h
      rw [absorb]
      split
      · next hl => exact ih hl h
      · exact List.cons_ne_nil d ds

/-! ### Reading -/

theorem Exponent.isDigit_letter (e : Exponent) : e.letter.isDigit = false := by
  rcases e.letter_eq with h | h <;> rw [h] <;> rfl

/-- What follows the integer digits of a number is no digit. -/
theorem Numeral.isDigit_head?_tail (n : Numeral) {rest : List Char} (h : Ends rest) :
    ∀ c ∈ (n.tail ++ rest).head?, c.isDigit = false := by
  intro c hc
  unfold tail at hc
  split at hc
  · exact (h.continues_eq_false c hc).1
  · cases hc
    exact Exponent.isDigit_letter _
  · cases hc
    rfl
  · cases hc
    rfl

/-- A double is no natural number. -/
theorem toOption_real (expected : String) (read : Except Fault (Float × List Char)) :
    (read.map (fun (x, rest) => (Number.real x, rest)) >>= asNatural expected).toOption = none := by
  cases read <;> rfl

theorem toOption_ofInteger (expected : String) (negative : Bool) (n : Nat) (rest : List Char) :
    (asNatural expected (ofInteger negative n, rest)).toOption =
      if negative then none else some (n, rest) := by
  cases negative with
  | false => rfl
  | true =>
      rw [ofInteger]
      simp only [Bool.not_true]
      split
      · next h => cases h
      · split <;> rfl

section

variable (expected : String) (negative : Bool) (significand unused : Nat) {rest : List Char}

theorem toOption_readTail_exponent (e : Exponent) (rest : List Char) :
    (readTail negative significand unused (e.chars ++ rest) >>= asNatural expected).toOption =
      none := by
  rw [Exponent.chars]
  rcases e.letter_eq with h | h
  all_goals
    rw [h]
    exact toOption_real expected _

theorem toOption_readTail_ends (h : Ends rest) :
    (readTail negative significand unused rest >>= asNatural expected).toOption =
      if negative || unused != 0 then none else some (significand, rest) := by
  have hn := h.continues_eq_false
  unfold readTail
  split
  · exact absurd rfl (hn _ rfl).2.1
  · exact absurd rfl (hn _ rfl).2.2.1
  · exact absurd rfl (hn _ rfl).2.2.2
  · by_cases hu : unused = 0
    · simp only [hu, if_true]
      exact (toOption_ofInteger expected negative significand rest).trans (by simp)
    · simp only [if_neg hu, bne_iff_ne.mpr hu, Bool.or_true, if_true]
      exact toOption_real expected _

end

theorem Numeral.toOption_readTail (n : Numeral) (expected : String) (significand unused : Nat)
    {rest : List Char} (h : Ends rest) :
    (readTail n.negative significand unused (n.tail ++ rest) >>= asNatural expected).toOption =
      if n.negative || n.fraction?.isSome || n.exponent?.isSome || unused != 0 then none
      else some (significand, rest) := by
  obtain ⟨negative, whole, hw, fraction?, exponent?⟩ := n
  cases fraction? with
  | some ds =>
      rw [if_pos (by simp)]
      cases exponent? <;> exact toOption_real expected _
  | none =>
      cases exponent? with
      | some e =>
          rw [if_pos (by simp)]
          exact toOption_readTail_exponent expected negative significand unused e rest
      | none =>
          simp only [Option.isSome_none, Bool.or_false]
          exact toOption_readTail_ends expected negative significand unused h

namespace Numeral

variable (n : Numeral)

theorem readNumber_whole {rest : List Char} (h : ∀ c ∈ rest.head?, c.isDigit = false) :
    readNumber n.negative (n.whole.chars ++ rest) =
      readTail n.negative (absorb maxNatural 0 n.whole.chars).1
        (absorb maxNatural 0 n.whole.chars).2.length rest := by
  obtain ⟨c, cs, hc, hd⟩ := n.whole.exists_cons
  by_cases h0 : c = '0'
  · -- A leading zero is read alone, and it is alone.
    have alone : n.whole.chars = ['0'] := n.whole_eq (by rw [hc, h0]; rfl)
    rw [alone, List.singleton_append, readNumber, any_isDigit_head? h]
    rfl
  · have leading := leadingDigits_append n.whole.isDigit h
    have behind := afterDigits_append n.whole.isDigit h
    rw [hc, List.cons_append] at leading behind ⊢
    unfold readNumber
    split
    · next he => cases he
    · next he => exact absurd (List.cons.inj he).1 h0
    · next he =>
        obtain rfl := (List.cons.inj he).1
        rw [if_pos hd, leading, behind]

theorem toOption_readNumber (expected : String) {rest : List Char} (h : Ends rest) :
    (readNumber n.negative (n.whole.chars ++ (n.tail ++ rest)) >>= asNatural expected).toOption =
      (n.natural?.filter (· < 2 ^ 64)).map (·, rest) := by
  rw [n.readNumber_whole (n.isDigit_head?_tail h), n.toOption_readTail expected _ _ h, natural?]
  by_cases hv : n.whole.value ≤ maxNatural
  · have fits : n.whole.value < 2 ^ 64 := Nat.lt_of_le_of_lt hv (by decide)
    have whole : absorb maxNatural 0 n.whole.chars = (n.whole.value, []) := absorb_eq hv
    rw [whole]
    cases n.negative || n.fraction?.isSome || n.exponent?.isSome
    · simpa [Option.filter] using fits
    · rfl
  · have excess : (absorb maxNatural 0 n.whole.chars).2.length ≠ 0 := by
      rw [ne_eq, List.length_eq_zero_iff]
      exact absorb_ne_nil (Nat.zero_le _) (Nat.lt_of_not_le hv)
    have beyond : 2 ^ 64 ≤ n.whole.value := Nat.lt_of_not_le hv
    rw [if_pos (by simp [excess])]
    cases n.negative || n.fraction?.isSome || n.exponent?.isSome
    · simpa [Option.filter] using beyond
    · rfl

end Numeral

/-! ### Passing over -/

theorem skipExponent_of_ends {rest : List Char} (h : Ends rest) : skipExponent rest = .ok rest := by
  cases rest with
  | nil => rfl
  | cons c rest =>
      have hc := h.continues_eq_false c rfl
      rw [skipExponent, if_neg (by simp [hc.2.2.1, hc.2.2.2])]

namespace Exponent

variable (e : Exponent)

theorem exponentSign_eq (rest : List Char) :
    (exponentSign (e.sign ++ (e.digits.chars ++ rest))).2 = e.digits.chars ++ rest := by
  obtain ⟨c, cs, hc, hd⟩ := e.digits.exists_cons
  have hs := e.sign_mem
  simp only [List.mem_cons, List.not_mem_nil, or_false] at hs
  rcases hs with hs | hs | hs <;> rw [hs]
  · rw [List.nil_append, hc, List.cons_append, exponentSign]
    all_goals
      intro _ he
      obtain rfl := (List.cons.inj he).1
      cases hd
  · rfl
  · rfl

theorem skipExponent_chars {rest : List Char} (h : Ends rest) :
    skipExponent (e.chars ++ rest) = .ok rest := by
  have hr : ∀ c ∈ rest.head?, c.isDigit = false := fun c hc => (h.continues_eq_false c hc).1
  rw [chars, List.cons_append, List.append_assoc, skipExponent, if_pos e.letter_eq]
  simp only [e.exponentSign_eq rest, leadingDigits_append e.digits.isDigit hr,
    afterDigits_append e.digits.isDigit hr]
  rw [if_neg]
  simpa using e.digits.ne_nil

theorem skipFraction_chars {rest : List Char} (h : Ends rest) :
    skipFraction (e.chars ++ rest) = .ok rest := by
  rw [skipFraction]
  · exact e.skipExponent_chars h
  · intro _ he
    have hc : e.letter = '.' := (List.cons.inj he).1
    rcases e.letter_eq with h | h <;> rw [h] at hc <;> cases hc

end Exponent

theorem skipFraction_point (ds : Digits) {rest : List Char}
    (h : ∀ c ∈ rest.head?, c.isDigit = false) :
    skipFraction ('.' :: (ds.chars ++ rest)) = skipExponent rest := by
  rw [skipFraction, leadingDigits_append ds.isDigit h, afterDigits_append ds.isDigit h, if_neg]
  simpa using ds.ne_nil

namespace Numeral

variable (n : Numeral)

theorem skipFraction_tail {rest : List Char} (h : Ends rest) :
    skipFraction (n.tail ++ rest) = .ok rest := by
  have hr := h.continues_eq_false
  unfold tail
  split
  · rw [List.nil_append, skipFraction]
    · exact skipExponent_of_ends h
    · rintro _ rfl
      exact (hr _ rfl).2.1 rfl
  · exact Exponent.skipFraction_chars _ h
  · rw [List.cons_append, skipFraction_point _ fun c hc => (hr c hc).1]
    exact skipExponent_of_ends h
  · next e _ _ =>
      rw [List.cons_append, List.append_assoc, skipFraction_point _ (by
        intro c hc
        cases hc
        exact e.isDigit_letter)]
      exact e.skipExponent_chars h

theorem skipNumber_whole {rest : List Char} (h : Ends rest) :
    skipNumber (n.whole.chars ++ (n.tail ++ rest)) = .ok rest := by
  have behind := n.isDigit_head?_tail h
  obtain ⟨c, cs, hc, hd⟩ := n.whole.exists_cons
  by_cases h0 : c = '0'
  · have alone : n.whole.chars = ['0'] := n.whole_eq (by rw [hc, h0]; rfl)
    rw [alone, List.singleton_append, skipNumber, any_isDigit_head? behind]
    exact n.skipFraction_tail h
  · have after := afterDigits_append n.whole.isDigit behind
    rw [hc, List.cons_append] at after ⊢
    unfold skipNumber
    split
    · next he => cases he
    · next he => exact absurd (List.cons.inj he).1 h0
    · next he =>
        obtain rfl := (List.cons.inj he).1
        rw [if_pos hd, after]
        exact n.skipFraction_tail h

end Numeral

/-! ### Writing -/

theorem head?_toDigits_ne_zero {n : Nat} (h : 0 < n) : (Nat.toDigits 10 n).head? ≠ some '0' := by
  induction n using Nat.strongRecOn with
  | ind n ih =>
      by_cases hn : n < 10
      · have small : ∀ k < 10, 0 < k → [Nat.digitChar k].head? ≠ some '0' := by decide
        rw [Nat.toDigits_of_lt_base hn]
        exact small n hn h
      · have hlt : n / 10 < n := Nat.div_lt_self h (by decide)
        have front := ih (n / 10) hlt (Nat.div_pos (Nat.le_of_not_lt hn) (by decide))
        rw [Nat.toDigits_of_base_le (by decide) (Nat.le_of_not_lt hn), List.head?_append]
        cases hd : (Nat.toDigits 10 (n / 10)).head? with
        | none => exact absurd (List.head?_eq_none_iff.mp hd) Nat.toDigits_ne_nil
        | some c =>
            rw [hd] at front
            exact front

/-- What is written for a natural number is an integer literal with its value. -/
theorem exists_numeral (k : Nat) :
    ∃ n : Numeral, n.chars = Nat.toDigits 10 k ∧ n.natural? = some k := by
  have digits : ∀ c ∈ Nat.toDigits 10 k, c.isDigit = true :=
    fun _ hc => Nat.isDigit_of_mem_toDigits (by decide) (by decide) hc
  have whole : (Nat.toDigits 10 k).head? = some '0' → Nat.toDigits 10 k = ['0'] := by
    intro h
    cases k with
    | zero => rfl
    | succ k => exact absurd h (head?_toDigits_ne_zero (Nat.succ_pos k))
  refine ⟨⟨false, ⟨_, Nat.toDigits_ne_nil, digits⟩, whole, none, none⟩, ?_, ?_⟩
  · simp [Numeral.chars, Numeral.tail]
  · simp [Numeral.natural?, Digits.value]

end LineLexer.Json
