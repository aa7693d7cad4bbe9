import LineLexer.Proofs.Json.Syntax

/-!
Strings, read and written. A string is read as the characters of its pieces, and refused if one half
of a character stands alone; a string that nobody looks at is passed over whatever it holds. What is
written for a text is a string that reads as this text.
-/

namespace LineLexer.Json

/-- What two readings in sequence come to, whatever the faults. -/
theorem toOption_bind {α β : Type} (x : Except Fault α) (f : α → Except Fault β) :
    (x >>= f).toOption = x.toOption.bind fun a => (f a).toOption := by
  cases x <;> rfl

/-! ### Pieces -/

section

variable (pieces : List Piece) (cs : List Char)

theorem flatMap_plain_append {c : Char} (h : ¬ c < ' ' ∧ c ≠ '"' ∧ c ≠ '\\') :
    (Piece.plain c h :: pieces).flatMap Piece.chars ++ cs =
      c :: (pieces.flatMap Piece.chars ++ cs) := by
  rw [List.flatMap_cons, List.append_assoc]
  rfl

theorem flatMap_letter_append {escape : Char × Char} (h : escape ∈ letterEscapes) :
    (Piece.letter escape h :: pieces).flatMap Piece.chars ++ cs =
      '\\' :: escape.2 :: (pieces.flatMap Piece.chars ++ cs) := by
  rw [List.flatMap_cons, List.append_assoc]
  rfl

theorem flatMap_unit_append (u : CodeUnit) :
    (Piece.unit u :: pieces).flatMap Piece.chars ++ cs =
      '\\' :: 'u' :: (u.chars ++ (pieces.flatMap Piece.chars ++ cs)) := by
  rw [List.flatMap_cons, List.append_assoc]
  rfl

end

/-! ### Escapes -/

theorem unescape?_of_mem {escape : Char × Char} (h : escape ∈ letterEscapes) :
    escape.2 ≠ 'u' ∧ unescape? escape.2 = some escape.1 := by
  have all : ∀ e ∈ letterEscapes, e.2 ≠ 'u' ∧ unescape? e.2 = some e.1 := by decide
  exact all escape h

theorem readUnit_chars (u : CodeUnit) (rest : List Char) :
    readUnit (u.chars ++ rest) = .ok (u.value, rest) := by
  simp only [readUnit, CodeUnit.chars, List.cons_append, List.nil_append, unit?,
    HexDigit.hexValue?_eq]
  rfl

section

variable {escape : Char × Char} (h : escape ∈ letterEscapes) (rest : List Char)

include h

theorem readEscape_letter : readEscape (escape.2 :: rest) = .ok (escape.1, rest) := by
  obtain ⟨hu, he⟩ := unescape?_of_mem h
  rw [readEscape]
  · rw [he]
  · exact hu

theorem skipEscape_letter : skipEscape (escape.2 :: rest) = .ok rest := by
  obtain ⟨hu, he⟩ := unescape?_of_mem h
  rw [skipEscape]
  · rw [he]
  · exact hu

end

theorem skipEscape_unit (u : CodeUnit) (rest : List Char) :
    skipEscape ('u' :: (u.chars ++ rest)) = .ok rest := by
  rw [skipEscape, readUnit_chars]
  rfl

/-! ### Reading -/

section

variable (read : Array Char) (rest : List Char)

theorem readQuoted_close :
    readQuoted read ('"' :: rest) = .ok (String.ofList read.toList, rest) := by
  rw [readQuoted]

theorem readQuoted_plain {c : Char} (h : ¬ c < ' ' ∧ c ≠ '"' ∧ c ≠ '\\') :
    readQuoted read (c :: rest) = readQuoted (read.push c) rest := by
  rw [readQuoted, if_neg h.1]
  · exact h.2.1
  · exact h.2.2

theorem readQuoted_escape : readQuoted read ('\\' :: rest) =
    readEscape rest >>= fun (c, rest) => readQuoted (read.push c) rest := by
  rw [readQuoted]
  cases readEscape rest <;> rfl

theorem readQuoted_letter {escape : Char × Char} (h : escape ∈ letterEscapes) :
    readQuoted read ('\\' :: escape.2 :: rest) = readQuoted (read.push escape.1) rest := by
  rw [readQuoted_escape, readEscape_letter h]
  rfl

end

/-! ### Units of UTF-16 -/

theorem readQuoted_unit (read : Array Char) (u : CodeUnit) (rest : List Char) :
    readQuoted read ('\\' :: 'u' :: (u.chars ++ rest)) =
      (if isLowSurrogate u.value then .error (.before .loneSurrogate rest)
        else if isHighSurrogate u.value then readLowSurrogate u.value rest
        else .ok (Char.ofNat u.value, rest)) >>=
          fun (c, rest) => readQuoted (read.push c) rest := by
  rw [readQuoted_escape, readEscape, readCodePoint, readUnit_chars]
  rfl

theorem readLowSurrogate_unit (high : Nat) (u : CodeUnit) (rest : List Char) :
    readLowSurrogate high ('\\' :: 'u' :: (u.chars ++ rest)) =
      if isLowSurrogate u.value then .ok (ofSurrogates high u.value, rest)
      else .error (.before .loneSurrogate rest) := by
  rw [readLowSurrogate, readUnit_chars]
  rfl

/-- Only another unit can complete a character. -/
theorem toOption_readLowSurrogate (high : Nat) {pieces : List Piece}
    (h : ∀ u more, pieces = .unit u :: more → False) (rest : List Char) :
    (readLowSurrogate high (pieces.flatMap Piece.chars ++ '"' :: rest)).toOption = none := by
  have other : ∀ more, pieces.flatMap Piece.chars ++ '"' :: rest ≠ '\\' :: 'u' :: more := by
    intro more he
    cases pieces with
    | nil => simp at he
    | cons piece pieces =>
        cases piece with
        | plain c hc => exact hc.2.2 (List.cons.inj he).1
        | letter escape he' =>
            exact (unescape?_of_mem he').1 (List.cons.inj (List.cons.inj he).2).1
        | unit u => exact h u pieces rfl
  unfold readLowSurrogate
  split
  · next hc => exact absurd hc (other _)
  · rfl
  · rfl

theorem toOption_readQuoted (pieces : List Piece) (read : Array Char) (rest : List Char) :
    (readQuoted read (pieces.flatMap Piece.chars ++ '"' :: rest)).toOption =
      (Piece.decode pieces).map fun cs => (String.ofList (read.toList ++ cs), rest) := by
  fun_induction Piece.decode pieces generalizing read with
  | case1 =>
      rw [List.flatMap_nil, List.nil_append, readQuoted_close]
      simp [Except.toOption]
  | case2 c h pieces ih =>
      rw [flatMap_plain_append, readQuoted_plain _ _ h, ih]
      simp [Function.comp_def]
  | case3 escape h pieces ih =>
      rw [flatMap_letter_append, readQuoted_letter _ _ h, ih]
      simp [Function.comp_def]
  | case4 u pieces hl =>
      rw [flatMap_unit_append, readQuoted_unit, if_pos hl]
      rfl
  | case5 u hl hh w pieces hw ih =>
      rw [flatMap_unit_append, flatMap_unit_append, readQuoted_unit, if_neg hl, if_pos hh,
        readLowSurrogate_unit, if_pos hw]
      change (readQuoted _ _).toOption = _
      rw [ih]
      simp [Function.comp_def]
  | case6 u hl hh w pieces hw =>
      rw [flatMap_unit_append, flatMap_unit_append, readQuoted_unit, if_neg hl, if_pos hh,
        readLowSurrogate_unit, if_neg hw]
      rfl
  | case7 u pieces hl hh h =>
      rw [flatMap_unit_append, readQuoted_unit, if_neg hl, if_pos hh, toOption_bind,
        toOption_readLowSurrogate _ h]
      rfl
  | case8 u pieces hl hh ih =>
      rw [flatMap_unit_append, readQuoted_unit, if_neg hl, if_neg hh]
      change (readQuoted _ _).toOption = _
      rw [ih]
      simp [Function.comp_def]

theorem toOption_readString (l : Literal) (rest : List Char) :
    (readString (l.body ++ rest)).toOption = l.text?.map (·, rest) := by
  rw [readString, Literal.body, List.append_assoc, List.singleton_append, toOption_readQuoted,
    Literal.text?, Option.map_map]
  rfl

/-! ### Passing over -/

theorem skipString_plain {c : Char} (h : ¬ c < ' ' ∧ c ≠ '"' ∧ c ≠ '\\') (rest : List Char) :
    skipString (c :: rest) = skipString rest := by
  rw [skipString, if_neg h.1]
  · exact h.2.1
  · exact h.2.2

theorem skipString_escape (rest : List Char) :
    skipString ('\\' :: rest) = skipEscape rest >>= skipString := by
  rw [skipString]
  cases skipEscape rest <;> rfl

theorem skipString_body (l : Literal) (rest : List Char) :
    skipString (l.body ++ rest) = .ok rest := by
  rw [Literal.body, List.append_assoc, List.singleton_append]
  induction l.pieces with
  | nil => rw [List.flatMap_nil, List.nil_append, skipString]
  | cons piece pieces ih =>
      cases piece with
      | plain c h =>
          rw [flatMap_plain_append, skipString_plain h, ih]
      | letter escape h =>
          rw [flatMap_letter_append, skipString_escape, skipEscape_letter h]
          exact ih
      | unit u =>
          rw [flatMap_unit_append, skipString_escape, skipEscape_unit]
          exact ih

/-! ### Writing -/

theorem decode_unit {u : CodeUnit} (hl : ¬ isLowSurrogate u.value = true)
    (hh : ¬ isHighSurrogate u.value = true) (pieces : List Piece) :
    Piece.decode (.unit u :: pieces) = (Piece.decode pieces).map (Char.ofNat u.value :: ·) := by
  rw [Piece.decode.eq_def]
  simp only [if_neg hl, if_neg hh]

theorem hexValue?_hexDigit (n : Nat) : hexValue? (hexDigit n) = some (n % 16) := by
  have all : ∀ k < 16, hexValue? (Nat.digitChar k) = some k := by decide
  exact all (n % 16) (Nat.mod_lt n (by decide))

theorem exists_piece_of_control {c : Char} (h : c < ' ') :
    ∃ u : CodeUnit, u.chars = ['0', '0', hexDigit (c.toNat / 16), hexDigit c.toNat] ∧
      u.value = c.toNat := by
  have hc : c.toNat < 32 := h
  refine ⟨⟨⟨'0', 0, rfl⟩, ⟨'0', 0, rfl⟩, ⟨_, _, hexValue?_hexDigit (c.toNat / 16)⟩,
    ⟨_, _, hexValue?_hexDigit c.toNat⟩⟩, rfl, ?_⟩
  change ((0 * 16 + 0) * 16 + c.toNat / 16 % 16) * 16 + c.toNat % 16 = c.toNat
  omega

theorem exists_escape_of_escapeLetter? {c letter : Char} (h : escapeLetter? c = some letter) :
    (c, letter) ∈ letterEscapes := by
  unfold escapeLetter? at h
  split at h
  · cases h
  · obtain ⟨e, he, rfl⟩ := Option.map_eq_some_iff.mp h
    have hc : e.1 = c := by simpa using List.find?_some he
    rw [← hc]
    exact List.mem_of_find?_eq_some he

/-- What is written for a character is a piece that reads as this character. -/
theorem exists_piece (c : Char) :
    ∃ piece : Piece, piece.chars = writeChar c ∧
      ∀ pieces, Piece.decode (piece :: pieces) = (Piece.decode pieces).map (c :: ·) := by
  unfold writeChar
  cases he : escapeLetter? c with
  | some letter =>
      exact ⟨.letter (c, letter) (exists_escape_of_escapeLetter? he), rfl, fun _ => rfl⟩
  | none =>
      by_cases hc : c < ' '
      · obtain ⟨u, hu, hv⟩ := exists_piece_of_control hc
        have small : c.toNat < 32 := hc
        have low : ¬ isLowSurrogate u.value = true := by simp [isLowSurrogate, hv]; omega
        have high : ¬ isHighSurrogate u.value = true := by simp [isHighSurrogate, hv]; omega
        refine ⟨.unit u, by simp [Piece.chars, hu, hc], fun pieces => ?_⟩
        rw [decode_unit low high, hv, Char.ofNat_toNat]
      · have plain : ¬ c < ' ' ∧ c ≠ '"' ∧ c ≠ '\\' := by
          refine ⟨hc, ?_, ?_⟩
          · rintro rfl
            cases he
          · rintro rfl
            cases he
        exact ⟨.plain c plain, by simp [Piece.chars, hc], fun _ => rfl⟩

/-- What is written for a text is a string that reads as this text. -/
theorem exists_literal (s : String) :
    ∃ l : Literal, l.chars = writeString s ∧ l.text? = some s := by
  have pieces (cs : List Char) : ∃ ps : List Piece,
      ps.flatMap Piece.chars = cs.flatMap writeChar ∧ Piece.decode ps = some cs := by
    induction cs with
    | nil => exact ⟨[], rfl, rfl⟩
    | cons c cs ih =>
        obtain ⟨piece, hp, hd⟩ := exists_piece c
        obtain ⟨ps, hps, hds⟩ := ih
        refine ⟨piece :: ps, ?_, ?_⟩
        · rw [List.flatMap_cons, List.flatMap_cons, hp, hps]
        · rw [hd, hds]
          rfl
  obtain ⟨ps, hps, hds⟩ := pieces s.toList
  refine ⟨⟨ps⟩, ?_, ?_⟩
  · rw [Literal.chars, Literal.body, hps]
    rfl
  · rw [Literal.text?, hds, Option.map_some, String.ofList_toList]

end LineLexer.Json
