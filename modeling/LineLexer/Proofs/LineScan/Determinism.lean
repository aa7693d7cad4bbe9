import LineLexer.Proofs.LineScan.Tiling

/-!
The derivation of a line scan is the only one. In front of a text one decision is right, so whatever
can be derived about a line is what the walk over it finds: to know the scan of a line it is enough
to derive it.
-/

namespace LineLexer

namespace Lexeme

variable {v : Vocabulary} {text : List Char} {s s' : Step}

theorem Decided.eq_blank {c : Char} {rest : List Char} (h : Decided v (c :: rest) s)
    (hb : Text.isBlank c = true) : s = .blank := by
  cases s with
  | blank => rfl
  | lexeme _ _ =>
      cases h with
      | lexeme hl _ =>
          rw [hl.isBlank_eq_false] at hb
          cases hb
  | stop _ =>
      rw [h.stuck.isBlank_eq_false] at hb
      cases hb

theorem Decided.eq_lexeme {l : List Char} {k : Token.Kind} (h : Decided v text s)
    (hl : IsLongest text l) (hk : HasKind v l k) : s = .lexeme k l.length := by
  cases s with
  | blank =>
      cases h with
      | blank hb =>
          rw [hl.isBlank_eq_false] at hb
          cases hb
  | lexeme _ _ =>
      cases h with
      | lexeme hm hj =>
          obtain rfl := hl.unique hm
          rw [hk.unique hj]
  | stop _ => exact absurd hl.isLexeme (h.stuck.not_isLexeme hl.starts)

/-- In front of a text only one decision is right. -/
theorem Decided.unique (h : Decided v text s) (h' : Decided v text s') : s = s' := by
  cases h with
  | blank hb => exact (h'.eq_blank hb).symm
  | lexeme hl hk => exact (h'.eq_lexeme hl hk).symm
  | @unrecognized c rest hb hq h =>
      have stop : Decided v (c :: rest) _ := .unrecognized hb hq h
      cases h' with
      | blank hb => exact stop.eq_blank hb
      | lexeme hl hk => exact stop.eq_lexeme hl hk
      | unrecognized _ _ _ => rfl
      | unterminated _ => exact absurd rfl hq
  | @unterminated rest h =>
      have stop : Decided v ('"' :: rest) _ := .unterminated h
      cases h' with
      | blank hb => exact stop.eq_blank hb
      | lexeme hl hk => exact stop.eq_lexeme hl hk
      | unrecognized _ hq _ => exact absurd rfl hq
      | unterminated _ => rfl

theorem Decided.step_eq {c : Char} {rest : List Char} (h : Decided v (c :: rest) s) :
    step v c rest = s :=
  (decided_step v c rest).unique h

end Lexeme

namespace LineScan

variable {v : Vocabulary} {number : Nat} {text : List Char} {tokens : List Token}
  {halt : Option Halt}

theorem Munched.walk_eq (h : Munched v number text tokens halt) (cursor : Cursor)
    (hline : cursor.line = number) (hahead : cursor.ahead = text) :
    walk v cursor #[] = (tokens, halt) := by
  induction h generalizing cursor with
  | complete => exact walk_nil #[] hahead
  | blank hb _ ih =>
      rw [walk_blank #[] hahead (Lexeme.Decided.blank hb).step_eq]
      exact ih (cursor.skip 1) hline (by simp [hahead])
  | @lexeme l rest kind tokens halt hl hk _ ih =>
      obtain ⟨c, ds, rfl⟩ := List.exists_cons_of_ne_nil hl.isLexeme.ne_nil
      have hp : cursor.next (c :: ds).length = String.ofList (c :: ds) := by
        simp [Cursor.next, hahead]
      have next := ih (cursor.skip (c :: ds).length) hline (by simp [hahead])
      rw [walk_lexeme #[] hahead (Lexeme.Decided.lexeme hl hk).step_eq, walk_eq_append, next, hp,
        hline]
      rfl
  | stop hd => exact walk_stop #[] hahead hd.step_eq

/-- What can be derived about a line is all that its scan finds. -/
theorem Munched.ofLine_eq {o : Options} (h : Munched o.vocabulary number text tokens halt) :
    ofLine o number text = ⟨number, tokens, .ofHalt o number halt⟩ := by
  rw [LineScan.ofLine_eq, h.walk_eq (.start number text) rfl rfl]

theorem Munched.unique {tokens' : List Token} {halt' : Option Halt}
    (h : Munched v number text tokens halt) (h' : Munched v number text tokens' halt') :
    tokens = tokens' ∧ halt = halt' := by
  have hw := h.walk_eq (.start number text) rfl rfl
  rw [h'.walk_eq (.start number text) rfl rfl] at hw
  exact (Prod.mk.inj hw).imp Eq.symm Eq.symm

theorem munched_nil_iff : Munched v number [] [] halt ↔ halt = none := by
  constructor
  · intro h
    exact (h.unique .complete).2
  · rintro rfl
    exact .complete

/-- Blanks in front of a text are passed over. -/
theorem munched_blanks_append_iff {blanks : List Char}
    (hb : ∀ c ∈ blanks, Text.isBlank c = true) :
    Munched v number (blanks ++ text) tokens halt ↔ Munched v number text tokens halt := by
  have pass {c : Char} {rest : List Char} (hc : Text.isBlank c = true) :
      Munched v number (c :: rest) tokens halt ↔ Munched v number rest tokens halt := by
    constructor
    · intro h
      have next : Munched v number rest _ _ := munched_walk v (.start number rest)
      obtain ⟨rfl, rfl⟩ := h.unique (.blank hc next)
      exact next
    · exact .blank hc
  induction blanks with
  | nil => rfl
  | cons c cs ih =>
      rw [List.forall_mem_cons] at hb
      exact (pass hb.1).trans (ih hb.2)

end LineScan
end LineLexer
