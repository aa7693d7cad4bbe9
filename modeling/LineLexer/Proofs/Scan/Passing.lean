import LineLexer.Proofs.Scan.Acceptance

/-!
Which lines pass without a diagnostic. Those that can be cut into blanks and lexemes do; where open
strings are silenced, so do those which are cut off at a quote.
-/

namespace LineLexer

open Lexeme

/-- Nothing on the line is worth a diagnostic. -/
def Passes (silenced : Prop) (line : List Char) : Prop :=
  line ∈ sequences ∨
    silenced ∧ ∃ scanned rest, IsFarthest line scanned ∧ line = scanned ++ '"' :: rest

theorem IsFarthest.unique {line scanned other : List Char} (h : IsFarthest line scanned)
    (h' : IsFarthest line other) : scanned = other := by
  have hle := h'.longest scanned h.mem_sequences h.starts
  have hge := h.longest other h'.mem_sequences h'.starts
  exact (List.prefix_of_prefix_length_le h.starts h'.starts hle).eq_of_length (hle.antisymm hge)

namespace LineScan

/-- A halt has to do with a string exactly if it is in front of a quote. -/
theorem Munched.cause_eq_iff {v : Vocabulary} {number : Nat} {text : List Char}
    {tokens : List Token} {halt : Halt} (h : Munched v number text tokens (some halt)) :
    halt.cause = .unterminatedString ↔ halt.character = '"' := by
  cases halt with
  | mk cause character rest =>
      cases h.decided with
      | unrecognized _ hq _ => simp [hq]
      | unterminated _ => exact iff_of_true rfl rfl

theorem Munched.diagnostic?_eq_none_iff {v : Vocabulary} {number : Nat} {text : List Char}
    {tokens : List Token} {halt : Option Halt} (h : Munched v number text tokens halt)
    (o : Options) (line : Nat) :
    (Ending.ofHalt o line halt).diagnostic? = none ↔
      remaining halt = [] ∨ o.openStrings = .silent ∧ (remaining halt).head? = some '"' := by
  cases halt with
  | none => simp [Ending.ofHalt, Ending.diagnostic?, remaining]
  | some halt =>
      have hc := h.cause_eq_iff
      simp only [remaining, List.head?_cons, Option.some.injEq, ← hc, reduceCtorEq, false_or]
      cases hcause : halt.cause <;> cases ho : o.openStrings <;>
        simp [Ending.ofHalt, Ending.diagnostic?, hcause, ho]

section

variable (o : Options) (number : Nat)

theorem exists_isFarthest (line : List Char) :
    ∃ scanned, line = scanned ++ leftOver o number line ∧ IsFarthest line scanned := by
  obtain ⟨t, rfl, _, hr, hm⟩ := exists_tiling_ofLine o number line
  refine ⟨t.scanned, ?_, hm.isFarthest⟩
  rw [← hr]
  rfl

/-- What a scan leaves of a line begins with a quote if what is behind the longest cut does. -/
theorem head?_leftOver_eq_quote_iff (line : List Char) :
    (leftOver o number line).head? = some '"' ↔
      ∃ scanned rest, IsFarthest line scanned ∧ line = scanned ++ '"' :: rest := by
  obtain ⟨scanned, hl, hf⟩ := exists_isFarthest o number line
  constructor
  · intro h
    obtain ⟨rest, hr⟩ := List.head?_eq_some_iff.mp h
    rw [hr] at hl
    exact ⟨scanned, rest, hf, hl⟩
  · rintro ⟨other, rest, hother, hrest⟩
    obtain rfl := hf.unique hother
    rw [List.append_cancel_left (hl.symm.trans hrest)]
    rfl

theorem diagnostic?_ofLine_eq_none_iff (line : List Char) :
    (ofLine o number line).diagnostic? = none ↔ Passes (o.openStrings = .silent) line := by
  have h := munched_walk o.vocabulary (.start number line)
  rw [Passes, ← leftOver_eq_nil_iff o number, ← head?_leftOver_eq_quote_iff o number, ofLine_eq]
  exact h.diagnostic?_eq_none_iff o number

theorem forall_ofLines_iff (texts : List (List Char)) :
    (∀ s ∈ ofLines o number texts, s.diagnostic? = none) ↔
      ∀ line ∈ texts, Passes (o.openStrings = .silent) line := by
  induction texts generalizing number with
  | nil => simp [ofLines]
  | cons text texts ih =>
      rw [ofLines, List.forall_mem_cons, List.forall_mem_cons, ih, diagnostic?_ofLine_eq_none_iff]

end

end LineScan

/-- A report has no diagnostics exactly if every line passes. -/
theorem diagnostics_eq_nil_iff (o : Options) (source : String) :
    (Report.ofScans (LineScan.ofSource o source)).diagnostics = [] ↔
      ∀ line ∈ Text.lines source.toList, Passes (o.openStrings = .silent) line := by
  rw [← LineScan.forall_ofLines_iff o 1, Report.ofScans, List.filterMap_eq_nil_iff]
  rfl

end LineLexer
