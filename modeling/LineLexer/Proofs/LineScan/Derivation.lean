import LineLexer.Proofs.LineScan.Walk
import LineLexer.Proofs.Lexeme.Munch

/-!
The scan of a line as a derivation from the classes of lexemes alone. The walk over a line yields
one, so that what holds of all scans is proved by induction on derivations and not on the walk.
-/

namespace LineLexer.LineScan

/-- What is left of a line. -/
def remaining : Option Halt → List Char
  | none => []
  | some h => h.character :: h.rest

/-- A text read as tokens by maximal munch, up to its end or to a halt. -/
inductive Munched (v : Vocabulary) (number : Nat) : List Char → List Token → Option Halt → Prop
  | complete : Munched v number [] [] none
  | blank {c : Char} {rest : List Char} {tokens : List Token} {halt : Option Halt}
      (h : Text.isBlank c = true) (next : Munched v number rest tokens halt) :
      Munched v number (c :: rest) tokens halt
  | lexeme {l rest : List Char} {kind : Token.Kind} {tokens : List Token} {halt : Option Halt}
      (h : Lexeme.IsLongest (l ++ rest) l) (hk : Lexeme.HasKind v l kind)
      (next : Munched v number rest tokens halt) :
      Munched v number (l ++ rest) (⟨kind, String.ofList l, number⟩ :: tokens) halt
  | stop {c : Char} {rest : List Char} {cause : Diagnostic.Cause}
      (h : Lexeme.Decided v (c :: rest) (.stop cause)) :
      Munched v number (c :: rest) [] (some ⟨cause, c, rest⟩)

theorem munched_walk (v : Vocabulary) (cursor : Cursor) :
    Munched v cursor.line cursor.ahead (walk v cursor #[]).1 (walk v cursor #[]).2 := by
  induction hn : cursor.ahead.length using Nat.strongRecOn generalizing cursor with
  | ind n ih =>
      subst hn
      cases h : cursor.ahead with
      | nil =>
          rw [walk_nil _ h]
          exact .complete
      | cons c rest =>
          have hd := Lexeme.decided_step v c rest
          cases hs : Lexeme.step v c rest with
          | blank =>
              rw [hs] at hd
              cases hd with
              | blank hb =>
                  have next := ih _ (by simp [h]) (cursor.skip 1) rfl
                  rw [walk_blank #[] h hs]
                  simp only [Cursor.line_skip, Cursor.ahead_skip, h] at next
                  exact .blank hb next
          | lexeme kind width =>
              have hw := (Lexeme.width_of_step hs).1
              have next := ih _ (by simp [h]; omega) (cursor.skip width) rfl
              rw [hs] at hd
              rw [walk_lexeme #[] h hs, walk_eq_append]
              cases hd with
              | @lexeme _ l _ hl hk =>
                  obtain ⟨r, hr⟩ := hl.starts
                  rw [← hr] at hl h ⊢
                  have hp : cursor.next l.length = String.ofList l := by
                    simp [Cursor.next, h]
                  have ha : (cursor.skip l.length).ahead = r := by simp [h]
                  rw [ha, Cursor.line_skip] at next
                  rw [hp]
                  exact .lexeme hl hk next
          | stop cause =>
              rw [hs] at hd
              rw [walk_stop _ h hs]
              exact .stop hd

/-- A halt is where a step stops. -/
theorem Munched.decided {v : Vocabulary} {number : Nat} {text : List Char} {tokens : List Token}
    {halt : Halt} (h : Munched v number text tokens (some halt)) :
    Lexeme.Decided v (halt.character :: halt.rest) (.stop halt.cause) := by
  generalize hs : some halt = stopped at h
  induction h with
  | complete => cases hs
  | blank _ _ ih => exact ih hs
  | lexeme _ _ _ ih => exact ih hs
  | stop hd =>
      cases hs
      exact hd

/-- What the scan of a line leaves. -/
def leftOver (o : Options) (number : Nat) (text : List Char) : List Char :=
  remaining (walk o.vocabulary (.start number text) #[]).2

section

variable (o : Options) (number : Nat) (text : List Char)

theorem munched_ofLine :
    ∃ halt, Munched o.vocabulary number text (ofLine o number text).tokens halt ∧
      remaining halt = leftOver o number text := by
  rw [ofLine_eq]
  exact ⟨_, munched_walk o.vocabulary (.start number text), rfl⟩

theorem isAbandoned_ofHalt (halt : Option Halt) :
    (Ending.ofHalt o number halt).isAbandoned = true ↔ remaining halt ≠ [] := by
  cases halt with
  | none => simp [Ending.ofHalt, Ending.isAbandoned, remaining]
  | some h =>
      simp only [Ending.ofHalt, remaining]
      split <;> simp [Ending.isAbandoned]

theorem isAbandoned_ofLine_iff :
    (ofLine o number text).ending.isAbandoned = true ↔ leftOver o number text ≠ [] := by
  rw [ofLine_eq]
  exact isAbandoned_ofHalt o number _

end

theorem Munched.line_eq {v : Vocabulary} {number : Nat} {text : List Char} {tokens : List Token}
    {halt : Option Halt} (h : Munched v number text tokens halt) :
    ∀ t ∈ tokens, t.line = number := by
  induction h with
  | complete | stop h => intro t ht; cases ht
  | blank _ _ ih => exact ih
  | lexeme _ _ _ ih =>
      rw [List.forall_mem_cons]
      constructor
      · rfl
      · exact ih

end LineLexer.LineScan
