import LineLexer.Proofs.LineScan.Shift
import LineLexer.Proofs.Scan.Visit

/-!
Lines do not disturb each other. What a report says about a line depends on the text of that line
alone: not on its number, nor on any line before or behind it.
-/

namespace LineLexer

/-- A token without the number of its line. -/
def Token.content (t : Token) : Token.Kind × String := (t.kind, t.lexeme)

/-- A diagnostic without the number of its line. -/
def Diagnostic.content (d : Diagnostic) : Diagnostic.Cause × Char × String :=
  (d.cause, d.character, d.context)

namespace LineScan

section

variable (o : Options) (text : List Char) (m n : Nat)

/-- The scan of a line is that of a line with number zero, moved. -/
theorem ofLine_eq_shift : ofLine o n text = (ofLine o 0 text).shift n := by
  rw [← ofLine_add, Nat.zero_add]

theorem content_tokens_ofLine :
    (ofLine o m text).tokens.map Token.content = (ofLine o n text).tokens.map Token.content := by
  rw [ofLine_eq_shift o text m, ofLine_eq_shift o text n, tokens_shift, tokens_shift,
    List.map_map, List.map_map]
  rfl

theorem content_diagnostic?_ofLine :
    (ofLine o m text).diagnostic?.map Diagnostic.content =
      (ofLine o n text).diagnostic?.map Diagnostic.content := by
  rw [ofLine_eq_shift o text m, ofLine_eq_shift o text n, diagnostic?_shift, diagnostic?_shift,
    Option.map_map, Option.map_map]
  rfl

end

end LineScan

/-- Wherever a line stands, and whatever stands around it, the report says the same about it. -/
theorem content_onLine_eq {o : Options} (ho : o.recovery = .skipLine) {s t : String} {i j : Nat}
    {line : List Char} (hi : (Text.lines s.toList)[i]? = some line)
    (hj : (Text.lines t.toList)[j]? = some line) :
    ∃ r r', scan o s = .ok r ∧ scan o t = .ok r' ∧
      (Token.onLine r.tokens (i + 1)).map Token.content =
        (Token.onLine r'.tokens (j + 1)).map Token.content ∧
      (Diagnostic.onLine r.diagnostics (i + 1)).map Diagnostic.content =
        (Diagnostic.onLine r'.diagnostics (j + 1)).map Diagnostic.content := by
  have hs := scan_skipLine ho s
  have ht := scan_skipLine ho t
  refine ⟨_, _, hs, ht, ?_, ?_⟩
  · rw [onLine_of_scan hs hi, onLine_of_scan ht hj]
    exact LineScan.content_tokens_ofLine o line (i + 1) (j + 1)
  · rw [onLine_diagnostics_of_scan hs hi, onLine_diagnostics_of_scan ht hj, ← Option.toList_map,
      ← Option.toList_map, LineScan.content_diagnostic?_ofLine o line (i + 1) (j + 1)]

theorem content_onLine_eq_surrounded :
    (Text.lines "é @\r\nx+ #y\u2028\"".toList)[1]? = some "x+ #y".toList ∧
      (Text.lines "x+ #y\n**".toList)[0]? = some "x+ #y".toList ∧
      ∃ r r', scan {} "é @\r\nx+ #y\u2028\"" = .ok r ∧ scan {} "x+ #y\n**" = .ok r' ∧
        (Token.onLine r.tokens 2).map Token.content =
          (Token.onLine r'.tokens 1).map Token.content ∧
        (Diagnostic.onLine r.diagnostics 2).map Diagnostic.content =
          (Diagnostic.onLine r'.diagnostics 1).map Diagnostic.content := by
  have hi : (Text.lines "é @\r\nx+ #y\u2028\"".toList)[1]? = some "x+ #y".toList := by
    decide +kernel
  have hj : (Text.lines "x+ #y\n**".toList)[0]? = some "x+ #y".toList := by decide +kernel
  exact ⟨hi, hj, content_onLine_eq rfl hi hj⟩

end LineLexer
