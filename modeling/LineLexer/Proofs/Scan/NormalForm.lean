import LineLexer.Proofs.Lexeme.Gluing
import LineLexer.Proofs.LineScan.Determinism
import LineLexer.Proofs.Scan.Visit
import LineLexer.Proofs.Text.Chunks

/-!
The normal form of a source. Written out line by line with single spaces, the tokens of a report are
found again on their lines, and nothing else is; so a source in normal form is its own normal form.
-/

namespace LineLexer

/-- Tokens written out with a space between each two. -/
def Token.spaced (tokens : List Token) : String := " ".intercalate (lexemes tokens)

/-- The tokens of each line, and a line feed behind them. -/
def Report.normalForm (r : Report) : String :=
  String.join <| (List.range r.linesScanned).map fun k =>
    Token.spaced (Token.onLine r.tokens (k + 1)) ++ "\n"

namespace Token

@[simp] theorem toList_spaced_nil : (spaced []).toList = [] := rfl

@[simp] theorem toList_spaced_singleton (t : Token) : (spaced [t]).toList = t.lexeme.toList := by
  simp [spaced, lexemes]

@[simp] theorem toList_spaced_cons_cons (t u : Token) (ts : List Token) :
    (spaced (t :: u :: ts)).toList = t.lexeme.toList ++ ' ' :: (spaced (u :: ts)).toList := by
  simp [spaced, lexemes]

end Token

/-! ### One line -/

namespace LineScan

section

variable {v : Vocabulary} {number : Nat} {text : List Char} {tokens : List Token}
  {halt : Option Halt}

/-- A space continues no lexeme, so tokens that were read once are read again. -/
theorem Munched.spaced (h : Munched v number text tokens halt) :
    Munched v number (Token.spaced tokens).toList tokens none := by
  induction h with
  | complete | stop _ => exact .complete
  | blank _ _ ih => exact ih
  | @lexeme l rest kind tokens halt hl hk _ ih =>
      cases tokens with
      | nil =>
          have alone : Lexeme.IsLongest (l ++ []) l := by
            rw [Lexeme.isLongest_append_iff hl.isLexeme]
            rintro _ ⟨⟩
          have single : Munched v number (l ++ []) _ _ := .lexeme alone hk .complete
          rw [Token.toList_spaced_singleton, String.toList_ofList]
          rwa [List.append_nil] at single
      | cons u us =>
          rw [Token.toList_spaced_cons_cons, String.toList_ofList]
          refine .lexeme ?_ hk (.blank rfl ih)
          rw [Lexeme.isLongest_append_iff hl.isLexeme]
          rintro _ ⟨rfl⟩
          exact Lexeme.not_continues_of_isBlank rfl

theorem Munched.isBreak_spaced (h : Munched v number text tokens halt)
    (ht : ∀ c ∈ text, Text.isBreak c = false) :
    ∀ c ∈ (Token.spaced tokens).toList, Text.isBreak c = false := by
  induction h with
  | complete | stop _ => intro c hc; cases hc
  | blank _ _ ih => exact ih fun c hc => ht c (List.mem_cons_of_mem _ hc)
  | @lexeme l rest kind tokens halt _ _ _ ih =>
      rw [List.forall_mem_append] at ht
      cases tokens with
      | nil =>
          rw [Token.toList_spaced_singleton, String.toList_ofList]
          exact ht.1
      | cons u us =>
          rw [Token.toList_spaced_cons_cons, String.toList_ofList, List.forall_mem_append,
            List.forall_mem_cons]
          exact ⟨ht.1, rfl, ih ht.2⟩

end

section

variable (o : Options) (number : Nat)

theorem ofLine_spaced (text : List Char) :
    ofLine o number (Token.spaced (ofLine o number text).tokens).toList =
      { ofLine o number text with ending := .complete } := by
  obtain ⟨halt, h, _⟩ := munched_ofLine o number text
  exact h.spaced.ofLine_eq

theorem ofLines_spaced (texts : List (List Char)) :
    ofLines o number ((ofLines o number texts).map fun s => (Token.spaced s.tokens).toList) =
      (ofLines o number texts).map fun s => { s with ending := .complete } := by
  induction texts generalizing number with
  | nil => rfl
  | cons text texts ih => rw [ofLines, List.map_cons, ofLines, ofLine_spaced, ih, List.map_cons]

end

end LineScan

/-! ### All lines -/

section

variable {o : Options} {source : String} {r : Report}

theorem toList_normalForm (h : scan o source = .ok r) :
    r.normalForm.toList = ((LineScan.ofSource o source).map fun s =>
      (Token.spaced s.tokens).toList).flatMap (· ++ ['\n']) := by
  calc r.normalForm.toList
      = ((List.range r.linesScanned).map fun k => Token.onLine r.tokens (k + 1)).flatMap
          fun tokens => (Token.spaced tokens).toList ++ ['\n'] := by
        simp [Report.normalForm, String.toList_join, List.flatMap_map]
    _ = _ := by
        rw [map_onLine_of_scan h, List.flatMap_map, List.flatMap_map]

theorem ofSource_normalForm (h : scan o source = .ok r) :
    LineScan.ofSource o r.normalForm =
      (LineScan.ofSource o source).map fun s => { s with ending := .complete } := by
  have unbroken : ∀ line ∈ (LineScan.ofSource o source).map fun s => (Token.spaced s.tokens).toList,
      ∀ c ∈ line, Text.isBreak c = false := by
    intro line hline
    obtain ⟨s, hs, rfl⟩ := List.mem_map.mp hline
    obtain ⟨k, text, hk, rfl⟩ := LineScan.exists_of_mem_ofLines hs
    obtain ⟨halt, hm, _⟩ := LineScan.munched_ofLine o (1 + k) text
    apply hm.isBreak_spaced
    intro c hc
    exact Text.isBreak_eq_false_of_mem_lines (List.mem_of_getElem? hk) hc
  rw [LineScan.ofSource, toList_normalForm h, Text.lines_flatMap_lineFeed unbroken]
  exact LineScan.ofLines_spaced o 1 _

/-- Writing out a report and scanning it finds the same tokens and nothing to complain of. -/
theorem scan_normalForm (h : scan o source = .ok r) :
    ∃ r', scan o r.normalForm = .ok r' ∧ r'.tokens = r.tokens ∧ r'.diagnostics = [] ∧
      r'.linesScanned = r.linesScanned ∧ r'.linesAbandoned = 0 ∧ r'.normalForm = r.normalForm := by
  have complete : ∀ s ∈ LineScan.ofSource o r.normalForm, s.ending = .complete := by
    rw [ofSource_normalForm h]
    intro s hs
    obtain ⟨_, _, rfl⟩ := List.mem_map.mp hs
    rfl
  have tokens : (LineScan.ofSource o r.normalForm).flatMap (·.tokens) = r.tokens := by
    rw [ofSource_normalForm h, List.flatMap_map, report_of_scan h]
    rfl
  have linesScanned : (LineScan.ofSource o r.normalForm).length = r.linesScanned := by
    rw [ofSource_normalForm h, List.length_map, report_of_scan h]
    rfl
  have hscan : scan o r.normalForm = .ok { r with diagnostics := [], linesAbandoned := 0 } := by
    rw [scan_of_complete complete, tokens, linesScanned]
  exact ⟨_, hscan, rfl, rfl, rfl, rfl, rfl⟩

theorem scan_normalForm_mixed :
    ∃ r, scan {} "x=1 @ y\r\n\n\u2028\"é\"z\x0b\"open\r_1***2" = .ok r ∧ r.linesAbandoned = 2 ∧
      r.normalForm = "x = 1\n\n\n\"é\" z\n\n_1 ** * 2\n" ∧
      ∃ r', scan {} r.normalForm = .ok r' ∧ r'.tokens = r.tokens ∧ r'.diagnostics = [] ∧
        r'.linesScanned = r.linesScanned ∧ r'.linesAbandoned = 0 ∧
        r'.normalForm = r.normalForm := by
  have h : scan {} "x=1 @ y\r\n\n\u2028\"é\"z\x0b\"open\r_1***2" = .ok ⟨[⟨.identifier, "x", 1⟩,
      ⟨.equal, "=", 1⟩, ⟨.number, "1", 1⟩, ⟨.string, "\"é\"", 4⟩, ⟨.identifier, "z", 4⟩,
      ⟨.identifier, "_1", 6⟩, ⟨.power, "**", 6⟩, ⟨.star, "*", 6⟩, ⟨.number, "2", 6⟩],
      [.unrecognized 1 '@' "@ y", .unterminated 5 "\"open"], 6, 2⟩ := by
    decide +kernel
  exact ⟨_, h, rfl, by decide +kernel, scan_normalForm h⟩

end

end LineLexer
