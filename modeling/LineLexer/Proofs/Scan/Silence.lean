import LineLexer.Proofs.Scan.Visit

/-!
Silent against reported open strings. Whether an unterminated string is worth a diagnostic changes
the list of diagnostics and nothing else: no token, no other diagnostic and no count of lines.
-/

namespace LineLexer

namespace LineScan

/-- The ending, if no word is lost about an unterminated string. -/
def Ending.silenced : Ending → Ending
  | diagnosed d => if d.cause = .unterminatedString then dropped else diagnosed d
  | complete => complete
  | dropped => dropped

def silenced (s : LineScan) : LineScan := { s with ending := s.ending.silenced }

theorem diagnostic?_silenced (s : LineScan) :
    s.silenced.diagnostic? = s.diagnostic?.filter (·.cause != .unterminatedString) := by
  simp only [diagnostic?, silenced]
  cases s.ending with
  | complete | dropped => rfl
  | diagnosed d =>
      cases hd : d.cause <;> simp [Ending.silenced, Ending.diagnostic?, Option.filter, hd]

theorem isAbandoned_silenced (s : LineScan) :
    s.silenced.ending.isAbandoned = s.ending.isAbandoned := by
  simp only [silenced]
  cases s.ending with
  | complete | dropped => rfl
  | diagnosed d => cases hd : d.cause <;> simp [Ending.silenced, Ending.isAbandoned, hd]

theorem Ending.ofHalt_silent (o : Options) (line : Nat) (halt : Option Halt) :
    ofHalt { o with openStrings := .silent } line halt =
      (ofHalt { o with openStrings := .report } line halt).silenced := by
  cases halt with
  | none => rfl
  | some h => cases hc : h.cause <;> simp [ofHalt, silenced, hc, Diagnostic.unterminated,
      Diagnostic.unrecognized, Halt.context, Options.width]

theorem ofLine_silent (o : Options) (number : Nat) (text : List Char) :
    ofLine { o with openStrings := .silent } number text =
      (ofLine { o with openStrings := .report } number text).silenced := by
  simp only [ofLine_eq, Ending.ofHalt_silent]
  rfl

/-- If open strings are reported, a line is given up only with a diagnostic. -/
theorem isSome_diagnostic?_of_report {o : Options} (ho : o.openStrings = .report) (number : Nat)
    (text : List Char) :
    (ofLine o number text).diagnostic?.isSome = (ofLine o number text).ending.isAbandoned := by
  rw [ofLine_eq]
  change (Ending.ofHalt o number _).diagnostic?.isSome = (Ending.ofHalt o number _).isAbandoned
  cases (walk o.vocabulary (.start number text) #[]).2 with
  | none => rfl
  | some h =>
      simp only [Ending.ofHalt, ho]
      cases h.cause <;> rfl

end LineScan

theorem Report.ofScans_silenced (scans : List LineScan) :
    ofScans (scans.map LineScan.silenced) =
      { ofScans scans with
        diagnostics := (ofScans scans).diagnostics.filter (·.cause != .unterminatedString) } := by
  simp only [ofScans, List.flatMap_map, List.filterMap_map, List.countP_map, List.length_map,
    Function.comp_def, LineScan.diagnostic?_silenced, LineScan.isAbandoned_silenced,
    List.filter_filterMap]
  rfl

theorem linesAbandoned_of_report {o : Options} (ho : o.openStrings = .report) (number : Nat)
    (texts : List (List Char)) :
    (Report.ofScans (LineScan.ofLines o number texts)).linesAbandoned =
      (Report.ofScans (LineScan.ofLines o number texts)).diagnostics.length := by
  simp only [Report.ofScans, List.length_filterMap_eq_countP]
  apply List.countP_congr
  intro s hs
  obtain ⟨k, text, _, rfl⟩ := LineScan.exists_of_mem_ofLines hs
  rw [LineScan.isSome_diagnostic?_of_report ho]

/-- Silencing open strings takes their diagnostics out of the report; the lines that are then given
up without a diagnostic are as many. -/
theorem scan_silent (o : Options) (source : String) :
    ∃ r s, scan { o with recovery := .skipLine, openStrings := .report } source = .ok r ∧
      scan { o with recovery := .skipLine, openStrings := .silent } source = .ok s ∧
      s = { r with diagnostics := r.diagnostics.filter (·.cause != .unterminatedString) } ∧
      s.linesAbandoned =
        s.diagnostics.length + r.diagnostics.countP (·.cause == .unterminatedString) := by
  have scan_ok (p : OpenStrings) :
      scan { o with recovery := .skipLine, openStrings := p } source =
        .ok (.ofScans
          (LineScan.ofSource { o with recovery := .skipLine, openStrings := p } source)) := by
    rw [scan_eq, conclude, stopper?_skipLine rfl]
  have lines : LineScan.ofSource { o with recovery := .skipLine, openStrings := .silent } source =
      (LineScan.ofSource { o with recovery := .skipLine, openStrings := .report } source).map _ :=
    ofLines_eq_map (LineScan.ofLine_silent { o with recovery := .skipLine }) 1 _
  have hs := scan_ok .silent
  rw [lines, Report.ofScans_silenced] at hs
  refine ⟨_, _, scan_ok .report, hs, rfl, ?_⟩
  generalize hr : Report.ofScans
    (LineScan.ofSource { o with recovery := .skipLine, openStrings := .report } source) = r
  have counted : r.linesAbandoned = r.diagnostics.length := by
    rw [← hr]
    exact linesAbandoned_of_report rfl 1 _
  have parts := r.diagnostics.length_eq_countP_add_countP (·.cause != .unterminatedString)
  simp only [bne_iff_ne, ne_eq, Decidable.not_not] at parts
  rw [counted, parts, ← List.countP_eq_length_filter]
  rfl

end LineLexer
