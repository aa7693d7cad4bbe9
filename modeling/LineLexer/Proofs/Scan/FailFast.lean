import LineLexer.Proofs.Scan.Visit

/-!
Fail-fast against skipping. The two ways of going on after a diagnostic see the same scans of lines,
so that a fail-fast scan fails with the first diagnostic of the full report, or returns that report.
-/

namespace LineLexer

namespace LineScan

theorem ofLines_recovery (o : Options) (p : Recovery) (number : Nat) (texts : List (List Char)) :
    ofLines { o with recovery := p } number texts = ofLines o number texts := by
  induction texts generalizing number with
  | nil => rfl
  | cons text texts ih =>
      rw [ofLines, ofLines, ih, ofLine_recovery]

theorem ofSource_recovery (o : Options) (p : Recovery) (source : String) :
    ofSource { o with recovery := p } source = ofSource o source :=
  ofLines_recovery o p 1 _

theorem pairwise_diagnostics (o : Options) (number : Nat) (texts : List (List Char)) :
    ((ofLines o number texts).filterMap (·.diagnostic?)).Pairwise (·.line < ·.line) := by
  refine List.pairwise_filterMap.mpr ((pairwise_ofLines o number texts).imp_of_mem ?_)
  intro s t hs ht hlt d hd e he
  obtain ⟨_, _, _, rfl⟩ := exists_of_mem_ofLines hs
  obtain ⟨_, _, _, rfl⟩ := exists_of_mem_ofLines ht
  rw [line_of_diagnostic? hd, line_of_diagnostic? he]
  exact hlt

end LineScan

theorem stopsAfter_failFast {o : Options} (h : o.recovery = .failFast) (s : LineScan) :
    o.stopsAfter s = s.diagnostic?.isSome := by
  rw [Options.stopsAfter, h]
  rfl

theorem stopper?_failFast {o : Options} (h : o.recovery = .failFast) (scans : List LineScan) :
    stopper? o scans = (scans.filterMap (·.diagnostic?)).head? := by
  induction scans with
  | nil => rfl
  | cons s scans ih =>
      rw [stopper?_cons, stopsAfter_failFast h]
      cases hd : s.diagnostic? with
      | none =>
          rw [List.filterMap_cons_none hd, ← ih]
          rfl
      | some d =>
          rw [List.filterMap_cons_some hd]
          rfl

/-- Failing fast is skipping lines, up to the first diagnostic. -/
theorem scan_failFast (o : Options) (source : String) :
    ∃ r, scan { o with recovery := .skipLine } source = .ok r ∧
      r.diagnostics.Pairwise (·.line < ·.line) ∧
      scan { o with recovery := .failFast } source =
        match r.diagnostics with
        | [] => .ok r
        | d :: _ => .error (.scan d) := by
  have same (p : Recovery) :
      LineScan.ofSource { o with recovery := p } source = LineScan.ofSource o source :=
    LineScan.ofLines_recovery o p 1 _
  refine ⟨.ofScans (LineScan.ofSource o source), ?_, LineScan.pairwise_diagnostics o 1 _, ?_⟩
  · rw [scan_eq, same, conclude, stopper?_skipLine rfl]
  · rw [scan_eq, same, conclude, stopper?_failFast rfl]
    change _ = match (LineScan.ofSource o source).filterMap (·.diagnostic?) with
      | [] => _
      | d :: _ => _
    cases (LineScan.ofSource o source).filterMap (·.diagnostic?) <;> rfl

end LineLexer
