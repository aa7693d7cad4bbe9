import LineLexer.Proofs.Scan.Silence

/-!
The books of a scan. Line after line a scan adds to its tokens, its diagnostics and two counts of
lines. The entries agree with each other behind every line, whatever became of it, and the report is
what the books say behind the last one.
-/

namespace LineLexer

namespace Report

/-- The tokens of the first line, then those of the second, and so on. -/
def lineByLine (r : Report) : List Token :=
  (List.range r.linesScanned).flatMap fun k => Token.onLine r.tokens (k + 1)

end Report

/-- What the books say behind the lines that were visited so far. -/
structure Accounting (o : Options) (scans : List LineScan) (r : Report) : Prop where
  tokens_sorted : r.tokens.Pairwise (·.line ≤ ·.line)
  line_tokens : ∀ t ∈ r.tokens, 1 ≤ t.line ∧ t.line ≤ r.linesScanned
  diagnostics_sorted : r.diagnostics.Pairwise (·.line < ·.line)
  line_diagnostics : ∀ d ∈ r.diagnostics, 1 ≤ d.line ∧ d.line ≤ r.linesScanned
  diagnostics_le : r.diagnostics.length ≤ r.linesAbandoned
  linesAbandoned_le : r.linesAbandoned ≤ r.linesScanned
  /-- If open strings are reported, no line is given up in silence. -/
  diagnostics_eq : o.openStrings = .report → stopper? o scans = none →
    r.diagnostics.length = r.linesAbandoned
  linesScanned_eq : r.linesScanned = scans.length
  lineByLine_eq : r.lineByLine = r.tokens

/-! ### One line -/

section

variable {o : Options} {s : LineScan}

theorem Options.mem_recorded {d : Diagnostic} (h : d ∈ o.recorded s) : s.diagnostic? = some d := by
  rw [recorded] at h
  split at h
  · cases h
  · exact Option.mem_toList.mp h

theorem Options.length_recorded_le : (o.recorded s).length ≤ s.ending.isAbandoned.toNat := by
  cases hd : s.diagnostic? with
  | none => simp [recorded, hd]
  | some d =>
      rw [LineScan.isAbandoned_of_diagnostic? hd, recorded, hd]
      split <;> simp

theorem Options.length_recorded_of_not_stopsAfter (h : o.stopsAfter s = false) :
    (o.recorded s).length = s.diagnostic?.isSome.toNat := by
  rw [recorded, h]
  cases s.diagnostic? <;> rfl

theorem Options.pairwise_recorded {R : Diagnostic → Diagnostic → Prop} :
    (o.recorded s).Pairwise R := by
  rw [recorded]
  split
  · exact .nil
  · cases s.diagnostic? with
    | none => exact .nil
    | some d => exact List.pairwise_singleton R d

theorem Token.onLine_eq_nil {tokens : List Token} {line : Nat} (h : ∀ t ∈ tokens, t.line ≠ line) :
    onLine tokens line = [] := by
  apply List.filter_eq_nil_iff.mpr
  intro t ht
  rw [beq_iff_eq]
  exact h t ht

theorem Token.onLine_eq_self {tokens : List Token} {line : Nat} (h : ∀ t ∈ tokens, t.line = line) :
    onLine tokens line = tokens := by
  apply List.filter_eq_self.mpr
  intro t ht
  exact beq_iff_eq.mpr (h t ht)

/-- The tokens of a further line come behind those of all lines before. -/
theorem Report.lineByLine_record {r : Report} (hr : ∀ t ∈ r.tokens, t.line ≤ r.linesScanned)
    (hs : ∀ t ∈ s.tokens, t.line = r.linesScanned + 1) :
    (r.record o s).lineByLine = r.lineByLine ++ s.tokens := by
  have earlier : ∀ k ∈ List.range r.linesScanned,
      Token.onLine (r.tokens ++ s.tokens) (k + 1) = Token.onLine r.tokens (k + 1) := by
    intro k hk
    have none_here : Token.onLine s.tokens (k + 1) = [] := by
      apply Token.onLine_eq_nil
      intro t ht
      rw [hs t ht]
      exact Nat.ne_of_gt (Nat.succ_lt_succ (List.mem_range.mp hk))
    rw [Token.onLine_append, none_here, List.append_nil]
  have last : Token.onLine (r.tokens ++ s.tokens) (r.linesScanned + 1) = s.tokens := by
    have none_before : Token.onLine r.tokens (r.linesScanned + 1) = [] := by
      apply Token.onLine_eq_nil
      intro t ht
      exact Nat.ne_of_lt (Nat.lt_succ_of_le (hr t ht))
    rw [Token.onLine_append, none_before, Token.onLine_eq_self hs, List.nil_append]
  calc (r.record o s).lineByLine
      = (List.range r.linesScanned).flatMap
            (fun k => Token.onLine (r.tokens ++ s.tokens) (k + 1)) ++
          Token.onLine (r.tokens ++ s.tokens) (r.linesScanned + 1) := by
        simp only [lineByLine, record, List.range_succ, List.flatMap_append, List.flatMap_singleton]
    _ = r.lineByLine ++ s.tokens := by
        rw [last, List.flatMap_congr earlier, lineByLine]

end

section

variable {α : Type} {line : α → Nat} {xs ys : List α} {n : Nat}

theorem lines_append_next (hx : ∀ x ∈ xs, 1 ≤ line x ∧ line x ≤ n) (hy : ∀ y ∈ ys, line y = n + 1) :
    ∀ z ∈ xs ++ ys, 1 ≤ line z ∧ line z ≤ n + 1 := by
  intro z hz
  rcases List.mem_append.mp hz with hz | hz
  · exact ⟨(hx z hz).1, Nat.le_succ_of_le (hx z hz).2⟩
  · rw [hy z hz]
    exact ⟨Nat.le_add_left 1 n, Nat.le_refl _⟩

theorem pairwise_append_next {R : Nat → Nat → Prop} (hR : ∀ k ≤ n, R k (n + 1))
    (hx : ∀ x ∈ xs, 1 ≤ line x ∧ line x ≤ n) (hy : ∀ y ∈ ys, line y = n + 1)
    (hxs : xs.Pairwise (fun x y => R (line x) (line y)))
    (hys : ys.Pairwise (fun x y => R (line x) (line y))) :
    (xs ++ ys).Pairwise (fun x y => R (line x) (line y)) := by
  refine List.pairwise_append.mpr ⟨hxs, hys, ?_⟩
  intro x hxm y hym
  rw [hy y hym]
  exact hR _ (hx x hxm).2

end

/-- The books stay right behind one more line. -/
theorem Accounting.record {o : Options} {scans : List LineScan} {r : Report}
    (h : Accounting o scans r) (hs : stopper? o scans = none) (text : List Char) :
    Accounting o (scans ++ [LineScan.ofLine o (scans.length + 1) text])
      (r.record o (LineScan.ofLine o (scans.length + 1) text)) := by
  generalize hscan : LineScan.ofLine o (scans.length + 1) text = s
  have token_line : ∀ t ∈ s.tokens, t.line = r.linesScanned + 1 := by
    intro t ht
    rw [← hscan] at ht
    rw [LineScan.line_of_mem_tokens ht, h.linesScanned_eq]
  have diagnostic_line : ∀ d ∈ o.recorded s, d.line = r.linesScanned + 1 := by
    intro d hd
    rw [← hscan] at hd
    rw [LineScan.line_of_diagnostic? (Options.mem_recorded hd), h.linesScanned_eq]
  constructor
  case tokens_sorted =>
    apply pairwise_append_next (fun k hk => Nat.le_succ_of_le hk) h.line_tokens token_line
      h.tokens_sorted
    apply List.pairwise_of_forall_mem_list
    intro t ht u hu
    rw [token_line t ht, token_line u hu]
  case line_tokens => exact lines_append_next h.line_tokens token_line
  case diagnostics_sorted =>
    apply pairwise_append_next (fun k hk => Nat.lt_succ_of_le hk) h.line_diagnostics diagnostic_line
      h.diagnostics_sorted
    exact Options.pairwise_recorded
  case line_diagnostics => exact lines_append_next h.line_diagnostics diagnostic_line
  case diagnostics_le =>
    rw [Report.record, List.length_append]
    exact Nat.add_le_add h.diagnostics_le Options.length_recorded_le
  case linesAbandoned_le => exact Nat.add_le_add h.linesAbandoned_le (Bool.toNat_le _)
  case diagnostics_eq =>
    intro ho hstop
    have goes_on : o.stopsAfter s = false :=
      stopper?_eq_none_iff.mp hstop s (List.mem_append_right _ List.mem_cons_self)
    have told : s.diagnostic?.isSome = s.ending.isAbandoned := by
      rw [← hscan]
      exact LineScan.isSome_diagnostic?_of_report ho _ text
    rw [Report.record, List.length_append, h.diagnostics_eq ho hs,
      Options.length_recorded_of_not_stopsAfter goes_on, told]
  case linesScanned_eq =>
    rw [Report.record, h.linesScanned_eq, List.length_append]
    rfl
  case lineByLine_eq =>
    rw [Report.lineByLine_record (fun t ht => (h.line_tokens t ht).2) token_line, h.lineByLine_eq]
    rfl

/-! ### All lines -/

theorem accounting_nil (o : Options) : Accounting o [] .empty where
  tokens_sorted := .nil
  line_tokens _ h := by cases h
  diagnostics_sorted := .nil
  line_diagnostics _ h := by cases h
  diagnostics_le := Nat.le_refl 0
  linesAbandoned_le := Nat.le_refl 0
  diagnostics_eq _ _ := rfl
  linesScanned_eq := rfl
  lineByLine_eq := rfl

/-- The books stay right behind any number of further lines. -/
theorem Accounting.foldl_visit {o : Options} {scans : List LineScan} {r : Report}
    (h : Accounting o scans r) (hs : stopper? o scans = none) (texts : List (List Char)) (n : Nat) :
    Accounting o (scans ++ (visit o (scans.length + 1) texts).take n)
      (((visit o (scans.length + 1) texts).take n).foldl (Report.record o) r) := by
  induction texts generalizing scans r n with
  | nil => simpa [visit] using h
  | cons text texts ih =>
      cases n with
      | zero => simpa using h
      | succ n =>
          have next := h.record hs text
          rw [visit]
          split
          · simpa using next
          · next hgo =>
              have going :
                  stopper? o (scans ++ [LineScan.ofLine o (scans.length + 1) text]) = none := by
                rw [stopper?_append, hs, stopper?_cons, if_neg hgo]
                rfl
              have later := ih next going n
              simpa using later

theorem stopper?_of_scan {o : Options} {source : String} {r : Report} (h : scan o source = .ok r) :
    stopper? o (visited o source) = none := by
  rw [scan_eq_conclude, conclude] at h
  split at h
  · cases h
  · next hs => exact hs

/-- Behind every line that a scan visits its books are right, and if it is not stopped it reports
them as they stand behind the last line. -/
theorem scan_accounting (o : Options) (source : String) :
    (∀ n, ((Scanner.start source).scanLines o 1 ((Text.lines source.toList).take n)).1.report =
        .soFar o ((visited o source).take n) ∧
      Accounting o ((visited o source).take n) (.soFar o ((visited o source).take n))) ∧
    ∀ r, scan o source = .ok r →
      r = .soFar o (visited o source) ∧ Accounting o (visited o source) r ∧
        stopper? o (visited o source) = none ∧
        r.linesScanned = (Text.lines source.toList).length := by
  have behind (n : Nat) :
      Accounting o ((visited o source).take n) (.soFar o ((visited o source).take n)) :=
    (accounting_nil o).foldl_visit rfl (Text.lines source.toList) n
  refine ⟨fun n => ⟨Scanner.report_scanLines_take o source n, behind n⟩, fun r h => ?_⟩
  have unstopped := stopper?_of_scan h
  have books : r = .soFar o (visited o source) := by
    rw [soFar_eq_ofScans unstopped, visited_of_scan h]
    exact report_of_scan h
  have last := behind (visited o source).length
  rw [List.take_length, ← books] at last
  refine ⟨books, last, unstopped, ?_⟩
  rw [last.linesScanned_eq, visited_of_scan h, LineScan.ofSource, length_ofLines]

theorem scan_accounting_silent :
    let o : Options := { openStrings := .silent }
    let source := "a \"b\n\n@ c\nd d"
    ∃ r, scan o source = .ok r ∧ r.linesAbandoned = 2 ∧ r.diagnostics.length = 1 ∧
      (∀ n, ((Scanner.start source).scanLines o 1 ((Text.lines source.toList).take n)).1.report =
          .soFar o ((visited o source).take n) ∧
        Accounting o ((visited o source).take n) (.soFar o ((visited o source).take n))) ∧
      r = .soFar o (visited o source) ∧ Accounting o (visited o source) r ∧
      stopper? o (visited o source) = none ∧
      r.linesScanned = (Text.lines source.toList).length := by
  intro o source
  have h : scan o source = .ok
      ⟨[⟨.identifier, "a", 1⟩, ⟨.identifier, "d", 4⟩, ⟨.identifier, "d", 4⟩],
        [.unrecognized 3 '@' "@ c"], 4, 2⟩ := by
    decide +kernel
  have books := scan_accounting o source
  exact ⟨_, h, rfl, rfl, books.1, books.2 _ h⟩

end LineLexer
