import LineLexer.Proofs.Command.Preparation
import LineLexer.Proofs.Scan.FailFast

/-!
What a run prints on its sources, one after the other. A source without diagnostics is printed as a
page and the run goes on; the first with a diagnostic ends a run that fails fast before anything of
it is printed.
-/

namespace LineLexer.Command

/-- The report on a source, whatever is to follow a diagnostic. -/
def Source.report (o : Options) (source : Source) : Report :=
  .ofScans (LineScan.ofSource o source.text)

def Source.IsClean (o : Options) (source : Source) : Prop := (source.report o).isClean = true

instance (o : Options) : DecidablePred (Source.IsClean o) :=
  fun source => inferInstanceAs (Decidable ((source.report o).isClean = true))

/-- What is printed on a source that was scanned to its end. -/
def Source.page (o : Options) (format : Format) (headed : Bool) (source : Source) : String :=
  (if headed then onLines [s!"==> {source.name} <=="] else "") ++ format.render (source.report o)

/-- Of the sources, those in front of the first with a diagnostic, that source and its first one. -/
structure Stops (o : Options) (sources before : List Source) (source : Source) (d : Diagnostic) :
    Prop where
  splits : ∃ behind, sources = before ++ source :: behind
  clean : ∀ other ∈ before, other.IsClean o
  first : (source.report o).diagnostics.head? = some d

theorem onLines_singleton (message : String) : onLines [message] = message ++ "\n" := by
  rw [onLines, List.map_singleton, String.join_cons, String.join_nil, String.append_empty]

theorem onLines_append (messages more : List String) :
    onLines (messages ++ more) = onLines messages ++ onLines more := by
  rw [onLines, List.map_append, String.join_append]
  rfl

/-! ### One source -/

section

variable {o : Options} {source : Source} {d : Diagnostic} {ds : List Diagnostic}

theorem isClean_iff : source.IsClean o ↔ (source.report o).diagnostics = [] :=
  List.isEmpty_iff

theorem report_recovery (p : Recovery) :
    source.report { o with recovery := p } = source.report o := by
  rw [Source.report, LineScan.ofSource_recovery]
  rfl

theorem isClean_recovery (p : Recovery) :
    source.IsClean { o with recovery := p } ↔ source.IsClean o := by
  rw [Source.IsClean, report_recovery]
  rfl

theorem page_recovery (p : Recovery) :
    Source.page { o with recovery := p } = Source.page o := by
  funext format headed source
  rw [Source.page, report_recovery]
  rfl

theorem scan_source_of_skipLine (h : o.recovery = .skipLine) :
    LineLexer.scan o source.text = .ok (source.report o) := by
  rw [scan_eq, conclude, stopper?_skipLine h]
  rfl

theorem stopper?_source (h : o.recovery = .failFast) :
    stopper? o (LineScan.ofSource o source.text) = (source.report o).diagnostics.head? :=
  stopper?_failFast h _

theorem scan_source_of_failFast (h : o.recovery = .failFast)
    (hd : (source.report o).diagnostics = d :: ds) :
    LineLexer.scan o source.text = .error (.scan d) := by
  rw [scan_eq, conclude, stopper?_source h, hd]
  rfl

theorem scan_source_of_isClean (h : source.IsClean o) :
    LineLexer.scan o source.text = .ok (source.report o) := by
  cases hr : o.recovery with
  | skipLine => exact scan_source_of_skipLine hr
  | failFast =>
      rw [scan_eq, conclude, stopper?_source hr, isClean_iff.mp h]
      rfl

end

/-! ### One source after the other -/

section

variable {o : Options} {format : Format} {headed : Bool} {source : Source}
  {before behind sources : List Source} {d : Diagnostic} {ds : List Diagnostic}

theorem scanSources_cons (h : LineLexer.scan o source.text = .ok (source.report o)) :
    scanSources o format headed (source :: behind) =
      { exitCode := if source.IsClean o then (scanSources o format headed behind).exitCode else 1
        stdout := source.page o format headed ++ (scanSources o format headed behind).stdout
        stderr :=
          onLines (source.report o).messages ++ (scanSources o format headed behind).stderr } := by
  rw [scanSources, h]
  rfl

theorem scanSources_stop (h : o.recovery = .failFast)
    (hd : (source.report o).diagnostics = d :: ds) :
    scanSources o format headed (source :: behind) = ⟨1, "", d.message ++ "\n"⟩ := by
  rw [scanSources, scan_source_of_failFast h hd, ← onLines_singleton]
  rfl

/-- Clean sources are printed, and the run goes on behind them. -/
theorem scanSources_append (h : ∀ source ∈ before, source.IsClean o) :
    scanSources o format headed (before ++ behind) =
      { scanSources o format headed behind with
        stdout := String.join (before.map (Source.page o format headed)) ++
          (scanSources o format headed behind).stdout } := by
  induction before with
  | nil => rw [List.nil_append, List.map_nil, String.join_nil, String.empty_append]
  | cons source before ih =>
      rw [List.forall_mem_cons] at h
      have hm : onLines (source.report o).messages = "" := by
        rw [Report.messages, isClean_iff.mp h.1]
        rfl
      rw [List.cons_append, scanSources_cons (scan_source_of_isClean h.1), ih h.2, if_pos h.1, hm,
        List.map_cons, String.join_cons, String.empty_append, String.append_assoc]

/-- A run that skips bad lines gets through all sources. -/
theorem scanSources_skipLine (h : o.recovery = .skipLine) :
    scanSources o format headed sources =
      { exitCode := if ∀ source ∈ sources, source.IsClean o then 0 else 1
        stdout := String.join (sources.map (Source.page o format headed))
        stderr := onLines (sources.flatMap fun source => (source.report o).messages) } := by
  induction sources with
  | nil => rfl
  | cons source sources ih =>
      rw [scanSources_cons (scan_source_of_skipLine h), ih, List.map_cons, String.join_cons,
        List.flatMap_cons, onLines_append]
      by_cases hs : source.IsClean o <;> simp [hs]

theorem Stops.not_forall_isClean (h : Stops o sources before source d) :
    ¬ ∀ source ∈ sources, source.IsClean o := by
  obtain ⟨behind, rfl⟩ := h.splits
  intro hall
  have hd := h.first
  rw [isClean_iff.mp (hall source (by simp))] at hd
  cases hd

theorem forall_isClean_or_stops (o : Options) (sources : List Source) :
    (∀ source ∈ sources, source.IsClean o) ∨
      ∃ before source d, Stops o sources before source d := by
  induction sources with
  | nil => exact .inl fun _ h => absurd h List.not_mem_nil
  | cons source sources ih =>
      cases hd : (source.report o).diagnostics with
      | cons d ds =>
          refine .inr ⟨[], source, d, ⟨sources, rfl⟩, ?_, ?_⟩
          · intro _ h
            cases h
          · rw [hd]
            rfl
      | nil =>
          have hs : source.IsClean o := isClean_iff.mpr hd
          cases ih with
          | inl ih => exact .inl (List.forall_mem_cons.mpr ⟨hs, ih⟩)
          | inr ih =>
              obtain ⟨before, next, d, ⟨behind, rfl⟩, hb, hn⟩ := ih
              exact .inr ⟨source :: before, next, d, ⟨behind, rfl⟩,
                List.forall_mem_cons.mpr ⟨hs, hb⟩, hn⟩

/-- A run that fails fast ends with the first diagnostic. -/
theorem Stops.scanSources_eq (h : Stops o sources before source d) (hr : o.recovery = .failFast)
    (format : Format) (headed : Bool) :
    scanSources o format headed sources =
      ⟨1, String.join (before.map (Source.page o format headed)), d.message ++ "\n"⟩ := by
  obtain ⟨behind, rfl⟩ := h.splits
  obtain ⟨ds, hd⟩ := List.head?_eq_some_iff.mp h.first
  rw [scanSources_append h.clean, scanSources_stop hr hd, String.append_empty]

/-- Whatever follows a diagnostic, the exit code says whether there was one. -/
theorem exitCode_scanSources :
    (scanSources o format headed sources).exitCode =
      if ∀ source ∈ sources, source.IsClean o then 0 else 1 := by
  cases hr : o.recovery with
  | skipLine => rw [scanSources_skipLine hr]
  | failFast =>
      rcases forall_isClean_or_stops o sources with h | ⟨before, source, d, h⟩
      · have hs : scanSources o format headed (sources ++ []) = _ := scanSources_append h
        rw [List.append_nil] at hs
        rw [hs, if_pos h]
        rfl
      · rw [h.scanSources_eq hr, if_neg h.not_forall_isClean]

end

theorem scan_of_prepare {s : Settings} {supply : Supply} {o : Options} {sources : List Source}
    (h : prepare s supply = .ok (o, sources)) :
    scan s supply = scanSources o s.format (sources.length > 1) sources := by
  rw [scan, h]

end LineLexer.Command
