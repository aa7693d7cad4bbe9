import LineLexer.Proofs.Command.Sources

/-!
What failing fast does to a run. It prints the pages of the sources in front of the first that has a
diagnostic, and this diagnostic; a run without a diagnostic is the same with and without it.
-/

namespace LineLexer.Command

section

variable {o : Options} {sources before : List Source} {source : Source} {d : Diagnostic}
  (format : Format) (headed : Bool)

theorem Stops.recovery (h : Stops o sources before source d) (p : Recovery) :
    Stops { o with recovery := p } sources before source d where
  splits := h.splits
  clean other ho := (isClean_recovery p).mpr (h.clean other ho)
  first := by rw [report_recovery, h.first]

/-- What fails fast is cut off at the first diagnostic. -/
theorem Stops.scanSources_failFast (h : Stops o sources before source d) :
    scanSources { o with recovery := .failFast } format headed sources =
      ⟨1, String.join (before.map (Source.page o format headed)), d.message ++ "\n"⟩ := by
  rw [(h.recovery .failFast).scanSources_eq rfl, page_recovery]

/-- What is cut off stands behind the pages and the message that are left. -/
theorem Stops.exists_scanSources (h : Stops o sources before source d) :
    ∃ out err, scanSources o format headed sources =
      ⟨1, String.join (before.map (Source.page o format headed)) ++ out,
        d.message ++ "\n" ++ err⟩ := by
  -- The options may ask for it by themselves, and then nothing is cut off.
  cases hr : o.recovery with
  | failFast =>
      refine ⟨"", "", ?_⟩
      rw [h.scanSources_eq hr, String.append_empty, String.append_empty]
  | skipLine =>
      obtain ⟨behind, rfl⟩ := h.splits
      obtain ⟨ds, hd⟩ := List.head?_eq_some_iff.mp h.first
      have hs : ¬ source.IsClean o := by
        rw [isClean_iff, hd]
        exact List.cons_ne_nil d ds
      have hm : onLines (source.report o).messages =
          d.message ++ "\n" ++ onLines (ds.map (·.message)) := by
        rw [Report.messages, hd, List.map_cons, ← List.singleton_append, onLines_append,
          onLines_singleton]
      rw [scanSources_append h.clean, scanSources_cons (scan_source_of_skipLine hr), if_neg hs, hm,
        String.append_assoc]
      exact ⟨_, _, rfl⟩

theorem scanSources_failFast_of_isClean (h : ∀ source ∈ sources, source.IsClean o) :
    scanSources { o with recovery := .failFast } format headed sources =
      scanSources o format headed sources := by
  have hc : ∀ source ∈ sources, source.IsClean { o with recovery := .failFast } := by
    intro source hs
    exact (isClean_recovery .failFast).mpr (h source hs)
  rw [← List.append_nil sources, scanSources_append h, scanSources_append hc, page_recovery]
  rfl

end

theorem scan_withFailFast_of_prepare {s : Settings} {supply : Supply} {o : Options}
    {sources : List Source} (h : prepare s supply = .ok (o, sources)) :
    scan s.withFailFast supply =
      scanSources { o with recovery := .failFast } s.format (sources.length > 1) sources := by
  rw [scan, prepare_withFailFast, h]
  rfl

theorem scan_withFailFast_of_error {s : Settings} {supply : Supply} {e : Obstacle}
    (h : prepare s supply = .error e) : scan s.withFailFast supply = scan s supply := by
  rw [scan, scan, prepare_withFailFast, h]
  rfl

/-- One outcome is the other, cut off where the first source with a diagnostic is reached. -/
structure IsCutOff (o : Options) (page : Source → String) (sources : List Source)
    (cut full : Outcome) (before : List Source) (source : Source) (d : Diagnostic) : Prop where
  stops : Stops o sources before source d
  stdout_eq : cut.stdout = String.join (before.map page)
  stderr_eq : cut.stderr = d.message ++ "\n"
  stdout_starts : ∃ out, full.stdout = cut.stdout ++ out
  stderr_starts : ∃ err, full.stderr = cut.stderr ++ err
  of_failFast : o.recovery = .failFast → full = cut
  of_skipLine : o.recovery = .skipLine → full.stdout = String.join (sources.map page) ∧
    full.stderr = onLines (sources.flatMap fun source => (source.report o).messages)

theorem Stops.isCutOff {o : Options} {sources before : List Source} {source : Source}
    {d : Diagnostic} (h : Stops o sources before source d) (format : Format) (headed : Bool) :
    IsCutOff o (Source.page o format headed) sources
      (scanSources { o with recovery := .failFast } format headed sources)
      (scanSources o format headed sources) before source d := by
  obtain ⟨out, err, hfull⟩ := h.exists_scanSources format headed
  have hcut := h.scanSources_failFast format headed
  refine ⟨h, ?_, ?_, ⟨out, ?_⟩, ⟨err, ?_⟩, ?_, ?_⟩
  · rw [hcut]
  · rw [hcut]
  · rw [hcut, hfull]
  · rw [hcut, hfull]
  · intro hr
    rw [hcut, h.scanSources_eq hr]
  · intro hr
    rw [scanSources_skipLine hr]
    exact ⟨rfl, rfl⟩

/-- The same at the level of a request to scan, whatever was prepared for it. -/
theorem scan_withFailFast {s : Settings} {supply : Supply} {o : Options} {sources : List Source}
    (hp : prepare s supply = .ok (o, sources)) :
    (scan s.withFailFast supply).exitCode = (scan s supply).exitCode ∧
    ((scan s supply).exitCode ≠ 1 → scan s.withFailFast supply = scan s supply) ∧
    ((scan s supply).exitCode = 1 → ∃ before source d,
      IsCutOff o (Source.page o s.format (sources.length > 1)) sources (scan s.withFailFast supply)
        (scan s supply) before source d) := by
  rw [scan_of_prepare hp, scan_withFailFast_of_prepare hp]
  rcases forall_isClean_or_stops o sources with h | ⟨before, source, d, h⟩
  · rw [scanSources_failFast_of_isClean _ _ h]
    refine ⟨rfl, fun _ => rfl, ?_⟩
    intro hcode
    rw [exitCode_scanSources, if_pos h] at hcode
    cases hcode
  · obtain ⟨out, err, hfull⟩ := h.exists_scanSources s.format (sources.length > 1)
    have hcut := h.scanSources_failFast s.format (sources.length > 1)
    refine ⟨?_, ?_, fun _ => ⟨before, source, d, h.isCutOff _ _⟩⟩
    · rw [hcut, hfull]
    · intro hcode
      rw [hfull] at hcode
      exact absurd rfl hcode

/-- A run that is told to fail fast ends with the code of the run that is not. It prints the same if
there was no diagnostic, and else what the other prints in front of the first. -/
theorem run_failFast {fewer more : List String} {r : Request} (supply : Supply)
    (hr : parse fewer = .ok r) (hno : ¬ Given "--fail-fast" fewer)
    (ha : Adds "--fail-fast" fewer more) :
    (run more supply).exitCode = (run fewer supply).exitCode ∧
    ((run fewer supply).exitCode ≠ 1 → run more supply = run fewer supply) ∧
    ((run fewer supply).exitCode = 1 → ∃ s o sources before source d,
      r = .scan s ∧ prepare s supply = .ok (o, sources) ∧
      IsCutOff o (Source.page o s.format (sources.length > 1)) sources (run more supply)
        (run fewer supply) before source d) := by
  have hmore : run more supply = perform r.withFailFast supply := by
    rw [run, ha.parse_eq hr hno]
  have hfewer : run fewer supply = perform r supply := by
    rw [run, hr]
  rw [hmore, hfewer]
  cases r with
  | version | help =>
      refine ⟨rfl, fun _ => rfl, ?_⟩
      intro h
      cases h
  | scan s =>
      simp only [perform, Request.withFailFast]
      cases hp : prepare s supply with
      | error e =>
          have hcode : (scan s supply).exitCode = 2 := by
            rw [scan, hp]
          rw [scan_withFailFast_of_error hp]
          refine ⟨rfl, fun _ => rfl, ?_⟩
          intro h
          exact absurd (hcode.symm.trans h) (by decide)
      | ok p =>
          obtain ⟨hcode, hsame, hcut⟩ := scan_withFailFast hp
          refine ⟨hcode, hsame, ?_⟩
          intro h
          obtain ⟨before, source, d, hc⟩ := hcut h
          exact ⟨s, p.1, p.2, before, source, d, rfl, hp, hc⟩

/-- Three files of which the second has the first diagnostic. -/
theorem run_failFast_threeFiles :
    let supply : Supply := ⟨fun path =>
      if path == "a" then .ok "x = 1\n"
      else if path == "b" then .ok "y @\n\"z\n" else .ok "#", .ok ""⟩
    let fewer := ["-fkinds", "a", "b", "--", "c"]
    let more := ["-fkinds", "a", "--fail-fast", "b", "--", "c"]
    (run fewer supply).exitCode = 1 ∧
      run more supply = ⟨1, "==> a <==\nIDENTIFIER x\nEQUAL =\nNUMBER 1\n",
        "Unrecognized token on line 1, character '@'. Context: '@'.\n"⟩ ∧
      (∃ out, (run fewer supply).stdout = (run more supply).stdout ++ out) ∧
      ∃ err, (run fewer supply).stderr = (run more supply).stderr ++ err := by
  intro supply fewer more
  have hr : parse fewer = .ok (.scan { files := ["a", "b", "c"], format? := some .kinds }) := by
    decide +kernel
  have hno : ¬ Given "--fail-fast" fewer := by
    rw [Given]
    decide +kernel
  have done : parse ["-fkinds", "a"] =
      .ok (.scan { files := ["a"], format? := some .kinds }) := by
    decide +kernel
  have ha : Adds "--fail-fast" fewer more := .intro done (by decide +kernel)
  have hcode : (run fewer supply).exitCode = 1 := by decide +kernel
  obtain ⟨_, _, hcut⟩ := run_failFast supply hr hno ha
  obtain ⟨_, _, _, _, _, _, _, _, hc⟩ := hcut hcode
  exact ⟨hcode, by decide +kernel, hc.stdout_starts, hc.stderr_starts⟩

end LineLexer.Command
