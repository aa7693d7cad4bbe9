import LineLexer.Proofs.Command.Sources
import LineLexer.Proofs.Json.Readers
import LineLexer.Proofs.Sequence.FirstFailure

/-!
Runs that cannot be prepared. The first obstacle on the way to the sources is all that such a run
has to tell: nothing is printed on the sources that could be read, whatever they hold.
-/

namespace LineLexer.Command

namespace Settings

/-- Everything that a scan asks for can be had. -/
structure Prepared (s : Settings) (supply : Supply) : Prop where
  loads : ∃ base, s.Loads supply base
  reads : ∀ name result, s.Reads supply name result → ∃ text, result = .ok text

/-- What a run tells about the obstacle that it meets. The configuration file comes before the
sources, and these come in the order of the command line. -/
inductive Blames (s : Settings) (supply : Supply) : String → Prop
  | unreadableFile {path : String} {fault : ReadFault} (h : s.config? = some path)
      (hr : supply.file path = .error fault) :
      Blames s supply s!"Cannot read '{path}': {fault.message}"
  | badFile {path text reason : String} (h : s.config? = some path)
      (hr : supply.file path = .ok text)
      (ho : Options.ofJson text = .error (.configuration reason)) :
      Blames s supply s!"in configuration file {path}: Invalid configuration: {reason}"
  | input {fault : ReadFault} (hl : ∃ base, s.Loads supply base) (h : s.files = [])
      (hr : supply.input = .error fault) :
      Blames s supply s!"Cannot read '<stdin>': {fault.message}"
  | source {path : String} {fault : ReadFault} (hl : ∃ base, s.Loads supply base)
      (h : FailsFirst supply.file s.files path fault) :
      Blames s supply s!"Cannot read '{path}': {fault.message}"

section

variable {s : Settings} {supply : Supply}

/-! ### The options -/

theorem baseOptions_of_unreadable {path : String} {fault : ReadFault} (h : s.config? = some path)
    (hr : supply.file path = .error fault) :
    s.baseOptions supply = .error (.unreadable path fault) := by
  simp only [baseOptions, h, hr]
  rfl

theorem baseOptions_of_bad {path text : String} {failure : Failure} (h : s.config? = some path)
    (hr : supply.file path = .ok text) (ho : Options.ofJson text = .error failure) :
    s.baseOptions supply = .error (.badConfig path failure) := by
  simp only [baseOptions, h, hr]
  change (Options.ofJson text).mapError _ = _
  rw [ho]
  rfl

theorem exists_blames_of_not_loads (h : ¬ ∃ base, s.Loads supply base) :
    ∃ chain, s.Blames supply chain := by
  cases hc : s.config? with
  | none => exact absurd ⟨_, .default hc⟩ h
  | some path =>
      cases hr : supply.file path with
      | error fault => exact ⟨_, .unreadableFile hc hr⟩
      | ok text =>
          cases ho : Options.ofJson text with
          | ok o => exact absurd ⟨o, .document hc hr ho⟩ h
          | error failure =>
              obtain ⟨reason, rfl⟩ := Json.Reader.exists_reason_of_load _ ho
              exact ⟨_, .badFile hc hr ho⟩

/-! ### The sources -/

theorem sources_of_failsFirst {path : String} {fault : ReadFault}
    (h : FailsFirst supply.file s.files path fault) :
    s.sources supply = .error (.unreadable path fault) := by
  obtain ⟨before, behind, hs, hb⟩ := h.splits
  have first : FailsFirst (readSource supply) s.files path (.unreadable path fault) := by
    refine ⟨⟨before, behind, hs, ?_⟩, ?_⟩
    · intro other ho
      obtain ⟨text, ht⟩ := hb other ho
      exact ⟨⟨other, text⟩, by rw [readSource, ht]⟩
    · rw [readSource, h.fails]
  have listed : ¬ s.files.isEmpty = true := by
    rw [List.isEmpty_iff]
    exact List.ne_nil_of_mem h.mem
  rw [sources, if_neg listed, first.mapM_eq]

theorem sources_of_input {fault : ReadFault} (h : s.files = []) (hr : supply.input = .error fault) :
    s.sources supply = .error (.unreadable inputName fault) := by
  simp only [sources, h, hr]
  rfl

theorem exists_blames_of_reads (hl : ∃ base, s.Loads supply base) {name : String}
    {fault : ReadFault} (h : s.Reads supply name (.error fault)) :
    ∃ chain, s.Blames supply chain := by
  cases h with
  | input h hr => exact ⟨_, .input hl h hr⟩
  | file hm hr =>
      obtain ⟨path, fault, first⟩ := FailsFirst.of_mem hm hr
      exact ⟨_, .source hl first⟩

theorem exists_blames_of_not_prepared (h : ¬ s.Prepared supply) :
    ∃ chain, s.Blames supply chain := by
  by_contra hn
  have loads : ∃ base, s.Loads supply base := by
    by_contra hl
    exact hn (exists_blames_of_not_loads hl)
  apply h
  refine ⟨loads, ?_⟩
  intro name result hr
  cases result with
  | ok text => exact ⟨text, rfl⟩
  | error fault => exact absurd (exists_blames_of_reads loads hr) hn

end
end Settings

/-! ### The run -/

section

variable {s : Settings} {supply : Supply}

theorem prepare_of_loads {base : Options} {obstacle : Obstacle} (hl : s.Loads supply base)
    (h : s.sources supply = .error obstacle) : prepare s supply = .error obstacle := by
  rw [prepare, Settings.options, hl.baseOptions_eq, h]
  rfl

theorem prepare_of_baseOptions {obstacle : Obstacle}
    (h : s.baseOptions supply = .error obstacle) : prepare s supply = .error obstacle := by
  rw [prepare, Settings.options, h]
  rfl

theorem message_badConfig (path reason : String) :
    (Obstacle.badConfig path (.configuration reason)).message =
      s!"in configuration file {path}: Invalid configuration: {reason}" := by
  have joined : ": " ++ "Invalid configuration: " = ": Invalid configuration: " := by
    decide +kernel
  change "in configuration file " ++ path ++ ": " ++ ("Invalid configuration: " ++ reason) =
    "in configuration file " ++ path ++ ": Invalid configuration: " ++ reason
  rw [← joined, String.append_assoc, String.append_assoc, String.append_assoc, String.append_assoc,
    String.append_assoc]

/-- The obstacle that is met is the one that is told about. -/
theorem Settings.Blames.exists_prepare_eq {chain : String} (h : s.Blames supply chain) :
    ∃ obstacle, prepare s supply = .error obstacle ∧ obstacle.message = chain := by
  cases h with
  | unreadableFile h hr =>
      exact ⟨_, prepare_of_baseOptions (Settings.baseOptions_of_unreadable h hr), rfl⟩
  | badFile h hr ho =>
      exact ⟨_, prepare_of_baseOptions (Settings.baseOptions_of_bad h hr ho),
        message_badConfig _ _⟩
  | input hl h hr =>
      obtain ⟨base, hl⟩ := hl
      exact ⟨_, prepare_of_loads hl (Settings.sources_of_input h hr), rfl⟩
  | source hl h =>
      obtain ⟨base, hl⟩ := hl
      exact ⟨_, prepare_of_loads hl (Settings.sources_of_failsFirst h), rfl⟩

theorem Settings.Blames.scan_eq {chain : String} (h : s.Blames supply chain) :
    scan s supply = ⟨2, "", "Error: " ++ chain ++ "\n"⟩ := by
  obtain ⟨obstacle, hp, rfl⟩ := h.exists_prepare_eq
  rw [scan, hp, ← onLines_singleton]
  rfl

theorem Settings.Prepared.exitCode_ne_two (h : s.Prepared supply) :
    (scan s supply).exitCode ≠ 2 := by
  obtain ⟨base, hl⟩ := h.loads
  obtain ⟨sources, hp, _⟩ := exists_prepare hl h.reads
  rw [scan_of_prepare hp, exitCode_scanSources]
  split <;> decide

theorem exitCode_scan_eq_two_iff : (scan s supply).exitCode = 2 ↔ ¬ s.Prepared supply := by
  constructor
  · intro h hp
    exact hp.exitCode_ne_two h
  · intro h
    obtain ⟨chain, hc⟩ := Settings.exists_blames_of_not_prepared h
    rw [hc.scan_eq]

end

/-- A run that cannot be prepared ends with 2 and tells the first obstacle and nothing else; no
other accepted command line ends with 2. -/
theorem run_unprepared {arguments : List String} {r : Request} (supply : Supply)
    (h : parse arguments = .ok r) :
    (∀ s, r = .scan s → ¬ s.Prepared supply → ∃ chain, s.Blames supply chain) ∧
    (∀ s chain, r = .scan s → s.Blames supply chain →
      run arguments supply = ⟨2, "", "Error: " ++ chain ++ "\n"⟩) ∧
    ((run arguments supply).exitCode = 2 ↔ ∃ s, r = .scan s ∧ ¬ s.Prepared supply) := by
  have performs : run arguments supply = perform r supply := by
    rw [run, h]
  refine ⟨?_, ?_, ?_⟩
  · intro s _ hp
    exact Settings.exists_blames_of_not_prepared hp
  · rintro s chain rfl hc
    rw [performs]
    exact hc.scan_eq
  · rw [performs]
    cases r with
    | version | help => simp [perform]
    | scan s =>
        refine exitCode_scan_eq_two_iff.trans ⟨fun hp => ⟨s, rfl, hp⟩, ?_⟩
        rintro ⟨_, hs, hp⟩
        cases hs
        exact hp

/-- The second of three files cannot be read, and the first one would have stopped the scan. -/
theorem run_unprepared_secondFile :
    let supply : Supply := ⟨fun path =>
      if path == "a" then .ok "x @\n" else if path == "b" then .error .notText else .ok "#",
      .ok ""⟩
    run ["--fail-fast", "a", "b", "c"] supply =
        ⟨2, "", "Error: Cannot read 'b': stream did not contain valid UTF-8\n"⟩ ∧
      ∃ s : Settings, s.files = ["a", "b", "c"] ∧ ¬ s.Prepared supply := by
  intro supply
  have hr : parse ["--fail-fast", "a", "b", "c"] =
      .ok (.scan { files := ["a", "b", "c"], failFast := true }) := by
    decide +kernel
  obtain ⟨_, told, only⟩ := run_unprepared supply hr
  have first : FailsFirst supply.file ["a", "b", "c"] "b" .notText :=
    .tail (b := "x @\n") (by decide +kernel) (.head (by decide +kernel))
  have outcome := told _ _ rfl (.source ⟨_, .default rfl⟩ first)
  obtain ⟨s, hs, hp⟩ := only.mp (by rw [outcome])
  cases hs
  exact ⟨outcome, _, rfl, hp⟩

end LineLexer.Command
