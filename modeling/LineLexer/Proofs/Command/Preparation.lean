import LineLexer.Command.Run
import LineLexer.Proofs.Command.Flags

/-!
What a run has before it scans: the options that it loads and the texts that it reads. The order in
which sources are named matters neither to what can be read nor to what is found there.
-/

namespace LineLexer.Command

namespace Settings

/-- The options to begin with, before the command line changes them. -/
inductive Loads (s : Settings) (supply : Supply) : Options → Prop
  | default (h : s.config? = none) : Loads s supply {}
  | document {path text : String} {o : Options} (h : s.config? = some path)
      (hr : supply.file path = .ok text) (ho : Options.ofJson text = .ok o) : Loads s supply o

/-- What comes of reading the source of a name. -/
inductive Reads (s : Settings) (supply : Supply) : String → Except ReadFault String → Prop
  | input {result : Except ReadFault String} (h : s.files = []) (hr : supply.input = result) :
      Reads s supply inputName result
  | file {path : String} {result : Except ReadFault String} (h : path ∈ s.files)
      (hr : supply.file path = result) : Reads s supply path result

section

variable {s t : Settings} {supply supply' : Supply} {name : String}
  {result : Except ReadFault String}

theorem reads_of_nil (h : s.files = []) :
    s.Reads supply name result ↔ name = inputName ∧ supply.input = result := by
  constructor
  · intro hr
    cases hr with
    | input _ hr => exact ⟨rfl, hr⟩
    | file hm _ => simp [h] at hm
  · rintro ⟨rfl, hr⟩
    exact .input h hr

theorem reads_of_ne_nil (h : s.files ≠ []) :
    s.Reads supply name result ↔ name ∈ s.files ∧ supply.file name = result := by
  constructor
  · intro hr
    cases hr with
    | input hnil _ => exact absurd hnil h
    | file hm hr => exact ⟨hm, hr⟩
  · intro ⟨hm, hr⟩
    exact .file hm hr

/-- Settings that name the same files in any order read the same, from supplies with those files. -/
theorem reads_congr (hfiles : t.files.Perm s.files) (hinput : supply'.input = supply.input)
    (hfile : ∀ path ∈ s.files, supply'.file path = supply.file path) :
    t.Reads supply' name result ↔ s.Reads supply name result := by
  have hnil : t.files = [] ↔ s.files = [] := by
    rw [← List.length_eq_zero_iff, hfiles.length_eq, List.length_eq_zero_iff]
  by_cases h : s.files = []
  · rw [reads_of_nil h, reads_of_nil (hnil.mpr h), hinput]
  · have ht : t.files ≠ [] := mt hnil.mp h
    rw [reads_of_ne_nil h, reads_of_ne_nil ht, hfiles.mem_iff]
    apply and_congr_right
    intro hm
    rw [hfile name hm]

theorem Loads.baseOptions_eq {base : Options} (h : s.Loads supply base) :
    s.baseOptions supply = .ok base := by
  cases h with
  | default h => rw [baseOptions, h]
  | document h hr ho =>
      simp only [baseOptions, h, hr]
      change (Options.ofJson _).mapError _ = _
      rw [ho]
      rfl

theorem exists_mapM_readSource {paths : List String}
    (h : ∀ path ∈ paths, ∃ text, supply.file path = .ok text) :
    ∃ sources, paths.mapM (readSource supply) = .ok sources ∧
      ∀ source, source ∈ sources ↔
        source.name ∈ paths ∧ supply.file source.name = .ok source.text := by
  induction paths with
  | nil => exact ⟨[], rfl, by simp⟩
  | cons path paths ih =>
      rw [List.forall_mem_cons] at h
      obtain ⟨text, ht⟩ := h.1
      obtain ⟨sources, hm, hs⟩ := ih h.2
      have hr : readSource supply path = .ok ⟨path, text⟩ := by
        rw [readSource, ht]
      refine ⟨⟨path, text⟩ :: sources, ?_, ?_⟩
      · rw [List.mapM_cons, hr, hm]
        rfl
      · intro source
        rw [List.mem_cons, List.mem_cons, hs, or_and_right]
        apply or_congr_left
        cases source with
        | mk name body =>
            rw [Source.mk.injEq]
            apply and_congr_right
            rintro rfl
            rw [ht, Except.ok.injEq, eq_comm]

/-- If everything can be read, the sources are what was read. -/
theorem exists_sources (h : ∀ name result, s.Reads supply name result → ∃ text, result = .ok text) :
    ∃ sources, s.sources supply = .ok sources ∧
      ∀ source, source ∈ sources ↔ s.Reads supply source.name (.ok source.text) := by
  by_cases hfiles : s.files = []
  · obtain ⟨text, ht⟩ := h inputName supply.input (.input hfiles rfl)
    refine ⟨[⟨inputName, text⟩], ?_, ?_⟩
    · simp [sources, hfiles, ht]
    · intro source
      rw [List.mem_singleton, reads_of_nil hfiles, ht, Except.ok.injEq]
      cases source with
      | mk name body => rw [Source.mk.injEq, eq_comm (a := text)]
  · have hread : ∀ path ∈ s.files, ∃ text, supply.file path = .ok text := by
      intro path hp
      exact h path _ (.file hp rfl)
    obtain ⟨found, hm, hs⟩ := exists_mapM_readSource hread
    refine ⟨found, ?_, ?_⟩
    · rw [sources, if_neg (by simpa using hfiles), hm]
    · intro source
      rw [hs, reads_of_ne_nil hfiles]

end

end Settings

/-- What is prepared for a scan, when everything can be had. -/
theorem exists_prepare {s : Settings} {supply : Supply} {base : Options} (hl : s.Loads supply base)
    (hr : ∀ name result, s.Reads supply name result → ∃ text, result = .ok text) :
    ∃ sources, prepare s supply = .ok (s.override base, sources) ∧
      ∀ source, source ∈ sources ↔ s.Reads supply source.name (.ok source.text) := by
  obtain ⟨sources, hs, hm⟩ := s.exists_sources hr
  refine ⟨sources, ?_, hm⟩
  rw [prepare, Settings.options, hl.baseOptions_eq, hs]
  rfl

/-- Failing fast is seen in the options only. -/
theorem prepare_withFailFast (s : Settings) (supply : Supply) :
    prepare s.withFailFast supply =
      (prepare s supply).map fun p => ({ p.1 with recovery := .failFast }, p.2) := by
  have hs : s.withFailFast.sources supply = s.sources supply := rfl
  have ho : s.withFailFast.options supply =
      (s.options supply).map fun o => { o with recovery := .failFast } := by
    have hb : s.withFailFast.baseOptions supply = s.baseOptions supply := rfl
    rw [Settings.options, Settings.options, hb]
    cases s.baseOptions supply <;> rfl
  rw [prepare, prepare, hs, ho]
  cases s.options supply with
  | error e => rfl
  | ok o => cases s.sources supply <;> rfl

end LineLexer.Command
