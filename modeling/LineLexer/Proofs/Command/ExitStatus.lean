import LineLexer.Proofs.Command.Sources
import LineLexer.Proofs.Scan.Passing

/-!
The exit code as a verdict on the sources. It depends on the texts and on whether open strings are
silenced, and on nothing else that can be asked for.
-/

namespace LineLexer.Command

/-- A command line that gets as far as scanning: it is accepted, the options are loaded, and every
source is a text. -/
structure Ready (arguments : List String) (supply : Supply) (s : Settings) (base : Options) :
    Prop where
  accepted : parse arguments = .ok (.scan s)
  loads : s.Loads supply base
  reads : ∀ name result, s.Reads supply name result → ∃ text, result = .ok text

/-- The command line or the options that it begins with drop open strings without a word. -/
def Silences (arguments : List String) (base : Options) : Prop :=
  Given "--silent-unterminated" arguments ∨ base.openStrings = .silent

/-- No line of a source is worth a diagnostic. -/
def AllPass (s : Settings) (supply : Supply) (silenced : Prop) : Prop :=
  ∀ name text, s.Reads supply name (.ok text) →
    ∀ line ∈ Text.lines text.toList, Passes silenced line

theorem override_openStrings_iff {arguments : List String} {s : Settings} (base : Options)
    (h : parse arguments = .ok (.scan s)) :
    (s.override base).openStrings = .silent ↔ Silences arguments base := by
  have hf := (Accepted.of_parseFrom h).hasFlag_iff .silentUnterminated
  have hsilent : s.silent = true ↔ Given "--silent-unterminated" arguments :=
    hf.trans (or_iff_left Bool.false_ne_true)
  rw [Silences, ← hsilent, Settings.override]
  cases s.silent <;> simp

theorem isClean_iff_passes {o : Options} {source : Source} :
    source.IsClean o ↔
      ∀ line ∈ Text.lines source.text.toList, Passes (o.openStrings = .silent) line := by
  rw [isClean_iff, Source.report, diagnostics_eq_nil_iff]

section

variable {arguments : List String} {supply : Supply} {s : Settings} {base : Options}

open Classical in
theorem Ready.exitCode_eq (h : Ready arguments supply s base) :
    (run arguments supply).exitCode =
      if AllPass s supply (Silences arguments base) then 0 else 1 := by
  obtain ⟨sources, hp, hm⟩ := exists_prepare h.loads h.reads
  have hrun : run arguments supply = scan s supply := by
    rw [run, h.accepted]
    rfl
  have hall : (∀ source ∈ sources, source.IsClean (s.override base)) ↔
      AllPass s supply (Silences arguments base) := by
    have hsil := propext (override_openStrings_iff base h.accepted)
    constructor
    · intro hc name text hr
      have hs := isClean_iff_passes.mp (hc ⟨name, text⟩ ((hm _).mpr hr))
      rw [hsil] at hs
      exact hs
    · intro hc source hs
      rw [isClean_iff_passes, hsil]
      exact hc source.name source.text ((hm source).mp hs)
  rw [hrun, scan_of_prepare hp, exitCode_scanSources]
  simp only [hall]

end

/-- A run ends with 0 if every line passes and with 1 if one does not. So does every other run on
the same files, in any order and whatever it is asked for, unless it treats open strings
otherwise. -/
theorem exitCode_run {arguments : List String} {supply : Supply} {s : Settings} {base : Options}
    (h : Ready arguments supply s base) :
    (AllPass s supply (Silences arguments base) → (run arguments supply).exitCode = 0) ∧
    (¬ AllPass s supply (Silences arguments base) → (run arguments supply).exitCode = 1) ∧
    ∀ arguments' supply' s' base', Ready arguments' supply' s' base' → s'.files.Perm s.files →
      supply'.input = supply.input → (∀ path ∈ s.files, supply'.file path = supply.file path) →
      (Silences arguments' base' ↔ Silences arguments base) →
      (run arguments' supply').exitCode = (run arguments supply).exitCode := by
  classical
  refine ⟨?_, ?_, ?_⟩
  · intro hp
    rw [h.exitCode_eq, if_pos hp]
  · intro hp
    rw [h.exitCode_eq, if_neg hp]
  · intro arguments' supply' s' base' h' hfiles hinput hfile hsil
    have hall : AllPass s' supply' (Silences arguments' base') ↔
        AllPass s supply (Silences arguments base) := by
      rw [AllPass, propext hsil]
      simp only [Settings.reads_congr hfiles hinput hfile]
      rfl
    rw [h.exitCode_eq, h'.exitCode_eq]
    simp only [hall]

/-- A configuration file silences the open string in one run, a flag in the other. -/
theorem exitCode_run_silenced :
    let supply : Supply := ⟨fun path =>
      if path == "c" then .ok "\x7b \"unterminated-strings\": \"silent\" \x7d"
      else if path == "a" then .ok "x == 1\n\ty \"open" else .ok "", .error .notText⟩
    let s : Settings := { files := ["a", "b"], format? := some .json, config? := some "c" }
    AllPass s supply True ∧
      (run ["-f", "json", "a", "--config", "c", "b"] supply).exitCode = 0 ∧
      (run ["b", "--fail-fast", "--silent-unterminated", "--", "a"] supply).exitCode = 0 := by
  intro supply s
  let t : Settings := { files := ["b", "a"], failFast := true, silent := true }
  have all (u : Settings) (hu : u.files ≠ []) (name : String) (result : Except ReadFault String)
      (hr : u.Reads supply name result) : ∃ text, result = .ok text := by
    rw [Settings.reads_of_ne_nil hu] at hr
    rw [← hr.2]
    simp only [supply]
    split
    · exact ⟨_, rfl⟩
    · split <;> exact ⟨_, rfl⟩
  have hs : Ready ["-f", "json", "a", "--config", "c", "b"] supply s { openStrings := .silent } :=
    ⟨by decide +kernel, .document rfl rfl (by decide +kernel), all s (by decide)⟩
  have ht : Ready ["b", "--fail-fast", "--silent-unterminated", "--", "a"] supply t {} :=
    ⟨by decide +kernel, .default rfl, all t (by decide)⟩
  have hsilent : Silences ["-f", "json", "a", "--config", "c", "b"] { openStrings := .silent } :=
    .inr rfl
  have hgiven : Silences ["b", "--fail-fast", "--silent-unterminated", "--", "a"] {} := by
    rw [Silences, Given]
    decide +kernel
  have hcode : (run ["-f", "json", "a", "--config", "c", "b"] supply).exitCode = 0 := by
    decide +kernel
  obtain ⟨_, hfail, hsame⟩ := exitCode_run hs
  refine ⟨?_, hcode, ?_⟩
  · rw [← iff_true_intro hsilent]
    by_contra hn
    exact absurd (hcode.symm.trans (hfail hn)) (by decide)
  · have hsil := (iff_true_intro hgiven).trans (iff_true_intro hsilent).symm
    exact (hsame _ supply t {} ht (.swap "a" "b" []) rfl (fun _ _ => rfl) hsil).trans hcode

end LineLexer.Command
