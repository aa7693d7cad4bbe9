import LineLexer.Proofs.Command.Accepted

/-!
What a flag does to a command line. The settings have a flag exactly if it was given in front of the
end of the options, and one more flag in any such place changes nothing but its own mark.
-/

namespace LineLexer.Command

/-- An argument in front of `--`, which ends the options. -/
def Given (argument : String) (arguments : List String) : Prop :=
  argument ∈ arguments.takeWhile (· != "--")

/-- The second command line is the first with one more argument, put in front of the end of the
options and where the arguments before it are done. -/
inductive Adds (argument : String) : List String → List String → Prop
  | intro {before behind : List String} {r : Request} (done : parse before = .ok r)
      (hend : "--" ∉ before) : Adds argument (before ++ behind) (before ++ argument :: behind)

def Settings.hasFlag (s : Settings) : Switch → Bool
  | .failFast => s.failFast
  | .silentUnterminated => s.silent
  | .format | .keywords | .config | .version | .help => false

def Settings.withFailFast (s : Settings) : Settings := { s with failFast := true }

def Request.withFailFast : Request → Request
  | scan s => scan s.withFailFast
  | version => version
  | help => help

/-! ### Where a flag is given -/

section

variable {x a : String} {rest before behind : List String} {switch : Switch}

theorem given_cons_iff (hend : a ≠ "--") : Given x (a :: rest) ↔ x = a ∨ Given x rest := by
  simp [Given, hend]

theorem given_append_iff (hend : "--" ∉ before) :
    Given x (before ++ behind) ↔ x ∈ before ∨ Given x behind := by
  have all : ∀ a ∈ before, (a != "--") = true := by
    intro a ha
    rw [bne_iff_ne]
    rintro rfl
    exact hend ha
  rw [Given, List.takeWhile_append_of_pos all, List.mem_append]
  rfl

theorem Switch.IsFlag.classify_spelling (hf : switch.IsFlag) :
    Argument.classify switch.spelling = .option switch none := by
  cases hf <;> decide +kernel

theorem Switch.IsFlag.shortName?_eq_none (hf : switch.IsFlag) : switch.shortName? = none := by
  cases hf <;> rfl

/-- An argument gives the flag of its class and no other. -/
theorem Switch.IsFlag.given_cons_iff (hf : switch.IsFlag) {c : Argument}
    (hc : Argument.classify a = c) (hend : c ≠ .endOfOptions) :
    Given switch.spelling (a :: rest) ↔ c = .option switch none ∨ Given switch.spelling rest := by
  have ha : a ≠ "--" := by
    rintro rfl
    exact hend hc.symm
  have hs : switch.spelling = a ↔ c = .option switch none := by
    constructor
    · rintro rfl
      exact hc.symm.trans hf.classify_spelling
    · rintro rfl
      exact (eq_of_classify_option hf.shortName?_eq_none hc).symm
  rw [Command.given_cons_iff ha, hs]

/-- What can be the value of an option is a file by itself. -/
theorem classify_of_isValue {value : String} (h : isValue value = true) :
    Argument.classify value = .file := by
  rw [isValue, Bool.or_eq_true, beq_iff_eq, Bool.not_eq_true',
    String.startsWith_string_eq_false_iff] at h
  rw [Argument.classify]
  rcases h with rfl | h
  · rfl
  · have hd : ∀ cs, value.toList ≠ '-' :: cs := by
      intro cs hcs
      apply h
      rw [hcs]
      exact List.prefix_append ['-'] cs
    split
    · next hl => exact absurd hl (hd _)
    · next hl => exact absurd hl (hd _)
    · next hl => exact absurd hl (hd _)
    · rfl

end

/-! ### What reading does to the flags -/

namespace Settings

section

variable {s t : Settings} {path value : String} {paths : List String} {switch x : Switch}

theorem hasFlag_of_addFile (h : s.addFile path = .ok t) : t.hasFlag x = s.hasFlag x := by
  rw [addFile] at h
  split at h <;> cases h
  rfl

theorem hasFlag_of_addFiles (h : s.addFiles paths = .ok t) : t.hasFlag x = s.hasFlag x := by
  rw [addFiles] at h
  induction paths generalizing s with
  | nil =>
      cases h
      rfl
  | cons path paths ih =>
      rw [List.foldlM_cons] at h
      cases hs : s.addFile path with
      | error e =>
          rw [hs] at h
          cases h
      | ok u =>
          rw [hs] at h
          exact (ih h).trans (hasFlag_of_addFile hs)

theorem hasFlag_of_setValue (h : s.setValue switch value = .ok t) : t.hasFlag x = s.hasFlag x := by
  cases switch with
  | failFast | silentUnterminated | version | help => cases h
  | format | keywords | config =>
      simp only [setValue] at h
      repeat' split at h
      all_goals cases h
      all_goals rfl

theorem hasFlag_of_setFlag (hf : switch.IsFlag) (hx : x.IsFlag) (h : s.setFlag switch = .ok t) :
    t.hasFlag x = true ↔ switch = x ∨ s.hasFlag x = true := by
  cases hf <;> cases hx <;>
  · rw [setFlag] at h
    split at h <;> cases h
    simp [hasFlag]

end

/-! ### What failing fast changes in reading -/

section

variable (s : Settings)

theorem addFile_withFailFast (path : String) :
    s.withFailFast.addFile path = (s.addFile path).map withFailFast := by
  rw [addFile, addFile]
  split <;> rfl

theorem addFiles_withFailFast (paths : List String) :
    s.withFailFast.addFiles paths = (s.addFiles paths).map withFailFast := by
  rw [addFiles, addFiles]
  induction paths generalizing s with
  | nil => rfl
  | cons path paths ih =>
      rw [List.foldlM_cons, List.foldlM_cons, addFile_withFailFast]
      cases s.addFile path with
      | error e => rfl
      | ok t => exact ih t

theorem setValue_withFailFast (switch : Switch) (value : String) :
    s.withFailFast.setValue switch value = (s.setValue switch value).map withFailFast := by
  cases switch with
  | failFast | silentUnterminated | version | help => rfl
  | format =>
      cases hn : Format.choices.lookup value <;> cases ho : s.format? <;>
        simp [setValue, withFailFast, hn, ho, Except.map]
  | keywords =>
      cases hn : Vocabulary.choices.lookup value <;> cases ho : s.vocabulary? <;>
        simp [setValue, withFailFast, hn, ho, Except.map]
  | config =>
      cases hn : value.isEmpty <;> cases ho : s.config? <;>
        simp [setValue, withFailFast, hn, ho, Except.map]

theorem setFlag_withFailFast :
    s.withFailFast.setFlag .silentUnterminated =
      (s.setFlag .silentUnterminated).map withFailFast := by
  cases ho : s.silent <;> simp [setFlag, withFailFast, ho, Except.map]

theorem setFlag_failFast (h : ¬ s.hasFlag .failFast = true) :
    s.setFlag .failFast = .ok s.withFailFast :=
  if_neg h

end

end Settings

section

variable {s t : Settings} {arguments : List String} {r : Request} {switch : Switch}

/-- The settings of a command line have the flags that it gives, and those they began with. -/
theorem Accepted.hasFlag_iff (h : Accepted s arguments (.scan t)) (hf : switch.IsFlag) :
    t.hasFlag switch = true ↔ Given switch.spelling arguments ∨ s.hasFlag switch = true := by
  generalize hr : Request.scan t = r at h
  induction h with
  | done =>
      cases hr
      simp [Given]
  | file hc hs _ ih =>
      rw [ih hr, Settings.hasFlag_of_addFile hs, hf.given_cons_iff hc (by simp)]
      simp
  | files hs =>
      cases hr
      rw [Settings.hasFlag_of_addFiles hs]
      simp [Given]
  | attached hc hs _ ih =>
      rw [ih hr, Settings.hasFlag_of_setValue hs, hf.given_cons_iff hc (by simp)]
      simp
  | @valued _ _ _ _ other _ _ hc ht hv hs _ ih =>
      have hne : other ≠ switch := by
        rintro rfl
        cases hf <;> cases ht
      rw [ih hr, Settings.hasFlag_of_setValue hs, hf.given_cons_iff hc (by simp),
        hf.given_cons_iff (classify_of_isValue hv) (by simp)]
      simp [hne]
  | flag hc hg hs _ ih =>
      rw [ih hr, Settings.hasFlag_of_setFlag hg hf hs, hf.given_cons_iff hc (by simp),
        or_left_comm, ← or_assoc]
      simp
  | version _ | help _ => cases hr

/-- Settings that fail fast read the same command lines, unless these ask for it once more. -/
theorem Accepted.withFailFast (h : Accepted s arguments r) (hno : ¬ Given "--fail-fast" arguments) :
    Accepted s.withFailFast arguments r.withFailFast := by
  -- No argument that is read is the flag itself, so that every step can be taken as before.
  have step {a : String} {rest : List String} {c : Argument} (hc : Argument.classify a = c)
      (hend : c ≠ .endOfOptions) (hn : ¬ Given "--fail-fast" (a :: rest)) :
      c ≠ .option .failFast none ∧ ¬ Given "--fail-fast" rest :=
    not_or.mp (mt (Switch.IsFlag.failFast.given_cons_iff hc hend).mpr hn)
  induction h with
  | done => exact .done
  | file hc hs _ ih =>
      refine .file hc ?_ (ih (step hc (by simp) hno).2)
      rw [Settings.addFile_withFailFast, hs]
      rfl
  | files hs =>
      apply Accepted.files
      rw [Settings.addFiles_withFailFast, hs]
      rfl
  | attached hc hs _ ih =>
      refine .attached hc ?_ (ih (step hc (by simp) hno).2)
      rw [Settings.setValue_withFailFast, hs]
      rfl
  | valued hc ht hv hs _ ih =>
      have hrest := (step hc (by simp) hno).2
      refine .valued hc ht hv ?_ (ih (step (classify_of_isValue hv) (by simp) hrest).2)
      rw [Settings.setValue_withFailFast, hs]
      rfl
  | flag hc hf hs _ ih =>
      obtain ⟨hne, hrest⟩ := step hc (by simp) hno
      refine .flag hc hf ?_ (ih hrest)
      cases hf with
      | failFast => exact absurd rfl hne
      | silentUnterminated =>
          rw [Settings.setFlag_withFailFast, hs]
          rfl
  | version hc => exact .version hc
  | help hc => exact .help hc

end

/-- One more argument to fail fast, wherever it is put, only makes the request fail fast. -/
theorem Adds.parse_eq {fewer more : List String} {r : Request} (h : Adds "--fail-fast" fewer more)
    (hr : parse fewer = .ok r) (hno : ¬ Given "--fail-fast" fewer) :
    parse more = .ok r.withFailFast := by
  cases h with
  | @intro before behind first done hend =>
      have hb := Accepted.of_parseFrom done
      rw [parse, hb.parseFrom_append hend] at hr ⊢
      rw [given_append_iff hend, not_or] at hno
      cases first with
      | version =>
          cases hr
          rfl
      | help =>
          cases hr
          rfl
      | scan s =>
          -- A second flag would be refused; the arguments before it have not set it.
          have hfree : ¬ s.hasFlag .failFast = true := by
            rw [hb.hasFlag_iff .failFast, not_or]
            constructor
            · intro hg
              exact hno.1 ((List.takeWhile_prefix _).subset hg)
            · exact Bool.false_ne_true
          have hc : Argument.classify "--fail-fast" = .option .failFast none :=
            Switch.IsFlag.failFast.classify_spelling
          have hnext := (Accepted.of_parseFrom hr).withFailFast hno.2
          rw [Request.followedBy, parseFrom_flag hc .failFast (s.setFlag_failFast hfree)]
          exact hnext.parseFrom_eq

end LineLexer.Command
