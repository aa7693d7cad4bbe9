import Mathlib
import LineLexer.Command.Arguments

/-!
The command lines that are accepted, as a relation between settings, the arguments behind them and
the request they make. A command line can be continued wherever one argument is done and the options
have not been ended.
-/

namespace LineLexer.Command

/-- The switches that stand alone and leave a mark in the settings. -/
inductive Switch.IsFlag : Switch → Prop
  | failFast : IsFlag .failFast
  | silentUnterminated : IsFlag .silentUnterminated

/-- A switch as an argument, by its long name. -/
def Switch.spelling (switch : Switch) : String := "--" ++ switch.longName

/-- The request that arguments make behind those which led to the settings. -/
inductive Accepted : Settings → List String → Request → Prop
  | done {s : Settings} : Accepted s [] (.scan s)
  | file {s t : Settings} {a : String} {rest : List String} {r : Request}
      (hc : Argument.classify a = .file) (hs : s.addFile a = .ok t) (next : Accepted t rest r) :
      Accepted s (a :: rest) r
  | files {s t : Settings} {rest : List String} (hs : s.addFiles rest = .ok t) :
      Accepted s ("--" :: rest) (.scan t)
  | attached {s t : Settings} {a value : String} {switch : Switch} {rest : List String}
      {r : Request} (hc : Argument.classify a = .option switch (some value))
      (hs : s.setValue switch value = .ok t) (next : Accepted t rest r) : Accepted s (a :: rest) r
  | valued {s t : Settings} {a value : String} {switch : Switch} {rest : List String} {r : Request}
      (hc : Argument.classify a = .option switch none) (ht : switch.takesValue = true)
      (hv : isValue value = true) (hs : s.setValue switch value = .ok t)
      (next : Accepted t rest r) : Accepted s (a :: value :: rest) r
  | flag {s t : Settings} {a : String} {switch : Switch} {rest : List String} {r : Request}
      (hc : Argument.classify a = .option switch none)
      (hf : switch.IsFlag) (hs : s.setFlag switch = .ok t)
      (next : Accepted t rest r) : Accepted s (a :: rest) r
  | version {s : Settings} {a : String} {rest : List String}
      (hc : Argument.classify a = .option .version none) : Accepted s (a :: rest) .version
  | help {s : Settings} {a : String} {rest : List String}
      (hc : Argument.classify a = .option .help none) : Accepted s (a :: rest) .help

/-! ### Classes of arguments -/

theorem eq_of_classify_endOfOptions {a : String} (h : Argument.classify a = .endOfOptions) :
    a = "--" := by
  rw [Argument.classify] at h
  split at h
  · next hl => exact String.toList_inj.mp hl
  · rw [Argument.ofLong] at h
    split at h <;> cases h
  · rw [Argument.ofShort] at h
    repeat' split at h
    all_goals cases h
  · cases h

theorem Argument.eq_of_ofLong {body : List Char} {switch : Switch}
    (h : Argument.ofLong body = .option switch none) : String.ofList body = switch.longName := by
  rw [Argument.ofLong] at h
  split at h
  · next other hfind =>
      injection h with hs hvalue
      subst hs
      cases hd : body.dropWhile (· != '=') with
      | cons _ _ => simp [hd] at hvalue
      | nil =>
          have hbody := List.takeWhile_append_dropWhile (p := (· != '=')) (l := body)
          rw [hd, List.append_nil] at hbody
          rw [hbody, Switch.ofLong?] at hfind
          have hname := List.find?_some hfind
          exact (beq_iff_eq.mp hname).symm
  · cases h

theorem Argument.shortName?_of_ofShort {c : Char} {body : List Char} {switch : Switch}
    {value : Option String} (h : Argument.ofShort c body = .option switch value) :
    switch.shortName? = some c := by
  rw [Argument.ofShort] at h
  split at h
  · cases h
  · next other hfind =>
      rw [Switch.ofShort?] at hfind
      have hc := List.find?_some hfind
      repeat' split at h
      all_goals
        cases h
        exact beq_iff_eq.mp hc

/-- An option without a short name is spelled by its long name only. -/
theorem eq_of_classify_option {a : String} {switch : Switch} (hshort : switch.shortName? = none)
    (h : Argument.classify a = .option switch none) : a = switch.spelling := by
  rw [Argument.classify] at h
  split at h
  · cases h
  · next _ body _ hl =>
      have hbody := congrArg String.toList (Argument.eq_of_ofLong h)
      rw [String.toList_ofList] at hbody
      rw [← String.toList_inj, hl, Switch.spelling, String.toList_append, ← hbody]
      rfl
  · rw [Argument.shortName?_of_ofShort h] at hshort
    cases hshort
  · cases h

/-! ### The reader -/

section

variable {s t : Settings} {a value : String} {switch : Switch} {rest : List String}

theorem parseFrom_file (hc : Argument.classify a = .file) (hs : s.addFile a = .ok t) :
    parseFrom s (a :: rest) = parseFrom t rest := by
  rw [parseFrom, hc]
  simp only [hs]

theorem parseFrom_attached (hc : Argument.classify a = .option switch (some value))
    (hs : s.setValue switch value = .ok t) : parseFrom s (a :: rest) = parseFrom t rest := by
  rw [parseFrom, hc]
  simp only [hs]

theorem parseFrom_valued (hc : Argument.classify a = .option switch none)
    (ht : switch.takesValue = true) (hv : isValue value = true)
    (hs : s.setValue switch value = .ok t) :
    parseFrom s (a :: value :: rest) = parseFrom t rest := by
  rw [parseFrom, hc]
  cases switch <;> simp_all [Switch.takesValue]

theorem parseFrom_flag (hc : Argument.classify a = .option switch none)
    (hf : switch.IsFlag) (hs : s.setFlag switch = .ok t) :
    parseFrom s (a :: rest) = parseFrom t rest := by
  rw [parseFrom, hc]
  cases hf <;> simp [Switch.takesValue, hs]

end

theorem Accepted.of_parseFrom {s : Settings} {arguments : List String} {r : Request}
    (h : parseFrom s arguments = .ok r) : Accepted s arguments r := by
  fun_induction parseFrom s arguments with
  | case1 s =>
      cases h
      exact .done
  | case2 s a rest hc t hs ih => exact .file hc hs (ih h)
  | case4 s a rest hc =>
      obtain rfl := eq_of_classify_endOfOptions hc
      cases hs : s.addFiles rest with
      | error e =>
          rw [hs] at h
          cases h
      | ok t =>
          rw [hs] at h
          cases h
          exact .files hs
  | case6 s a rest switch value hc t hs ih => exact .attached hc hs (ih h)
  | case8 s a rest hc =>
      cases h
      exact .version hc
  | case9 s a rest hc =>
      cases h
      exact .help hc
  | case11 s a switch _ _ hc ht value rest hv t hs ih => exact .valued hc ht hv hs (ih h)
  | case14 s a rest switch hv hh hc ht t hs ih =>
      refine .flag hc ?_ hs (ih h)
      cases switch with
      | failFast => exact .failFast
      | silentUnterminated => exact .silentUnterminated
      | format | keywords | config => exact absurd rfl ht
      | version => exact absurd rfl hv
      | help => exact absurd rfl hh
  | case3 | case5 | case7 | case10 | case12 | case13 | case15 => cases h

theorem Accepted.parseFrom_eq {s : Settings} {arguments : List String} {r : Request}
    (h : Accepted s arguments r) : parseFrom s arguments = .ok r := by
  induction h with
  | done => rfl
  | file hc hs _ ih => rw [parseFrom_file hc hs, ih]
  | files hs =>
      rw [parseFrom, show Argument.classify "--" = .endOfOptions from rfl]
      simp only [hs]
      rfl
  | attached hc hs _ ih => rw [parseFrom_attached hc hs, ih]
  | valued hc ht hv hs _ ih => rw [parseFrom_valued hc ht hv hs, ih]
  | flag hc hf hs _ ih => rw [parseFrom_flag hc hf hs, ih]
  | version hc => rw [parseFrom, hc]
  | help hc => rw [parseFrom, hc]

/-- The request of arguments that stand behind those of a request. -/
def Request.followedBy (behind : List String) : Request → Except UsageError Request
  | scan s => parseFrom s behind
  | version => .ok version
  | help => .ok help

/-- Reading goes on where the arguments before have been read. -/
theorem Accepted.parseFrom_append {s : Settings} {before : List String} {r : Request}
    (h : Accepted s before r) (hend : "--" ∉ before) (behind : List String) :
    parseFrom s (before ++ behind) = r.followedBy behind := by
  induction h with
  | done => rfl
  | file hc hs _ ih =>
      rw [List.cons_append, parseFrom_file hc hs, ih fun hm => hend (List.mem_cons_of_mem _ hm)]
  | files hs => exact absurd List.mem_cons_self hend
  | attached hc hs _ ih =>
      rw [List.cons_append, parseFrom_attached hc hs,
        ih fun hm => hend (List.mem_cons_of_mem _ hm)]
  | valued hc ht hv hs _ ih =>
      rw [List.cons_append, List.cons_append, parseFrom_valued hc ht hv hs,
        ih fun hm => hend (List.mem_cons_of_mem _ (List.mem_cons_of_mem _ hm))]
  | flag hc hf hs _ ih =>
      rw [List.cons_append, parseFrom_flag hc hf hs, ih fun hm => hend (List.mem_cons_of_mem _ hm)]
  | version hc => rw [List.cons_append, parseFrom, hc, Request.followedBy]
  | help hc => rw [List.cons_append, parseFrom, hc, Request.followedBy]

end LineLexer.Command
