import LineLexer.Proofs.Scan.Acceptance
import LineLexer.Proofs.Scan.FailFast

/-!
The log of a scan against its report. A scan that skips lines tells its report line by line: the
tokens of the line, then its diagnostic or that the line was dropped. A scan that fails fast tells
the same up to the first warning, and its failure is worded like that warning.
-/

namespace LineLexer

/-- An event as it stands in a log. -/
structure Event.Entry where
  level : Event.Level
  message : String
  fields : List (String × Event.Field)
  deriving DecidableEq

def Event.entry (e : Event) : Event.Entry := ⟨e.level, e.message, e.fields⟩

def Token.entry (t : Token) : Event.Entry :=
  ⟨.trace, "token",
    [("line", .number t.line), ("kind", .text t.kind.name), ("lexeme", .text t.lexeme)]⟩

def Diagnostic.entry (d : Diagnostic) : Event.Entry :=
  ⟨.warn, d.message, [("line", .number d.line), ("character", .text d.character.toString)]⟩

namespace Report

/-- What a report tells about the end of a line. A line without a diagnostic was dropped silently if
it cannot be cut into blanks and lexemes. -/
def endLog (r : Report) (number : Nat) (line : List Char) : List Event.Entry :=
  match r.diagnostics.find? (·.line == number) with
  | some d => [d.entry]
  | none =>
    if line ∈ Lexeme.sequences then []
    else [⟨.debug, "line dropped silently", [("line", .number number)]⟩]

def lineLog (r : Report) (number : Nat) (line : List Char) : List Event.Entry :=
  (Token.onLine r.tokens number).map Token.entry ++ r.endLog number line

/-- The log of a scan that goes through all of a source, told from its report. -/
def log (r : Report) (source : String) : List Event.Entry :=
  ⟨.debug, "scan started", [("bytes", .number source.utf8ByteSize)]⟩ ::
    ((Text.lines source.toList).zipIdx 1).flatMap (fun (line, number) => r.lineLog number line) ++
    [⟨.debug, "scan finished",
      [("lines", .number r.linesScanned), ("tokens", .number r.tokens.length),
        ("diagnostics", .number r.diagnostics.length)]⟩]

end Report

@[simp] theorem Event.entry_token (t : Token) : (Event.token t).entry = t.entry := rfl

@[simp] theorem Event.entry_diagnosed (d : Diagnostic) : (Event.diagnosed d).entry = d.entry := rfl

/-- A log up to and with its first warning. -/
def Event.untilWarning : List Event.Entry → List Event.Entry
  | [] => []
  | e :: es => if e.level = .warn then [e] else e :: untilWarning es

/-! ### One line -/

namespace LineScan

section

variable {o : Options} {source : String} {r : Report} {k : Nat} {line : List Char}

theorem endLog_of_scan (h : scan o source = .ok r)
    (hk : (Text.lines source.toList)[k]? = some line) :
    r.endLog (k + 1) line =
      (Event.ofEnding (k + 1) (ofLine o (k + 1) line).ending).map Event.entry := by
  have hd : r.diagnostics.find? (·.line == k + 1) = (ofLine o (k + 1) line).diagnostic? := by
    have hfilter := congrArg List.head? (onLine_diagnostics_of_scan h hk)
    rw [Diagnostic.onLine, List.head?_filter, Option.head?_toList] at hfilter
    exact hfilter
  have habandoned := isAbandoned_iff_notMem o (k + 1) line
  rw [Report.endLog, hd, diagnostic?]
  cases hend : (ofLine o (k + 1) line).ending with
  | complete =>
      rw [hend] at habandoned
      have hmem : line ∈ Lexeme.sequences := by simpa [Ending.isAbandoned] using habandoned
      simp [Ending.diagnostic?, Event.ofEnding, hmem]
  | dropped =>
      rw [hend] at habandoned
      have hmem : line ∉ Lexeme.sequences := habandoned.mp rfl
      simp [Ending.diagnostic?, Event.ofEnding, hmem, Event.entry, Event.level, Event.message,
        Event.fields]
  | diagnosed d => rfl

theorem lineLog_of_scan (h : scan o source = .ok r)
    (hk : (Text.lines source.toList)[k]? = some line) :
    r.lineLog (k + 1) line = (Event.ofScan (ofLine o (k + 1) line)).map Event.entry := by
  rw [Report.lineLog, onLine_of_scan h hk, endLog_of_scan h hk, Event.ofScan, List.map_append,
    List.map_map]
  rfl

theorem ofLines_eq_map_zipIdx (o : Options) (number : Nat) (texts : List (List Char)) :
    ofLines o number texts = (texts.zipIdx number).map fun (line, n) => ofLine o n line := by
  induction texts generalizing number with
  | nil => rfl
  | cons text texts ih => rw [ofLines, ih, List.zipIdx_cons, List.map_cons]

end

end LineScan

/-! ### All lines -/

section

variable {o : Options} {source : String}

theorem events_of_scan {r : Report} (h : scan o source = .ok r) :
    events o source =
      .started source.utf8ByteSize :: (LineScan.ofSource o source).flatMap Event.ofScan ++
        [.ofReport r] := by
  have hok : conclude o (LineScan.ofSource o source) = .ok r := by rw [← scan_eq, h]
  rw [events_eq, visited_of_scan h, hok]
  rfl

/-- The log of a scan that succeeds can be told from its report. -/
theorem log_of_scan {r : Report} (h : scan o source = .ok r) :
    (events o source).map Event.entry = r.log source := by
  have hlines : (LineScan.ofSource o source).flatMap (fun s => (Event.ofScan s).map Event.entry) =
      ((Text.lines source.toList).zipIdx 1).flatMap
        fun (line, number) => r.lineLog number line := by
    rw [LineScan.ofSource, LineScan.ofLines_eq_map_zipIdx, List.flatMap_map]
    apply List.flatMap_congr
    rintro ⟨line, number⟩ hmem
    obtain ⟨hle, hk⟩ := List.mk_mem_zipIdx_iff_le_and_getElem?_sub.mp hmem
    have hline := LineScan.lineLog_of_scan h hk
    rw [Nat.sub_add_cancel hle] at hline
    exact hline.symm
  rw [events_of_scan h, Report.log, ← hlines, List.map_append, List.map_cons, List.map_flatMap]
  rfl

/-- A scan that is stopped tells nothing behind the diagnostic that stops it. -/
theorem events_of_stop {before after : List LineScan} {s : LineScan} {d : Diagnostic}
    (h : LineScan.ofSource o source = before ++ s :: after)
    (hb : ∀ t ∈ before, o.stopsAfter t = false) (hs : o.stopsAfter s = true)
    (hd : s.diagnostic? = some d) :
    events o source =
      .started source.utf8ByteSize :: (before ++ [s]).flatMap Event.ofScan ∧
        scan o source = .error (.scan d) := by
  have hvisit : visited o source = before ++ [s] := visit_eq_append h hb hs
  have hstop : conclude o (before ++ [s]) = .error (.scan d) := by
    rw [conclude, stopper?_append, stopper?_eq_none_iff.mpr hb, Option.none_or, stopper?_cons,
      if_pos hs, hd]
  rw [events_eq, scan_eq_conclude, hvisit, hstop]
  exact ⟨List.append_nil _, rfl⟩

end

/-! ### Up to a warning -/

namespace Event

theorem untilWarning_eq_self {es : List Entry} (h : ∀ e ∈ es, e.level ≠ .warn) :
    untilWarning es = es := by
  induction es with
  | nil => rfl
  | cons e es ih =>
      rw [List.forall_mem_cons] at h
      rw [untilWarning, if_neg h.1, ih h.2]

theorem untilWarning_append_cons {es : List Entry} {w : Entry} (h : ∀ e ∈ es, e.level ≠ .warn)
    (hw : w.level = .warn) (more : List Entry) : untilWarning (es ++ w :: more) = es ++ [w] := by
  induction es with
  | nil => rw [List.nil_append, untilWarning, if_pos hw, List.nil_append]
  | cons e es ih =>
      rw [List.forall_mem_cons] at h
      rw [List.cons_append, untilWarning, if_neg h.1, ih h.2, List.cons_append]

/-- Where no line has a diagnostic there is no warning. -/
theorem level_ne_warn_of_silent {scans : List LineScan} (h : ∀ s ∈ scans, s.diagnostic? = none) :
    ∀ e ∈ scans.flatMap ofScan, e.level ≠ .warn := by
  intro e he
  obtain ⟨s, hs, he⟩ := List.mem_flatMap.mp he
  have hend := h s hs
  rw [LineScan.diagnostic?] at hend
  rcases List.mem_append.mp he with ht | he
  · obtain ⟨t, _, rfl⟩ := List.mem_map.mp ht
    simp [level]
  · cases hs : s.ending with
    | complete => simp [hs, ofEnding] at he
    | dropped =>
        rw [hs, ofEnding, List.mem_singleton] at he
        simp [he, level]
    | diagnosed d => simp [hs, LineScan.Ending.diagnostic?] at hend

theorem ofScan_of_diagnostic? {s : LineScan} {d : Diagnostic} (h : s.diagnostic? = some d) :
    ofScan s = s.tokens.map token ++ [diagnosed d] := by
  rw [LineScan.diagnostic?] at h
  rw [ofScan]
  cases hend : s.ending with
  | complete => simp [hend, LineScan.Ending.diagnostic?] at h
  | dropped => simp [hend, LineScan.Ending.diagnostic?] at h
  | diagnosed e =>
      rw [hend] at h
      cases h
      rfl

end Event

section

variable {o : Options} {source : String} {r : Report}
  (hskip : scan { o with recovery := .skipLine } source = .ok r)

include hskip

theorem map_entry_eq_log :
    (Event.started source.utf8ByteSize ::
      ((LineScan.ofSource o source).flatMap Event.ofScan ++ [.ofReport r])).map Event.entry =
      r.log source := by
  rw [← log_of_scan hskip, events_of_scan hskip, LineScan.ofSource_recovery o .skipLine,
    List.cons_append]

/-- Without a diagnostic there is no warning, and failing fast makes no difference. -/
theorem failFast_of_silent (silent : ∀ s ∈ LineScan.ofSource o source, s.diagnostic? = none) :
    scan { o with recovery := .failFast } source = .ok r ∧ ∀ e ∈ r.log source, e.level ≠ .warn := by
  constructor
  · rw [scan_eq, LineScan.ofSource_recovery o .failFast, conclude, stopper?_failFast rfl,
      List.filterMap_eq_nil_iff.mpr silent, report_of_scan hskip,
      LineScan.ofSource_recovery o .skipLine]
    rfl
  · rw [← map_entry_eq_log hskip, List.forall_mem_map, List.forall_mem_cons,
      List.forall_mem_append]
    refine ⟨?_, Event.level_ne_warn_of_silent silent, ?_⟩
    · simp [Event.entry, Event.level]
    · simp [Event.entry, Event.level, Event.ofReport]

/-- With a diagnostic, the log is cut behind the first one, and that is the failure. -/
theorem failFast_of_diagnostic {before after : List LineScan} {s : LineScan} {d : Diagnostic}
    (hsplit : LineScan.ofSource o source = before ++ s :: after)
    (silent : ∀ t ∈ before, t.diagnostic? = none) (hd : s.diagnostic? = some d) :
    ∃ told more, r.log source = told ++ d.entry :: more ∧ (∀ e ∈ told, e.level ≠ .warn) ∧
      (events { o with recovery := .failFast } source).map Event.entry = told ++ [d.entry] ∧
      scan { o with recovery := .failFast } source = .error (.scan d) := by
  -- A visit that fails fast ends with `s`, since no line in front of it has a diagnostic.
  have stops := stopsAfter_failFast (o := { o with recovery := .failFast }) rfl
  rw [← LineScan.ofSource_recovery o .failFast] at hsplit
  have hb : ∀ t ∈ before, Options.stopsAfter { o with recovery := .failFast } t = false := by
    intro t ht
    rw [stops, silent t ht, Option.isSome_none]
  have hs : Options.stopsAfter { o with recovery := .failFast } s = true := by
    rw [stops, hd, Option.isSome_some]
  obtain ⟨hev, hscan⟩ := events_of_stop hsplit hb hs hd
  rw [LineScan.ofSource_recovery o .failFast] at hsplit
  refine ⟨(Event.started source.utf8ByteSize ::
      (before.flatMap Event.ofScan ++ s.tokens.map Event.token)).map Event.entry,
    (after.flatMap Event.ofScan ++ [Event.ofReport r]).map Event.entry, ?_, ?_, ?_, hscan⟩
  · rw [← map_entry_eq_log hskip, hsplit]
    simp [Event.ofScan_of_diagnostic? hd]
  · rw [List.forall_mem_map, List.forall_mem_cons, List.forall_mem_append]
    refine ⟨?_, Event.level_ne_warn_of_silent silent, ?_⟩
    · simp [Event.entry, Event.level]
    · simp [Event.entry, Event.level]
  · rw [hev]
    simp [Event.ofScan_of_diagnostic? hd]

/-- Failing fast, a scan tells what the report of a scan that goes on says up to a warning. -/
theorem untilWarning_log :
    (events { o with recovery := .failFast } source).map Event.entry =
        Event.untilWarning (r.log source) ∧
      match (r.log source).find? (·.level = .warn) with
      | none => scan { o with recovery := .failFast } source = .ok r
      | some w => ∃ f, scan { o with recovery := .failFast } source = .error f ∧
          w.message = f.message := by
  cases hf : (LineScan.ofSource o source).find? (·.diagnostic?.isSome) with
  | none =>
      have silent : ∀ s ∈ LineScan.ofSource o source, s.diagnostic? = none := by simpa using hf
      obtain ⟨hok, quiet⟩ := failFast_of_silent hskip silent
      have hnone : (r.log source).find? (·.level = .warn) = none := by simpa using quiet
      rw [log_of_scan hok, Event.untilWarning_eq_self quiet, hnone]
      exact ⟨rfl, hok⟩
  | some s =>
      obtain ⟨hs, before, after, hsplit, hb⟩ := List.find?_eq_some_iff_append.mp hf
      obtain ⟨d, hd⟩ := Option.isSome_iff_exists.mp hs
      have silent : ∀ t ∈ before, t.diagnostic? = none := by simpa using hb
      obtain ⟨told, more, hlog, quiet, hev, hscan⟩ :=
        failFast_of_diagnostic hskip hsplit silent hd
      have hfirst : (r.log source).find? (·.level = .warn) = some d.entry := by
        rw [hlog, List.find?_append, List.find?_eq_none.mpr (by simpa using quiet)]
        rfl
      rw [hev, hfirst, hlog, Event.untilWarning_append_cons quiet rfl]
      exact ⟨rfl, _, hscan, rfl⟩

end

/-- What a scan tells is what its report says, and failing fast cuts it behind the first warning. -/
theorem map_entry_events (o : Options) (source : String) :
    ∃ r, scan { o with recovery := .skipLine } source = .ok r ∧
      r.linesScanned = (Text.lines source.toList).length ∧
      (events { o with recovery := .skipLine } source).map Event.entry = r.log source ∧
      (events { o with recovery := .failFast } source).map Event.entry =
        Event.untilWarning (r.log source) ∧
      match (r.log source).find? (·.level = .warn) with
      | none => scan { o with recovery := .failFast } source = .ok r
      | some w => ∃ f, scan { o with recovery := .failFast } source = .error f ∧
          w.message = f.message := by
  have hskip := scan_skipLine (o := { o with recovery := .skipLine }) rfl source
  refine ⟨_, hskip, ?_, log_of_scan hskip, untilWarning_log hskip⟩
  rw [visited_of_scan hskip]
  exact length_ofLines _ 1 _

end LineLexer
