import Mathlib
import LineLexer.Proofs.LineScan.Walk
import LineLexer.Scan

/-!
The loop over the lines without its state. Whatever was found before, a line adds to the books of
the loop what the scan of this line on its own says, and what is told meanwhile is told in step with
it. Hence the outcome of a scan and its events can be drawn from the scans of single lines.
-/

namespace LineLexer

def Options.stopsAfter (o : Options) (s : LineScan) : Bool :=
  o.recovery == .failFast && s.diagnostic?.isSome

/-- The scans of the lines that are visited, the first of which has the given number. -/
def visit (o : Options) (number : Nat) : List (List Char) → List LineScan
  | [] => []
  | text :: texts =>
    let scan := LineScan.ofLine o number text
    if o.stopsAfter scan then [scan] else scan :: visit o (number + 1) texts

def visited (o : Options) (source : String) : List LineScan :=
  visit o 1 (Text.lines source.toList)

/-- The diagnostic that ended the visit, if it was ended. -/
def stopper? (o : Options) (scans : List LineScan) : Option Diagnostic :=
  (scans.find? o.stopsAfter).bind (·.diagnostic?)

/-- What a line adds to the diagnostics. The one that stops a scan is handed out instead. -/
def Options.recorded (o : Options) (s : LineScan) : List Diagnostic :=
  if o.stopsAfter s then [] else s.diagnostic?.toList

namespace Report

def empty : Report := ⟨[], [], 0, 0⟩

/-- The books behind one more line. -/
def record (o : Options) (r : Report) (s : LineScan) : Report where
  tokens := r.tokens ++ s.tokens
  diagnostics := r.diagnostics ++ o.recorded s
  linesScanned := r.linesScanned + 1
  linesAbandoned := r.linesAbandoned + s.ending.isAbandoned.toNat

/-- The books behind the lines that were visited so far. -/
def soFar (o : Options) (scans : List LineScan) : Report := scans.foldl (record o) empty

/-- What the scans of consecutive lines add up to. -/
def ofScans (scans : List LineScan) : Report where
  tokens := scans.flatMap (·.tokens)
  diagnostics := scans.filterMap (·.diagnostic?)
  linesScanned := scans.length
  linesAbandoned := scans.countP (·.ending.isAbandoned)

end Report

/-- What the visited lines amount to. -/
def conclude (o : Options) (scans : List LineScan) : Except Failure Report :=
  match stopper? o scans with
  | some d => .error (.scan d)
  | none => .ok (.ofScans scans)

namespace Event

def ofEnding (line : Nat) : LineScan.Ending → List Event
  | .complete => []
  | .dropped => [dropped line]
  | .diagnosed d => [diagnosed d]

/-- What the scan of one line has to tell: its tokens, then its end. -/
def ofScan (s : LineScan) : List Event := s.tokens.map token ++ ofEnding s.number s.ending

def ofReport (r : Report) : Event :=
  finished r.linesScanned r.tokens.length r.diagnostics.length

end Event

/-! ### Where a visit stops -/

section

variable {o : Options}

theorem exists_diagnostic_of_stopsAfter {s : LineScan} (h : o.stopsAfter s = true) :
    ∃ d, s.diagnostic? = some d := by
  simp only [Options.stopsAfter, Bool.and_eq_true, Option.isSome_iff_exists] at h
  exact h.2

theorem stopper?_cons (o : Options) (s : LineScan) (scans : List LineScan) :
    stopper? o (s :: scans) = if o.stopsAfter s then s.diagnostic? else stopper? o scans := by
  rw [stopper?, List.find?_cons]
  cases o.stopsAfter s <;> rfl

theorem stopper?_eq_none_iff {scans : List LineScan} :
    stopper? o scans = none ↔ ∀ s ∈ scans, o.stopsAfter s = false := by
  constructor
  · intro h s hs
    cases hf : scans.find? o.stopsAfter with
    | none => exact Bool.eq_false_iff.mpr (List.find?_eq_none.mp hf s hs)
    | some t =>
        obtain ⟨d, hd⟩ := exists_diagnostic_of_stopsAfter (List.find?_some hf)
        rw [stopper?, hf, Option.bind_some, hd] at h
        cases h
  · intro h
    have hf : scans.find? o.stopsAfter = none := by
      apply List.find?_eq_none.mpr
      intro s hs
      exact Bool.eq_false_iff.mp (h s hs)
    rw [stopper?, hf]
    rfl

theorem visit_take (o : Options) (number : Nat) (texts : List (List Char)) (n : Nat) :
    visit o number (texts.take n) = (visit o number texts).take n := by
  induction texts generalizing number n with
  | nil => rw [List.take_nil, visit, List.take_nil]
  | cons text texts ih =>
      cases n with
      | zero => rfl
      | succ n =>
          rw [List.take_succ_cons, visit, visit]
          split
          · exact (List.take_of_length_le (by simp)).symm
          · rw [ih, List.take_succ_cons]

/-- If no line stops a scan, its books are the report on the lines. -/
theorem soFar_eq_ofScans {scans : List LineScan} (h : stopper? o scans = none) :
    Report.soFar o scans = .ofScans scans := by
  induction scans using List.reverseRecOn with
  | nil => rfl
  | append_singleton scans s ih =>
      rw [stopper?_eq_none_iff, List.forall_mem_append] at h
      obtain ⟨hscans, hs⟩ := h
      have goes_on := hs s List.mem_cons_self
      have before := ih (stopper?_eq_none_iff.mpr hscans)
      have kept : o.recorded s = [s].filterMap (·.diagnostic?) := by
        rw [Options.recorded, goes_on]
        cases hd : s.diagnostic? <;> simp [hd]
      have given_up : s.ending.isAbandoned.toNat = [s].countP (·.ending.isAbandoned) := by
        cases ha : s.ending.isAbandoned <;> simp [ha]
      rw [Report.soFar, List.foldl_append, ← Report.soFar, before]
      simp only [List.foldl_cons, List.foldl_nil, Report.record, Report.ofScans, kept, given_up,
        List.flatMap_append, List.flatMap_singleton, List.filterMap_append, List.length_append,
        List.length_singleton, List.countP_append]

end

/-! ### What a line adds -/

namespace Scanner

/-- What the loop makes of lines: all that they add is in their scans. -/
structure Adds (o : Options) (s : Scanner) (scans : List LineScan)
    (next : Scanner × Option Diagnostic) : Prop where
  report_eq : next.1.report = scans.foldl (Report.record o) s.report
  told_eq : next.1.told.toList = s.told.toList ++ scans.flatMap Event.ofScan
  stop_eq : next.2 = stopper? o scans

variable {o : Options}

theorem adds_scanLine (o : Options) (s : Scanner) (number : Nat) (text : List Char) :
    s.Adds o [LineScan.ofLine o number text] (s.scanLine o number text) := by
  have alone : LineScan.scanLine o ⟨.start number text, s.tokens, s.told⟩ =
      (s.tokens ++ (LineScan.ofLine o number text).tokens.toArray,
        s.told ++ ((LineScan.ofLine o number text).tokens.map Event.token).toArray,
        (LineScan.ofLine o number text).ending) := by
    rw [LineScan.scanLine_eq, LineScan.ofLine_eq]
    rfl
  have number_eq := LineScan.number_ofLine o number text
  rw [scanLine, alone]
  generalize LineScan.ofLine o number text = scan at number_eq
  obtain ⟨_, tokens, ending⟩ := scan
  obtain rfl := number_eq
  cases ending with
  | complete | dropped =>
      constructor
      all_goals simp [abandon, tell, report, Report.record, Options.recorded, Options.stopsAfter,
        stopper?, LineScan.diagnostic?, LineScan.Ending.diagnostic?, LineScan.Ending.isAbandoned,
        Event.ofScan, Event.ofEnding]
  | diagnosed d =>
      cases hr : o.recovery with
      | skipLine | failFast =>
          constructor
          all_goals simp [abandon, tell, report, Report.record, Options.recorded,
            Options.stopsAfter, hr, stopper?, LineScan.diagnostic?, LineScan.Ending.diagnostic?,
            LineScan.Ending.isAbandoned, Event.ofScan, Event.ofEnding]

theorem adds_scanLines (o : Options) (s : Scanner) (number : Nat) (texts : List (List Char)) :
    s.Adds o (visit o number texts) (s.scanLines o number texts) := by
  induction texts generalizing s number with
  | nil => exact ⟨rfl, (List.append_nil _).symm, rfl⟩
  | cons text texts ih =>
      have first := adds_scanLine o s number text
      rw [visit, scanLines]
      cases hs : s.scanLine o number text with
      | mk next stop =>
          rw [hs] at first
          have stop_eq := first.stop_eq
          rw [stopper?_cons] at stop_eq
          cases hstop : o.stopsAfter (LineScan.ofLine o number text) with
          | true =>
              obtain ⟨d, hd⟩ := exists_diagnostic_of_stopsAfter hstop
              rw [hstop, hd] at stop_eq
              obtain rfl : stop = some d := stop_eq
              exact first
          | false =>
              rw [hstop] at stop_eq
              obtain rfl : stop = none := stop_eq
              have later := ih next (number + 1)
              rw [if_neg Bool.false_ne_true]
              refine ⟨?_, ?_, ?_⟩
              · rw [later.report_eq, first.report_eq]
                rfl
              · rw [later.told_eq, first.told_eq, List.append_assoc, ← List.flatMap_append]
                rfl
              · rw [later.stop_eq, stopper?_cons, hstop]
                rfl

/-- The books of the loop behind any number of lines. -/
theorem report_scanLines_take (o : Options) (source : String) (n : Nat) :
    ((start source).scanLines o 1 ((Text.lines source.toList).take n)).1.report =
      .soFar o ((visited o source).take n) := by
  rw [(adds_scanLines o (start source) 1 _).report_eq, visit_take]
  rfl

end Scanner

/-! ### The outcome -/

section

variable (o : Options) (source : String)

/-- The diagnostic that ends the loop ends the visit of the lines, and without one the books of the
loop are the report on the lines. -/
theorem scan_eq_conclude : scan o source = conclude o (visited o source) := by
  have all := Scanner.adds_scanLines o (.start source) 1 (Text.lines source.toList)
  rw [scan, Scanner.run, conclude]
  cases hs : (Scanner.start source).scanLines o 1 (Text.lines source.toList) with
  | mk s stop =>
      rw [hs] at all
      rw [visited, ← all.stop_eq]
      cases stop with
      | some d => rfl
      | none => exact congrArg Except.ok (all.report_eq.trans (soFar_eq_ofScans all.stop_eq.symm))

/-- What is told along the loop: for each line that is visited its tokens, then its end. -/
theorem events_eq :
    events o source =
      .started source.utf8ByteSize :: (visited o source).flatMap Event.ofScan ++
        (conclude o (visited o source)).toOption.toList.map Event.ofReport := by
  have all := Scanner.adds_scanLines o (.start source) 1 (Text.lines source.toList)
  rw [events, Scanner.run, conclude]
  cases hs : (Scanner.start source).scanLines o 1 (Text.lines source.toList) with
  | mk s stop =>
      rw [hs] at all
      rw [visited, ← all.stop_eq]
      cases stop with
      | some d => exact all.told_eq.trans (List.append_nil _).symm
      | none =>
          have books : s.report = .ofScans (visit o 1 (Text.lines source.toList)) :=
            all.report_eq.trans (soFar_eq_ofScans all.stop_eq.symm)
          have last : Event.finished s.linesScanned s.tokens.size s.diagnostics.size =
              .ofReport s.report := rfl
          simp only [Scanner.tell, Array.toList_push, last, books]
          exact congrArg (· ++ _) all.told_eq

end

/-! ### Scans that skip bad lines -/

section

variable {o : Options} (h : o.recovery = .skipLine)

include h

theorem stopsAfter_skipLine (s : LineScan) : o.stopsAfter s = false := by
  rw [Options.stopsAfter, h]
  rfl

theorem stopper?_skipLine (scans : List LineScan) : stopper? o scans = none :=
  stopper?_eq_none_iff.mpr fun s _ => stopsAfter_skipLine h s

/-- A scan that skips bad lines cannot fail. -/
theorem scan_skipLine (source : String) : scan o source = .ok (.ofScans (visited o source)) := by
  rw [scan_eq_conclude, conclude, stopper?_skipLine h]

end
end LineLexer
