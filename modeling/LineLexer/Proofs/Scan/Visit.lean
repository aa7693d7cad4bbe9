import LineLexer.Proofs.LineScan.Derivation
import LineLexer.Proofs.Scan.Loop

/-!
Scans of consecutive lines. A visit stops early only at a diagnostic that becomes the outcome of the
whole scan, so every conclusion can be drawn from the scans of all lines. In a report, the tokens
that carry the number of a line are those which the scan of that line found.
-/

namespace LineLexer

/-- The scans of consecutive lines, however far a visit would get. -/
def LineScan.ofLines (o : Options) (number : Nat) : List (List Char) → List LineScan
  | [] => []
  | text :: texts => ofLine o number text :: ofLines o (number + 1) texts

def LineScan.ofSource (o : Options) (source : String) : List LineScan :=
  ofLines o 1 (Text.lines source.toList)

/-- What relates the scans of every single line relates the scans of all lines. -/
theorem ofLines_eq_map {o o' : Options} {f : LineScan → LineScan}
    (h : ∀ n text, LineScan.ofLine o n text = f (LineScan.ofLine o' n text)) (number : Nat)
    (texts : List (List Char)) :
    LineScan.ofLines o number texts = (LineScan.ofLines o' number texts).map f := by
  induction texts generalizing number with
  | nil => rfl
  | cons text texts ih => rw [LineScan.ofLines, LineScan.ofLines, List.map_cons, h, ih]

section

variable (o : Options) (number : Nat) (texts : List (List Char))

theorem getElem?_ofLines (k : Nat) :
    (LineScan.ofLines o number texts)[k]? = texts[k]?.map (LineScan.ofLine o (number + k)) := by
  induction texts generalizing number k with
  | nil => rfl
  | cons text texts ih =>
      cases k with
      | zero => rfl
      | succ k =>
          have h := ih (number + 1) k
          rw [Nat.add_right_comm, Nat.add_assoc] at h
          exact h

@[simp] theorem length_ofLines : (LineScan.ofLines o number texts).length = texts.length := by
  induction texts generalizing number with
  | nil => rfl
  | cons _ _ ih => rw [LineScan.ofLines, List.length_cons, List.length_cons, ih]

theorem ofLines_append (more : List (List Char)) :
    LineScan.ofLines o number (texts ++ more) =
      LineScan.ofLines o number texts ++ LineScan.ofLines o (number + texts.length) more := by
  induction texts generalizing number with
  | nil => rfl
  | cons text texts ih =>
      rw [List.cons_append, LineScan.ofLines, LineScan.ofLines, ih, List.length_cons,
        List.cons_append, Nat.add_assoc, Nat.add_comm 1]

/-! ### Where a visit stops -/

theorem stopper?_append (xs ys : List LineScan) :
    stopper? o (xs ++ ys) = (stopper? o xs).or (stopper? o ys) := by
  induction xs with
  | nil => rfl
  | cons s xs ih =>
      rw [List.cons_append, stopper?_cons, stopper?_cons, ih]
      split
      · next hs =>
          obtain ⟨d, hd⟩ := exists_diagnostic_of_stopsAfter hs
          rw [hd, Option.some_or]
      · rfl

theorem stopper?_visit :
    stopper? o (visit o number texts) = stopper? o (LineScan.ofLines o number texts) := by
  induction texts generalizing number with
  | nil => rfl
  | cons text texts ih =>
      rw [visit, LineScan.ofLines, stopper?_cons]
      split
      · next hs => rw [stopper?_cons, if_pos hs]
      · next hs => rw [stopper?_cons, if_neg hs, ih]

theorem visit_eq_ofLines {o : Options} {number : Nat} {texts : List (List Char)}
    (h : stopper? o (LineScan.ofLines o number texts) = none) :
    visit o number texts = LineScan.ofLines o number texts := by
  induction texts generalizing number with
  | nil => rfl
  | cons text texts ih =>
      have all := stopper?_eq_none_iff.mp h
      have hs := all _ List.mem_cons_self
      have hi := ih (stopper?_eq_none_iff.mpr fun s hs => all s (List.mem_cons_of_mem _ hs))
      rw [visit, LineScan.ofLines, hi, if_neg (Bool.eq_false_iff.mp hs)]

/-- A visit stops with the first scan that ends it. -/
theorem visit_eq_append {o : Options} {number : Nat} {texts : List (List Char)}
    {before after : List LineScan} {s : LineScan}
    (h : LineScan.ofLines o number texts = before ++ s :: after)
    (hb : ∀ t ∈ before, o.stopsAfter t = false) (hs : o.stopsAfter s = true) :
    visit o number texts = before ++ [s] := by
  induction texts generalizing number before with
  | nil => simp [LineScan.ofLines] at h
  | cons text texts ih =>
      rw [LineScan.ofLines] at h
      cases before with
      | nil =>
          obtain ⟨rfl, _⟩ := List.cons.inj h
          rw [visit, if_pos hs, List.nil_append]
      | cons t before =>
          obtain ⟨rfl, htail⟩ := List.cons.inj h
          rw [List.forall_mem_cons] at hb
          rw [visit, if_neg (Bool.eq_false_iff.mp hb.1), ih htail hb.2, List.cons_append]

end

section

variable {o : Options} {source : String}

theorem scan_eq : scan o source = conclude o (LineScan.ofSource o source) := by
  rw [scan_eq_conclude, conclude, conclude, visited, LineScan.ofSource, stopper?_visit]
  cases h : stopper? o (LineScan.ofLines o 1 (Text.lines source.toList)) with
  | none => rw [visit_eq_ofLines h]
  | some d => rfl

theorem visited_of_scan {r : Report} (h : scan o source = .ok r) :
    visited o source = LineScan.ofSource o source := by
  rw [scan_eq, conclude] at h
  split at h
  · cases h
  · next hs => exact visit_eq_ofLines hs

/-- If no line is given up, the report has nothing but tokens. -/
theorem scan_of_complete (h : ∀ s ∈ LineScan.ofSource o source, s.ending = .complete) :
    scan o source = .ok
      ⟨(LineScan.ofSource o source).flatMap (·.tokens), [],
        (LineScan.ofSource o source).length, 0⟩ := by
  have silent : ∀ s ∈ LineScan.ofSource o source, s.diagnostic? = none := by
    intro s hs
    rw [LineScan.diagnostic?, h s hs]
    rfl
  have stops : stopper? o (LineScan.ofSource o source) = none := by
    rw [stopper?_eq_none_iff]
    intro s hs
    rw [Options.stopsAfter, silent s hs]
    exact Bool.and_false _
  have abandoned : (LineScan.ofSource o source).countP (·.ending.isAbandoned) = 0 := by
    rw [List.countP_eq_zero]
    intro s hs
    rw [h s hs]
    exact Bool.false_ne_true
  rw [scan_eq, conclude, stops, Report.ofScans, List.filterMap_eq_nil_iff.mpr silent, abandoned]

theorem report_of_scan {r : Report} (h : scan o source = .ok r) :
    r = .ofScans (LineScan.ofSource o source) := by
  rw [scan_eq, conclude] at h
  split at h
  · cases h
  · exact (Except.ok.inj h).symm

end

/-! ### Numbers of lines -/

namespace LineScan

theorem exists_of_mem_ofLines {o : Options} {number : Nat} {texts : List (List Char)}
    {s : LineScan} (h : s ∈ ofLines o number texts) :
    ∃ k text, texts[k]? = some text ∧ s = ofLine o (number + k) text := by
  obtain ⟨k, hk⟩ := List.mem_iff_getElem?.mp h
  rw [getElem?_ofLines, Option.map_eq_some_iff] at hk
  obtain ⟨text, ht, rfl⟩ := hk
  exact ⟨k, text, ht, rfl⟩

theorem le_number_of_mem_ofLines {o : Options} {number : Nat} {texts : List (List Char)}
    {s : LineScan} (h : s ∈ ofLines o number texts) : number ≤ s.number := by
  obtain ⟨k, text, _, rfl⟩ := exists_of_mem_ofLines h
  exact Nat.le_add_right number k

theorem pairwise_ofLines (o : Options) (number : Nat) (texts : List (List Char)) :
    (ofLines o number texts).Pairwise (·.number < ·.number) := by
  induction texts generalizing number with
  | nil => exact .nil
  | cons text texts ih =>
      refine .cons ?_ (ih (number + 1))
      intro s hs
      exact le_number_of_mem_ofLines hs

theorem line_of_mem_tokens {o : Options} {number : Nat} {text : List Char} {t : Token}
    (h : t ∈ (ofLine o number text).tokens) : t.line = number := by
  obtain ⟨halt, hm, _⟩ := munched_ofLine o number text
  exact hm.line_eq t h

theorem line_of_diagnostic? {o : Options} {number : Nat} {text : List Char} {d : Diagnostic}
    (h : (ofLine o number text).diagnostic? = some d) : d.line = number := by
  rw [ofLine_eq] at h
  change (Ending.ofHalt o number _).diagnostic? = some d at h
  generalize (walk o.vocabulary (.start number text) #[]).2 = halt at h
  cases halt with
  | none => cases h
  | some halt =>
      simp only [Ending.ofHalt] at h
      split at h <;> cases h <;> rfl

end LineScan

/-! ### What carries the number of a line -/

def Diagnostic.onLine (diagnostics : List Diagnostic) (line : Nat) : List Diagnostic :=
  diagnostics.filter (·.line == line)

/-- What each scan records under its own number is found again under that number. -/
theorem filter_line_ofLines {α : Type} {o : Options} {record : LineScan → List α} {line : α → Nat}
    (hrecord : ∀ n text, ∀ a ∈ record (LineScan.ofLine o n text), line a = n) {number k : Nat}
    {texts : List (List Char)} {text : List Char} (h : texts[k]? = some text) :
    ((LineScan.ofLines o number texts).flatMap record).filter (line · == number + k) =
      record (LineScan.ofLine o (number + k) text) := by
  induction texts generalizing number k with
  | nil => cases h
  | cons first texts ih =>
      rw [LineScan.ofLines, List.flatMap_cons, List.filter_append]
      cases k with
      | zero =>
          obtain rfl := Option.some.inj h
          have own : ∀ a ∈ record (LineScan.ofLine o number first), (line a == number) = true := by
            intro a ha
            exact beq_iff_eq.mpr (hrecord number first a ha)
          have later : ∀ a ∈ (LineScan.ofLines o (number + 1) texts).flatMap record,
              ¬ (line a == number) = true := by
            intro a ha
            obtain ⟨s, hs, ha⟩ := List.mem_flatMap.mp ha
            obtain ⟨j, other, _, rfl⟩ := LineScan.exists_of_mem_ofLines hs
            rw [beq_iff_eq, hrecord _ other a ha]
            omega
          rw [Nat.add_zero, List.filter_eq_self.mpr own, List.filter_eq_nil_iff.mpr later,
            List.append_nil]
      | succ k =>
          have earlier : ∀ a ∈ record (LineScan.ofLine o number first),
              ¬ (line a == number + (k + 1)) = true := by
            intro a ha
            rw [beq_iff_eq, hrecord number first a ha]
            omega
          rw [List.filter_eq_nil_iff.mpr earlier, List.nil_append, Nat.add_comm k 1, ← Nat.add_assoc]
          exact ih h

section

variable {o : Options} {source : String} {r : Report} {k : Nat} {text : List Char}

/-- In a report, the number of a line leads to exactly what the scan of that line found. -/
theorem onLine_of_scan (h : scan o source = .ok r)
    (hk : (Text.lines source.toList)[k]? = some text) :
    Token.onLine r.tokens (k + 1) = (LineScan.ofLine o (k + 1) text).tokens := by
  rw [report_of_scan h, Nat.add_comm]
  exact filter_line_ofLines (fun _ _ _ ht => LineScan.line_of_mem_tokens ht) hk

/-- The tokens of a report, line by line, are what the scans of the lines found. -/
theorem map_onLine_of_scan (h : scan o source = .ok r) :
    (List.range r.linesScanned).map (fun k => Token.onLine r.tokens (k + 1)) =
      (LineScan.ofSource o source).map (·.tokens) := by
  have hlen : r.linesScanned = (Text.lines source.toList).length := by
    rw [report_of_scan h, Report.ofScans, LineScan.ofSource, length_ofLines]
  apply List.ext_getElem?
  intro k
  rw [List.getElem?_map, List.getElem?_map, LineScan.ofSource, getElem?_ofLines, hlen]
  cases hk : (Text.lines source.toList)[k]? with
  | none =>
      rw [List.getElem?_eq_none_iff] at hk
      rw [List.getElem?_eq_none (by simpa using hk)]
      rfl
  | some text =>
      obtain ⟨hlt, _⟩ := List.getElem?_eq_some_iff.mp hk
      rw [List.getElem?_range hlt, Option.map_some, onLine_of_scan h hk, Nat.add_comm]
      rfl

theorem onLine_diagnostics_of_scan (h : scan o source = .ok r)
    (hk : (Text.lines source.toList)[k]? = some text) :
    Diagnostic.onLine r.diagnostics (k + 1) =
      (LineScan.ofLine o (k + 1) text).diagnostic?.toList := by
  have own : ∀ n text, ∀ d ∈ (LineScan.ofLine o n text).diagnostic?.toList, d.line = n :=
    fun _ _ _ hd => LineScan.line_of_diagnostic? (Option.mem_toList.mp hd)
  rw [report_of_scan h, Nat.add_comm, Report.ofScans, List.filterMap_eq_flatMap_toList]
  exact filter_line_ofLines own hk

end

end LineLexer
