import LineLexer.Proofs.Scan.Visit

/-!
Scans changed line by line. A change that acts on tokens and on diagnostics one by one, and gives up
the same lines, acts in the same way on reports and on the diagnostic that stops a visit. To relate
two runs over the same lines it is enough to know the change on the scan of a single line.
-/

namespace LineLexer

/-- The change `m` of scans does `f` to tokens and `g` to diagnostics, and gives up the same
lines. -/
structure LineScan.ActsBy (m : LineScan → LineScan) (f : Token → Token)
    (g : Diagnostic → Diagnostic) : Prop where
  tokens_eq : ∀ s, (m s).tokens = s.tokens.map f
  diagnostic?_eq : ∀ s, (m s).diagnostic? = s.diagnostic?.map g
  isAbandoned_eq : ∀ s, (m s).ending.isAbandoned = s.ending.isAbandoned

def Report.map (f : Token → Token) (g : Diagnostic → Diagnostic) (r : Report) : Report :=
  { r with tokens := r.tokens.map f, diagnostics := r.diagnostics.map g }

section

variable {m : LineScan → LineScan} {f : Token → Token} {g : Diagnostic → Diagnostic}
  (h : LineScan.ActsBy m f g)
include h

theorem LineScan.ActsBy.ofScans_map (scans : List LineScan) :
    Report.ofScans (scans.map m) = (Report.ofScans scans).map f g := by
  simp only [Report.ofScans, Report.map, List.flatMap_map, List.map_flatMap, List.filterMap_map,
    List.map_filterMap, List.countP_map, List.length_map, Function.comp_def, h.tokens_eq,
    h.diagnostic?_eq, h.isAbandoned_eq]

theorem LineScan.ActsBy.stopsAfter_eq {o o' : Options} (ho : o.recovery = o'.recovery)
    (s : LineScan) : o.stopsAfter (m s) = o'.stopsAfter s := by
  rw [Options.stopsAfter, Options.stopsAfter, ho, h.diagnostic?_eq, Option.isSome_map]

theorem LineScan.ActsBy.stopper?_map {o o' : Options} (ho : o.recovery = o'.recovery)
    (scans : List LineScan) : stopper? o (scans.map m) = (stopper? o' scans).map g := by
  induction scans with
  | nil => rfl
  | cons s scans ih =>
      rw [List.map_cons, stopper?_cons, stopper?_cons, h.stopsAfter_eq ho, h.diagnostic?_eq, ih]
      split <;> rfl

end

end LineLexer
