import LineLexer.Proofs.LineScan.Shift
import LineLexer.Proofs.Scan.Images
import LineLexer.Proofs.Text.Chunks

/-!
Scanning a text in chunks. A text may be cut behind any break: the outcome for the whole is that for
the first chunk, followed by that for the second with the line numbers moved on.
-/

namespace LineLexer

def Failure.shift : Failure → Nat → Failure
  | scan d, k => scan (d.shift k)
  | unreadable path reason, _ => unreadable path reason
  | configuration reason, _ => configuration reason

/-- The report on a text, when `r` is the report on its first lines and `s` that on the others. -/
def Report.append (r s : Report) : Report where
  tokens := r.tokens ++ s.tokens.map (·.shift r.linesScanned)
  diagnostics := r.diagnostics ++ s.diagnostics.map (·.shift r.linesScanned)
  linesScanned := r.linesScanned + s.linesScanned
  linesAbandoned := r.linesAbandoned + s.linesAbandoned

theorem LineScan.actsBy_shift (k : Nat) : ActsBy (·.shift k) (·.shift k) (·.shift k) where
  tokens_eq s := s.tokens_shift k
  diagnostic?_eq s := s.diagnostic?_shift k
  isAbandoned_eq s := s.isAbandoned_shift k

theorem Report.ofScans_append (xs ys : List LineScan) :
    ofScans (xs ++ ys.map (·.shift xs.length)) = (ofScans xs).append (ofScans ys) := by
  simp [ofScans, append, List.flatMap_map, List.map_flatMap, List.filterMap_map,
    List.map_filterMap, Function.comp_def]

theorem LineScan.ofLines_add (o : Options) (number k : Nat) (texts : List (List Char)) :
    ofLines o (number + k) texts = (ofLines o number texts).map (·.shift k) := by
  induction texts generalizing number with
  | nil => rfl
  | cons text texts ih =>
      rw [ofLines, ofLines, List.map_cons, ofLine_add, Nat.add_right_comm, ih]

/-! ### Outcomes -/

section

variable (o : Options)

theorem stopper?_shift (scans : List LineScan) (k : Nat) :
    stopper? o (scans.map (·.shift k)) = (stopper? o scans).map (·.shift k) :=
  (LineScan.actsBy_shift k).stopper?_map rfl scans

/-- The lines of a second chunk are the lines of what follows the first, under larger numbers. -/
theorem ofSource_append {a : String} (b : String)
    (h : ∀ c ∈ a.toList.getLast?, Text.isBreak c = true) :
    LineScan.ofSource o (a ++ b) =
      LineScan.ofSource o a ++
        (LineScan.ofSource o (String.ofList (Text.following a.toList b.toList))).map
          (·.shift (LineScan.ofSource o a).length) := by
  simp only [LineScan.ofSource]
  rw [String.toList_append, Text.lines_append b.toList h, ofLines_append, LineScan.ofLines_add,
    length_ofLines, String.toList_ofList]

/-- The outcome for a text is put together from the outcomes for its chunks. -/
theorem scan_append {a : String} (b : String)
    (h : ∀ c ∈ a.toList.getLast?, Text.isBreak c = true) :
    scan o (a ++ b) =
      match scan o a with
      | .error e => .error e
      | .ok ra =>
        match scan o (String.ofList (Text.following a.toList b.toList)) with
        | .error e => .error (e.shift ra.linesScanned)
        | .ok rb => .ok (ra.append rb) := by
  rw [scan_eq, scan_eq, scan_eq, ofSource_append o b h]
  generalize LineScan.ofSource o a = xs
  generalize LineScan.ofSource o (String.ofList _) = ys
  rw [conclude, conclude, conclude, stopper?_append, stopper?_shift]
  cases stopper? o xs with
  | some d => rfl
  | none =>
      cases stopper? o ys with
      | some d => rfl
      | none => exact congrArg Except.ok (Report.ofScans_append xs ys)

/-- A pair of carriage return and line feed may be torn apart; it is one break all the same. -/
theorem scan_append_torn :
    (∀ c ∈ "x\t@\r\r".toList.getLast?, Text.isBreak c = true) ∧
      scan { openStrings := .silent } ("x\t@\r\r" ++ "\n\u2028y* \"z") =
        .ok ⟨[⟨.identifier, "x", 1⟩, ⟨.identifier, "y", 4⟩, ⟨.star, "*", 4⟩],
          [.unrecognized 1 '@' "@"], 4, 2⟩ := by
  have h : ∀ c ∈ "x\t@\r\r".toList.getLast?, Text.isBreak c = true := by simp [Text.isBreak]
  refine ⟨h, ?_⟩
  rw [scan_append _ _ h]
  decide +kernel

end

end LineLexer
