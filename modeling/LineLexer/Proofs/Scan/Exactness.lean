import LineLexer.Proofs.Scan.Images
import LineLexer.Proofs.Scan.Layout

/-!
Diagnostics are exact. What a line leaves behind its tokens is told by its diagnostic: the character
in front, the beginning as context, and a cause that follows from that character. The width that is
asked for decides how much of the context is shown and about nothing else.
-/

namespace LineLexer

/-- What a diagnostic says about the rest of its line, if contexts of a width are asked for. -/
structure Diagnostic.IsExact (d : Diagnostic) (width : Nat) (rest : List Char) : Prop where
  head?_rest : rest.head? = some d.character
  context_eq : d.context.toList = rest.take (min (max width 1) 10)
  length_context_le : d.context.length ≤ 10
  head?_context : d.context.toList.head? = some d.character
  cause_eq : d.cause =
    if d.character = '"' then .unterminatedString else .unrecognizedCharacter
  /-- There is no quote behind the one that opens a string. -/
  unclosed : d.character = '"' → '"' ∉ rest.tail
  foreign : d.character ≠ '"' →
    Text.isBlank d.character = false ∧ ∀ l, ¬ Lexeme.IsLexeme (d.character :: l)

theorem Options.width_eq (o : Options) : o.width = min (max o.contextWidth 1) 10 := by
  simp only [width, Diagnostic.longestContext]
  omega

namespace LineScan

theorem Halt.toList_context (h : Halt) (o : Options) :
    (h.context o.width).toList = (h.character :: h.rest).take (min (max o.contextWidth 1) 10) := by
  rw [context, String.toList_ofList, o.width_eq]

theorem Halt.head?_context (h : Halt) (o : Options) :
    (h.context o.width).toList.head? = some h.character := by
  rw [context, String.toList_ofList, List.head?_take, if_neg o.width_pos.ne']
  rfl

theorem Halt.length_context_le (h : Halt) (o : Options) : (h.context o.width).length ≤ 10 := by
  rw [context, String.length_ofList, List.length_take]
  exact (Nat.min_le_left _ _).trans o.width_le

/-- What is diagnosed at a halt is exact. -/
theorem Halt.isExact {o : Options} {line : Nat} {h : Halt} {d : Diagnostic}
    (hd : Lexeme.Decided o.vocabulary (h.character :: h.rest) (.stop h.cause))
    (hh : (Ending.ofHalt o line (some h)).diagnostic? = some d) :
    d.IsExact o.contextWidth (h.character :: h.rest) := by
  have shown := h.toList_context o
  have first := h.head?_context o
  have short := h.length_context_le o
  obtain ⟨cause, c, rest⟩ := h
  cases hd with
  | unrecognized hb hq hl =>
      cases hh
      exact ⟨rfl, shown, short, first, (if_neg hq).symm, fun h => absurd h hq, fun _ => ⟨hb, hl⟩⟩
  | unterminated hq =>
      cases ho : o.openStrings with
      | silent =>
          simp only [Ending.ofHalt, ho] at hh
          cases hh
      | report =>
          simp only [Ending.ofHalt, ho] at hh
          cases hh
          exact ⟨rfl, shown, short, first, rfl, fun _ => hq, fun h => absurd rfl h⟩

theorem isExact_of_diagnostic? {o : Options} {number : Nat} {text : List Char} {d : Diagnostic}
    (h : (ofLine o number text).diagnostic? = some d) :
    d.IsExact o.contextWidth (leftOver o number text) := by
  have hm := munched_walk o.vocabulary (.start number text)
  rw [ofLine_eq] at h
  change (Ending.ofHalt o number (walk o.vocabulary (.start number text) #[]).2).diagnostic? =
    some d at h
  rw [leftOver]
  generalize (walk o.vocabulary (.start number text) #[]).2 = halt at h hm
  cases halt with
  | none => cases h
  | some halt => exact halt.isExact hm.decided h

end LineScan

/-! ### The width of contexts -/

/-- The same finding with no more of its context. -/
structure Diagnostic.IsNarrower (d d' : Diagnostic) : Prop where
  cause_eq : d.cause = d'.cause
  line_eq : d.line = d'.line
  character_eq : d.character = d'.character
  context_prefix : d.context.toList <+: d'.context.toList

structure Report.IsNarrower (r r' : Report) : Prop where
  tokens_eq : r.tokens = r'.tokens
  diagnostics : List.Forall₂ Diagnostic.IsNarrower r.diagnostics r'.diagnostics
  linesScanned_eq : r.linesScanned = r'.linesScanned
  linesAbandoned_eq : r.linesAbandoned = r'.linesAbandoned

/-- Outcomes of scans of which the first shows no more of contexts than the second. -/
inductive Narrower : Except Failure Report → Except Failure Report → Prop
  | ok {r r' : Report} (h : r.IsNarrower r') : Narrower (.ok r) (.ok r')
  | error {d d' : Diagnostic} (h : d.IsNarrower d') :
      Narrower (.error (.scan d)) (.error (.scan d'))

def Diagnostic.narrowed (width : Nat) (d : Diagnostic) : Diagnostic :=
  { d with context := String.ofList (d.context.toList.take width) }

theorem Diagnostic.isNarrower_narrowed (width : Nat) (d : Diagnostic) :
    (d.narrowed width).IsNarrower d where
  cause_eq := rfl
  line_eq := rfl
  character_eq := rfl
  context_prefix := by
    rw [narrowed, String.toList_ofList]
    exact List.take_prefix width _

namespace LineScan

def Ending.narrowed (width : Nat) : Ending → Ending
  | complete => complete
  | dropped => dropped
  | diagnosed d => diagnosed (d.narrowed width)

def narrowed (width : Nat) (s : LineScan) : LineScan :=
  { s with ending := s.ending.narrowed width }

theorem actsBy_narrowed (width : Nat) :
    ActsBy (narrowed width) id (Diagnostic.narrowed width) where
  tokens_eq s := (List.map_id s.tokens).symm
  diagnostic?_eq s := by
    simp only [diagnostic?, narrowed]
    cases s.ending <;> rfl
  isAbandoned_eq s := by
    simp only [narrowed]
    cases s.ending <;> rfl

theorem Halt.context_narrowed (h : Halt) {width width' : Nat} (hw : width ≤ width') :
    h.context width = String.ofList ((h.context width').toList.take width) := by
  rw [context, context, String.toList_ofList, List.take_take, Nat.min_eq_left hw]

section

variable {o o' : Options} (hw : o.width ≤ o'.width) (hs : o.openStrings = o'.openStrings)
include hw hs

theorem Ending.ofHalt_narrowed (line : Nat) (halt : Option Halt) :
    ofHalt o line halt = (ofHalt o' line halt).narrowed o.width := by
  cases halt with
  | none => rfl
  | some h =>
      simp only [ofHalt, hs, h.context_narrowed hw]
      cases h.cause with
      | unrecognizedCharacter => rfl
      | unterminatedString => cases o'.openStrings <;> rfl

theorem ofLine_narrowed (hv : o.vocabulary = o'.vocabulary) (number : Nat) (text : List Char) :
    ofLine o number text = (ofLine o' number text).narrowed o.width := by
  simp only [ofLine_eq, hv, Ending.ofHalt_narrowed hw hs]
  rfl

end

end LineScan

theorem conclude_narrowed (o o' : Options) (ho : o.recovery = o'.recovery) (width : Nat)
    (scans : List LineScan) :
    Narrower (conclude o (scans.map (LineScan.narrowed width))) (conclude o' scans) := by
  have acts := LineScan.actsBy_narrowed width
  rw [conclude, conclude, acts.stopper?_map ho, acts.ofScans_map]
  cases stopper? o' scans with
  | some d => exact .error (d.isNarrower_narrowed width)
  | none =>
      refine .ok ⟨List.map_id _, ?_, rfl, rfl⟩
      rw [Report.map, List.forall₂_map_left_iff, List.forall₂_same]
      intro d _
      exact d.isNarrower_narrowed width

theorem scan_narrower (o : Options) (source : String) {w w' : Nat} (hw : w ≤ w') :
    Narrower (scan { o with contextWidth := w } source)
      (scan { o with contextWidth := w' } source) := by
  have width_le : Options.width { o with contextWidth := w } ≤
      Options.width { o with contextWidth := w' } := by
    rw [Options.width_eq, Options.width_eq]
    dsimp only
    omega
  rw [scan_eq, scan_eq, LineScan.ofSource,
    ofLines_eq_map (LineScan.ofLine_narrowed width_le rfl rfl)]
  exact conclude_narrowed _ _ rfl _ _

/-! ### Reports -/

theorem exists_line_of_mem_diagnostics {o : Options} {source : String} {r : Report}
    (h : scan o source = .ok r) {d : Diagnostic} (hd : d ∈ r.diagnostics) :
    ∃ k text, (Text.lines source.toList)[k]? = some text ∧ d.line = k + 1 ∧
      (LineScan.ofLine o (k + 1) text).diagnostic? = some d := by
  rw [report_of_scan h] at hd
  obtain ⟨s, hs, hsd⟩ := List.mem_filterMap.mp hd
  obtain ⟨k, text, hk, rfl⟩ := LineScan.exists_of_mem_ofLines hs
  rw [Nat.add_comm] at hsd
  exact ⟨k, text, hk, LineScan.line_of_diagnostic? hsd, hsd⟩

/-- However a source is laid out, each diagnostic of its report is exact about what a line leaves
behind its tokens; a narrower width takes nothing from an outcome but the ends of contexts. -/
theorem scan_exact (o : Options) (source : String) :
    (∀ r, scan o source = .ok r → Nonempty (Layout o source r) ∧
      ∀ lay : Layout o source r, ∀ d ∈ r.diagnostics, ∃ k t,
        d.line = k + 1 ∧ lay.tilings[k]? = some t ∧ d.IsExact o.contextWidth t.rest) ∧
    ∀ w w', w ≤ w' → Narrower (scan { o with contextWidth := w } source)
      (scan { o with contextWidth := w' } source) := by
  refine ⟨fun r h => ⟨(exists_munch_layout h).nonempty, fun lay d hd => ?_⟩,
    fun w w' hw => scan_narrower o source hw⟩
  obtain ⟨k, text, hk, hline, hfound⟩ := exists_line_of_mem_diagnostics h hd
  rw [← lay.lines_eq, List.getElem?_map, Option.map_eq_some_iff] at hk
  obtain ⟨t, ht, rfl⟩ := hk
  refine ⟨k, t, hline, ht, ?_⟩
  rw [lay.rest_eq k t ht]
  exact LineScan.isExact_of_diagnostic? hfound

theorem scan_exact_wide :
    ∃ r, scan { contextWidth := 3 } "x\t= 𝄞 y z\n\"a\" \"é" = .ok r ∧
      r.diagnostics = [.unrecognized 1 '𝄞' "𝄞 y", .unterminated 2 "\"é"] ∧
      (Nonempty (Layout { contextWidth := 3 } "x\t= 𝄞 y z\n\"a\" \"é" r) ∧
        ∀ lay : Layout { contextWidth := 3 } "x\t= 𝄞 y z\n\"a\" \"é" r, ∀ d ∈ r.diagnostics,
          ∃ k t, d.line = k + 1 ∧ lay.tilings[k]? = some t ∧ d.IsExact 3 t.rest) ∧
      Narrower (scan { contextWidth := 0 } "x\t= 𝄞 y z\n\"a\" \"é")
        (scan { contextWidth := 18446744073709551615 } "x\t= 𝄞 y z\n\"a\" \"é") := by
  have h : scan { contextWidth := 3 } "x\t= 𝄞 y z\n\"a\" \"é" = .ok
      ⟨[⟨.identifier, "x", 1⟩, ⟨.equal, "=", 1⟩, ⟨.string, "\"a\"", 2⟩],
        [.unrecognized 1 '𝄞' "𝄞 y", .unterminated 2 "\"é"], 2, 2⟩ := by
    decide +kernel
  have exact_at := scan_exact { contextWidth := 3 } "x\t= 𝄞 y z\n\"a\" \"é"
  exact ⟨_, h, rfl, exact_at.1 _ h, exact_at.2 0 18446744073709551615 (by decide)⟩

end LineLexer
