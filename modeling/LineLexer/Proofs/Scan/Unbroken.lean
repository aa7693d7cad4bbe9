import LineLexer.Proofs.Scan.Exactness

/-!
What a report quotes from its source lies within one line: no lexeme and no context holds a
character that ends a line.
-/

namespace LineLexer

theorem Tiling.lexeme_subset_line {t : Tiling} {token : Token} (h : token ∈ t.tokens) :
    token.lexeme.toList ⊆ t.line := by
  obtain ⟨tile, htile, rfl⟩ := List.mem_map.mp h
  intro c hc
  have covered : c ∈ Tile.cover t.tiles :=
    List.mem_flatMap.mpr ⟨tile, htile, List.mem_append_left _ hc⟩
  exact List.mem_append_left _ (List.mem_append_right _ covered)

theorem Tiling.rest_subset_line (t : Tiling) : t.rest ⊆ t.line :=
  List.subset_append_right _ _

namespace LineScan

variable {o : Options} {number : Nat} {text : List Char}

theorem lexeme_subset {t : Token} (h : t ∈ (ofLine o number text).tokens) :
    t.lexeme.toList ⊆ text := by
  obtain ⟨tiling, rfl, htokens, _, _⟩ := exists_tiling_ofLine o number text
  rw [← htokens] at h
  exact Tiling.lexeme_subset_line h

theorem leftOver_subset (o : Options) (number : Nat) (text : List Char) :
    leftOver o number text ⊆ text := by
  obtain ⟨tiling, hline, _, hrest, _⟩ := exists_tiling_ofLine o number text
  rw [← hrest, ← hline]
  exact tiling.rest_subset_line

theorem character_mem {d : Diagnostic} (h : (ofLine o number text).diagnostic? = some d) :
    d.character ∈ text :=
  leftOver_subset o number text
    (List.mem_of_mem_head? (Option.mem_def.mpr (isExact_of_diagnostic? h).head?_rest))

theorem context_subset {d : Diagnostic} (h : (ofLine o number text).diagnostic? = some d) :
    d.context.toList ⊆ text := by
  rw [(isExact_of_diagnostic? h).context_eq]
  exact List.Subset.trans (List.take_subset _ _) (leftOver_subset o number text)

end LineScan

section

variable {o : Options} {source : String} {r : Report}

theorem isBreak_of_mem_lexeme (h : scan o source = .ok r) {t : Token} (ht : t ∈ r.tokens) {c : Char}
    (hc : c ∈ t.lexeme.toList) : Text.isBreak c = false := by
  rw [report_of_scan h] at ht
  obtain ⟨s, hs, hts⟩ := List.mem_flatMap.mp ht
  obtain ⟨k, text, hk, rfl⟩ := LineScan.exists_of_mem_ofLines hs
  exact Text.isBreak_eq_false_of_mem_lines (List.mem_of_getElem? hk) (LineScan.lexeme_subset hts hc)

theorem isBreak_of_mem_context (h : scan o source = .ok r) {d : Diagnostic}
    (hd : d ∈ r.diagnostics) {c : Char} (hc : c ∈ d.character :: d.context.toList) :
    Text.isBreak c = false := by
  obtain ⟨k, text, hk, _, hfound⟩ := exists_line_of_mem_diagnostics h hd
  apply Text.isBreak_eq_false_of_mem_lines (List.mem_of_getElem? hk)
  rcases List.mem_cons.mp hc with rfl | hc
  · exact LineScan.character_mem hfound
  · exact LineScan.context_subset hfound hc

end

end LineLexer
