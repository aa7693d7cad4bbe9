import LineLexer.Proofs.Lexeme.Language
import LineLexer.Proofs.Scan.Layout

/-!
Which part of a line is read. Against every other way of cutting a line into blanks and lexemes, the
scan gets farthest; hence a line is given up only if it cannot be cut at all.
-/

namespace LineLexer

open Lexeme

theorem Lexeme.Stuck.eq_nil {text p : List Char} (h : Stuck text) (hp : p ∈ sequences)
    (hpre : p <+: text) : p = [] := by
  obtain ⟨ws, rfl, hws⟩ := Language.mem_kstar_iff_exists_nonempty.mp hp
  cases ws with
  | nil => rfl
  | cons w ws =>
      obtain ⟨hw, hne⟩ := hws w List.mem_cons_self
      have hwt : w <+: text := (List.prefix_append w ws.flatten).trans hpre
      rcases hw with rfl | rfl | hw
      · obtain ⟨rest, rfl⟩ := hwt
        cases h.isBlank_eq_false
      · obtain ⟨rest, rfl⟩ := hwt
        cases h.isBlank_eq_false
      · exact absurd hw (h.not_isLexeme hwt)

theorem Tile.cover_mem_sequences {tiles : List Tile} (h : ∀ t ∈ tiles, IsLexeme t.lexeme) :
    cover tiles ∈ sequences := by
  induction tiles with
  | nil => exact Language.nil_mem_kstar parts
  | cons t ts ih =>
      rw [cover_cons]
      have hl := (h t List.mem_cons_self).mem_sequences
      have hb := blanks_mem_sequences t.isBlank_blanks
      have hts := ih fun u hu => h u (List.mem_cons_of_mem t hu)
      exact append_mem_sequences (append_mem_sequences hl hb) hts

/-- The longest start of a line that any cut divides into blanks and lexemes. -/
structure IsFarthest (line scanned : List Char) : Prop where
  starts : scanned <+: line
  mem_sequences : scanned ∈ sequences
  longest : ∀ p ∈ sequences, p <+: line → p.length ≤ scanned.length

namespace Tiling

variable {v : Vocabulary} {t : Tiling}

def scanned (t : Tiling) : List Char := t.lead ++ Tile.cover t.tiles

theorem IsMunch.isLexeme (h : t.IsMunch v) {tile : Tile} (ht : tile ∈ t.tiles) :
    IsLexeme tile.lexeme := by
  obtain ⟨before, after, htiles⟩ := List.append_of_mem ht
  exact (h before tile after htiles).1.isLexeme

theorem IsMunch.scanned_mem (h : t.IsMunch v) : t.scanned ∈ sequences :=
  append_mem_sequences (blanks_mem_sequences t.isBlank_lead)
    (Tile.cover_mem_sequences fun _ ht => h.isLexeme ht)

theorem IsMunch.isFarthest (h : t.IsMunch v) : IsFarthest t.line t.scanned := by
  have hs : t.scanned <+: t.line := List.prefix_append t.scanned t.rest
  refine ⟨hs, h.scanned_mem, ?_⟩
  intro p hp hpre
  rcases List.prefix_or_prefix_of_prefix hpre hs with hps | ⟨q, rfl⟩
  · exact hps.length_le
  · have hq : q ∈ sequences := mem_sequences_of_append h.scanned_mem hp
    have hqr : q <+: t.rest := (List.prefix_append_right_inj t.scanned).mp hpre
    rw [t.stuck_rest.eq_nil hq hqr, List.append_nil]

theorem IsMunch.rest_eq_nil_iff (h : t.IsMunch v) : t.rest = [] ↔ t.line ∈ sequences := by
  constructor
  · intro hr
    have hl : t.line = t.scanned := by rw [line, hr, List.append_nil, scanned]
    rw [hl]
    exact h.scanned_mem
  · intro hl
    have := h.isFarthest.longest t.line hl (List.prefix_refl _)
    have hlen : t.line.length = t.scanned.length + t.rest.length := List.length_append
    exact List.length_eq_zero_iff.mp (by omega)

end Tiling

namespace LineScan

theorem leftOver_eq_nil_iff (o : Options) (number : Nat) (line : List Char) :
    leftOver o number line = [] ↔ line ∈ sequences := by
  obtain ⟨t, rfl, _, hr, hm⟩ := exists_tiling_ofLine o number line
  rw [← hr, hm.rest_eq_nil_iff]

/-- Cutting a line is decided by scanning it once. -/
instance (line : List Char) : Decidable (line ∈ sequences) :=
  decidable_of_iff _ (leftOver_eq_nil_iff {} 1 line)

theorem isAbandoned_iff_notMem (o : Options) (number : Nat) (line : List Char) :
    (ofLine o number line).ending.isAbandoned = true ↔ line ∉ sequences := by
  rw [isAbandoned_ofLine_iff, ne_eq, leftOver_eq_nil_iff]

theorem countP_isAbandoned_ofLines (o : Options) (number : Nat) (texts : List (List Char)) :
    (ofLines o number texts).countP (·.ending.isAbandoned) =
      texts.countP fun line => line ∉ sequences := by
  induction texts generalizing number with
  | nil => rfl
  | cons text texts ih =>
      have h := isAbandoned_iff_notMem o number text
      rw [ofLines, List.countP_cons, List.countP_cons, ih]
      simp only [h, decide_eq_true_eq]

end LineScan

/-- However a line is cut into blanks and lexemes, no cut gets farther than the scan, which got over
the blanks at the start of the line and the tokens of the report with the blanks behind them; a line
is abandoned exactly if it cannot be cut at all. -/
theorem isFarthest_of_scan {o : Options} {source : String} {r : Report}
    (h : scan o source = .ok r) :
    ∃ lay : Layout o source r,
      (∀ k line, (Text.lines source.toList)[k]? = some line →
        ∃ t s, lay.tilings[k]? = some t ∧ (visited o source)[k]? = some s ∧
          t.tokens = Token.onLine r.tokens (k + 1) ∧
          t.scanned ++ LineScan.leftOver o (k + 1) line = line ∧ IsFarthest line t.scanned ∧
          (s.ending.isAbandoned = true ↔ line ∉ sequences)) ∧
        r.linesAbandoned = (Text.lines source.toList).countP fun line => line ∉ sequences := by
  obtain ⟨lay, hm⟩ := exists_munch_layout h
  refine ⟨lay, ?_, ?_⟩
  · intro k line hk
    obtain ⟨t, ht, rfl⟩ : ∃ t, lay.tilings[k]? = some t ∧ t.line = line := by
      rwa [← lay.lines_eq, List.getElem?_map, Option.map_eq_some_iff] at hk
    refine ⟨t, LineScan.ofLine o (k + 1) t.line, ht, ?_, lay.onLine_eq k t ht, ?_,
      (hm t (List.mem_of_getElem? ht)).isFarthest, ?_⟩
    · rw [visited_of_scan h, LineScan.ofSource, getElem?_ofLines, hk, Option.map_some, Nat.add_comm]
    · rw [← lay.rest_eq k t ht]
      rfl
    · exact LineScan.isAbandoned_iff_notMem o (k + 1) t.line
  · rw [report_of_scan h]
    exact LineScan.countP_isAbandoned_ofLines o 1 _

theorem isFarthest_of_scan_unclosed :
    ∃ r, scan {} "a1== = \"b" = .ok r ∧ r.linesAbandoned = 1 ∧
      IsFarthest "a1== = \"b".toList "a1== = ".toList ∧
      ∃ lay : Layout {} "a1== = \"b" r, ∃ t, lay.tilings[0]? = some t ∧
        t.scanned = "a1== = ".toList ∧ t.tokens = r.tokens := by
  have h : scan {} "a1== = \"b" = .ok ⟨[⟨.identifier, "a1", 1⟩, ⟨.equalEqual, "==", 1⟩,
      ⟨.equal, "=", 1⟩], [.unterminated 1 "\"b"], 1, 1⟩ := by
    decide +kernel
  have hk : (Text.lines "a1== = \"b".toList)[0]? = some "a1== = \"b".toList := by decide +kernel
  have hl : LineScan.leftOver {} 1 "a1== = \"b".toList = "\"b".toList := by decide +kernel
  obtain ⟨lay, lines, _⟩ := isFarthest_of_scan h
  obtain ⟨t, s, ht, _, htokens, hs, hf, _⟩ := lines 0 _ hk
  rw [hl] at hs
  have heq : t.scanned = "a1== = ".toList := List.append_cancel_right (hs.trans (by decide +kernel))
  rw [heq] at hf
  exact ⟨_, h, rfl, hf, lay, t, ht, heq, htokens⟩

end LineLexer
