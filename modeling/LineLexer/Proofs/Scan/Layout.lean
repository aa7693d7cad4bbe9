import LineLexer.Proofs.LineScan.Tiling
import LineLexer.Proofs.Scan.Visit
import LineLexer.Proofs.Text.Breaks

/-!
Where the characters of a source go. A layout accounts for each of them: it belongs to the lexeme of
one token of the report, to the blanks around lexemes, to the rest of an abandoned line or to the
break behind a line. Every scan that succeeds has a layout, and it is one of maximal munch.
-/

namespace LineLexer

structure Layout (o : Options) (source : String) (r : Report) where
  tilings : List Tiling
  breaks : List (List Char)
  lines_eq : tilings.map Tiling.line = Text.lines source.toList
  length_breaks : breaks.length = tilings.length
  isBreak_breaks : ∀ b ∈ breaks, ∀ c ∈ b, Text.isBreak c = true
  source_eq : (List.zipWith (· ++ ·) (tilings.map Tiling.line) breaks).flatten = source.toList
  onLine_eq : ∀ k t, tilings[k]? = some t → t.tokens = Token.onLine r.tokens (k + 1)
  tokens_eq : tilings.flatMap Tiling.tokens = r.tokens
  /-- The rest of a line begins where its scan came to a halt. -/
  rest_eq : ∀ k t, tilings[k]? = some t → t.rest = LineScan.leftOver o (k + 1) t.line
  linesAbandoned_eq : r.linesAbandoned = tilings.countP (!·.rest.isEmpty)

/-- Tilings of consecutive lines, one for each of their scans. -/
structure LineScan.Tiled (o : Options) (number : Nat) (texts : List (List Char))
    (tilings : List Tiling) : Prop where
  lines_eq : tilings.map Tiling.line = texts
  tokens_eq : tilings.map Tiling.tokens = (ofLines o number texts).map (·.tokens)
  rest_eq : ∀ k t, tilings[k]? = some t → t.rest = leftOver o (number + k) t.line
  abandoned_eq :
    tilings.map (!·.rest.isEmpty) = (ofLines o number texts).map (·.ending.isAbandoned)
  isMunch : ∀ t ∈ tilings, t.IsMunch o.vocabulary

theorem LineScan.exists_tiled (o : Options) (number : Nat) (texts : List (List Char)) :
    ∃ tilings, Tiled o number texts tilings := by
  induction texts generalizing number with
  | nil => exact ⟨[], rfl, rfl, by simp, rfl, by simp⟩
  | cons text texts ih =>
      obtain ⟨t, rfl, ht, hr, hm⟩ := exists_tiling_ofLine o number text
      obtain ⟨ts, hts⟩ := ih (number + 1)
      refine ⟨t :: ts, ?_, ?_, ?_, ?_, ?_⟩
      · rw [List.map_cons, hts.lines_eq]
      · rw [ofLines, List.map_cons, List.map_cons, ht, hts.tokens_eq]
      · intro k u hu
        cases k with
        | zero =>
            obtain rfl := Option.some.inj hu
            exact hr
        | succ k =>
            rw [hts.rest_eq k u hu, Nat.add_assoc, Nat.add_comm 1 k]
      · have ha : (!t.rest.isEmpty) = (ofLine o number t.line).ending.isAbandoned := by
          rw [Bool.eq_iff_iff, isAbandoned_ofLine_iff, hr]
          simp
        rw [ofLines, List.map_cons, List.map_cons, ha, hts.abandoned_eq]
      · rw [List.forall_mem_cons]
        constructor
        · exact hm
        · exact hts.isMunch

section

variable {o : Options} {source : String} {r : Report}

theorem exists_munch_layout (h : scan o source = .ok r) :
    ∃ lay : Layout o source r, ∀ t ∈ lay.tilings, t.IsMunch o.vocabulary := by
  obtain ⟨tilings, ht⟩ := LineScan.exists_tiled o 1 (Text.lines source.toList)
  obtain ⟨breaks, hlen, hbreak, hsource⟩ := Text.exists_breaks source.toList
  refine ⟨⟨tilings, breaks, ht.lines_eq, ?_, hbreak, ?_, ?_, ?_, ?_, ?_⟩, ht.isMunch⟩
  · rw [hlen, ← ht.lines_eq, List.length_map]
  · rw [ht.lines_eq, hsource]
  · intro k t hk
    have hline : (Text.lines source.toList)[k]? = some t.line := by
      rw [← ht.lines_eq, List.getElem?_map, hk, Option.map_some]
    have htok := congrArg (·[k]?) ht.tokens_eq
    simp only [List.getElem?_map, hk, Option.map_some, getElem?_ofLines, hline] at htok
    rw [onLine_of_scan h hline, Nat.add_comm]
    exact Option.some.inj htok
  · rw [report_of_scan h, List.flatMap_def, ht.tokens_eq]
    rfl
  · intro k t hk
    rw [ht.rest_eq k t hk, Nat.add_comm]
  · rw [report_of_scan h]
    calc (LineScan.ofSource o source).countP (·.ending.isAbandoned)
        = ((LineScan.ofSource o source).map (·.ending.isAbandoned)).countP id := by
          rw [List.countP_map]
          rfl
      _ = tilings.countP (!·.rest.isEmpty) := by
          rw [LineScan.ofSource, ← ht.abandoned_eq, List.countP_map]
          rfl

/-- Nothing of a source is lost, doubled or moved. -/
theorem nonempty_layout (h : scan o source = .ok r) : Nonempty (Layout o source r) :=
  (exists_munch_layout h).nonempty

theorem nonempty_layout_unclosed :
    ∃ r, scan { recovery := .failFast, openStrings := .silent } "x = \"a\" \"b\r\n\t***" = .ok r ∧
      r.linesAbandoned = 1 ∧
      Nonempty (Layout { recovery := .failFast, openStrings := .silent }
        "x = \"a\" \"b\r\n\t***" r) := by
  refine ⟨⟨[⟨.identifier, "x", 1⟩, ⟨.equal, "=", 1⟩, ⟨.string, "\"a\"", 1⟩, ⟨.power, "**", 2⟩,
    ⟨.star, "*", 2⟩], [], 2, 1⟩, ?_, rfl, nonempty_layout ?_⟩ <;> decide +kernel

/-- Each token is the longest lexeme at its place and has the one kind of that lexeme; where a line
is given up, no lexeme of any class starts. -/
theorem munch_of_scan (h : scan o source = .ok r) :
    ∃ lay : Layout o source r, ∀ t ∈ lay.tilings,
      (∀ before tile after, t.tiles = before ++ tile :: after →
        Lexeme.IsLongest (Tile.cover (tile :: after) ++ t.rest) tile.lexeme ∧
          ∀ k, Lexeme.HasKind o.vocabulary tile.lexeme k ↔ k = tile.token.kind) ∧
      ∀ l, l <+: t.rest → ¬ Lexeme.IsLexeme l := by
  obtain ⟨lay, hm⟩ := exists_munch_layout h
  refine ⟨lay, fun t ht => ⟨?_, fun l hl => t.stuck_rest.not_isLexeme hl⟩⟩
  intro before tile after htiles
  obtain ⟨hlong, hkind⟩ := hm t ht before tile after htiles
  refine ⟨hlong, fun k => ⟨fun hk => hk.unique hkind, ?_⟩⟩
  rintro rfl
  exact hkind

theorem munch_of_scan_glued :
    ∃ r, scan { vocabulary := .initial } "Or_1===12a @\nOR" = .ok r ∧ r.linesAbandoned = 1 ∧
      ∃ lay : Layout { vocabulary := .initial } "Or_1===12a @\nOR" r, ∀ t ∈ lay.tilings,
        (∀ before tile after, t.tiles = before ++ tile :: after →
          Lexeme.IsLongest (Tile.cover (tile :: after) ++ t.rest) tile.lexeme ∧
            ∀ k, Lexeme.HasKind .initial tile.lexeme k ↔ k = tile.token.kind) ∧
        ∀ l, l <+: t.rest → ¬ Lexeme.IsLexeme l := by
  refine ⟨⟨[⟨.identifier, "Or_1", 1⟩, ⟨.equalEqual, "==", 1⟩, ⟨.equal, "=", 1⟩, ⟨.number, "12", 1⟩,
    ⟨.identifier, "a", 1⟩, ⟨.keyword .or_, "OR", 2⟩], [.unrecognized 1 '@' "@"], 2, 1⟩, ?_, rfl,
    munch_of_scan ?_⟩ <;> decide +kernel

end

end LineLexer
