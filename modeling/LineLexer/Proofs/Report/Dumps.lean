import LineLexer.Proofs.Report.RoundTrip
import LineLexer.Proofs.Scan.Isolation
import LineLexer.Proofs.Scan.Unbroken
import LineLexer.Proofs.Text.Delimited
import LineLexer.Report.Table

/-!
Plain dumps lose nothing. Cells are neither cut nor escaped, and a lexeme may hold the bar between
columns, quotes and spaces. A row is read from both of its ends: the number of the line stands in
front and fixes the last cell, the kind ends with the first space, and behind the quote that closes
a lexeme there is only padding.
-/

namespace LineLexer

theorem Token.Kind.name_injective : Function.Injective Token.Kind.name := by
  intro j k h
  have found := Token.lookup_choices j
  rw [h, Token.lookup_choices k] at found
  exact (Option.some.inj found).symm

theorem Token.Kind.name_plain (k : Token.Kind) : ' ' ∉ k.name.toList ∧ '\n' ∉ k.name.toList := by
  cases k with
  | keyword word => cases word <;> decide
  | _ => decide

namespace Report

/-! ### Cells -/

theorem toList_cell (width : Nat) (s : String) :
    (cell width s).toList = s.toList ++ List.replicate (width - s.length) ' ' := by
  rw [cell, String.toList_append, String.toList_ofList]

/-- Behind the text of a cell there is a space, be it padding or the beginning of a bar. -/
theorem exists_cell_bar (width : Nat) (s : String) (rest : List Char) :
    ∃ later, (cell width s).toList ++ (" | ".toList ++ rest) = s.toList ++ ' ' :: later := by
  rw [toList_cell, List.append_assoc]
  cases width - s.length with
  | zero => exact ⟨"| ".toList ++ rest, rfl⟩
  | succ n => exact ⟨List.replicate n ' ' ++ (" | ".toList ++ rest), rfl⟩

theorem lineFeed_notMem_cell {width : Nat} {s : String} (h : '\n' ∉ s.toList) :
    '\n' ∉ (cell width s).toList := by
  rw [toList_cell, List.mem_append, not_or]
  refine ⟨h, fun hm => ?_⟩
  cases List.eq_of_mem_replicate hm

theorem toList_row (place kind lexeme line : String) :
    (row place kind lexeme line).toList =
      (cell 30 place).toList ++ (" | ".toList ++ ((cell 20 kind).toList ++ (" | ".toList ++
        ((cell 20 lexeme).toList ++ (" | ".toList ++ (cell 20 line).toList))))) := by
  simp [row]

/-! ### Rows -/

theorem toList_place (line : Nat) :
    s!"Scanning at: {line}, index: ...".toList =
      "Scanning at: ".toList ++ ((toString line).toList ++ ',' :: " index: ...".toList) := by
  change ("Scanning at: " ++ toString line ++ ", index: ...").toList = _
  simp

theorem toList_found (kind : String) :
    s!"Found a: {kind}".toList = "Found a: ".toList ++ kind.toList := by
  change ("Found a: " ++ kind).toList = _
  simp

theorem toList_quoted (lexeme : String) :
    s!"'{lexeme}'".toList = ('\x27' :: lexeme.toList) ++ ['\x27'] := by
  change ("'" ++ lexeme ++ "'").toList = _
  simp

/-- The number of a line can be read at the front of its row. -/
theorem line_eq_of_row_eq {m n : Nat} {kind kind' lexeme lexeme' line line' : String}
    (h : row s!"Scanning at: {m}, index: ..." kind lexeme line =
      row s!"Scanning at: {n}, index: ..." kind' lexeme' line') : m = n := by
  rw [← String.toList_inj, toList_row, toList_row, toList_cell, toList_cell 30, toList_place,
    toList_place] at h
  simp only [List.append_assoc, List.cons_append] at h
  exact (Text.toString_append_cons_inj rfl (List.append_cancel_left h)).1

/-- Between cells that are known, a row shows the cells of kind and lexeme. -/
theorem cells_eq_of_row_eq {place kind kind' lexeme lexeme' line : String}
    (h : row place kind lexeme line = row place kind' lexeme' line) :
    (cell 20 kind).toList ++ (" | ".toList ++ (cell 20 lexeme).toList) =
      (cell 20 kind').toList ++ (" | ".toList ++ (cell 20 lexeme').toList) := by
  rw [← String.toList_inj, toList_row, toList_row] at h
  have behind := List.append_cancel_left (List.append_cancel_left h)
  simp only [← List.append_assoc] at behind ⊢
  exact List.append_cancel_right (List.append_cancel_right behind)

theorem kind_eq_of_cells_eq {j k : Token.Kind} {s t : List Char}
    (h : (cell 20 s!"Found a: {j.name}").toList ++ (" | ".toList ++ s) =
      (cell 20 s!"Found a: {k.name}").toList ++ (" | ".toList ++ t)) : j = k := by
  obtain ⟨u, hu⟩ := exists_cell_bar 20 s!"Found a: {j.name}" s
  obtain ⟨v, hv⟩ := exists_cell_bar 20 s!"Found a: {k.name}" t
  rw [hu, hv, toList_found, toList_found, List.append_assoc, List.append_assoc] at h
  have names := Text.append_cons_inj j.name_plain.1 k.name_plain.1 (List.append_cancel_left h)
  exact Token.Kind.name_injective (String.toList_inj.mp names.1)

/-- Whatever a lexeme holds, it ends with the last quote of its cell. -/
theorem lexeme_eq_of_cell_eq {l m : String}
    (h : (cell 20 s!"'{l}'").toList = (cell 20 s!"'{m}'").toList) : l = m := by
  rw [toList_cell, toList_cell, toList_quoted, toList_quoted, List.append_assoc, List.append_assoc,
    List.singleton_append, List.singleton_append] at h
  have quoted := Text.padded_inj (by decide) h
  exact String.toList_inj.mp (List.cons.inj quoted).2

theorem eq_of_tokenRow_eq {t u : Token} (h : tokenRow t = tokenRow u) : t = u := by
  obtain ⟨j, l, m⟩ := t
  obtain ⟨k, l', n⟩ := u
  obtain rfl := line_eq_of_row_eq h
  have cells := cells_eq_of_row_eq h
  obtain rfl := kind_eq_of_cells_eq cells
  obtain rfl := lexeme_eq_of_cell_eq (List.append_cancel_left (List.append_cancel_left cells))
  rfl

theorem lineFeed_notMem_tokenRow {t : Token} (h : '\n' ∉ t.lexeme.toList) :
    '\n' ∉ (tokenRow t).toList := by
  have number : '\n' ∉ (toString t.line).toList := Text.notMem_toString t.line rfl
  have place : '\n' ∉ s!"Scanning at: {t.line}, index: ...".toList := by
    rw [toList_place]
    simp only [List.mem_append, List.mem_cons, not_or]
    exact ⟨by decide, number, by decide, by decide⟩
  have found : '\n' ∉ s!"Found a: {t.kind.name}".toList := by
    rw [toList_found, List.mem_append, not_or]
    exact ⟨by decide, t.kind.name_plain.2⟩
  have quoted : '\n' ∉ s!"'{t.lexeme}'".toList := by
    rw [toList_quoted]
    simp only [List.mem_append, List.mem_cons, not_or]
    exact ⟨⟨by decide, h⟩, by decide, List.not_mem_nil⟩
  rw [tokenRow, toList_row]
  simp only [List.mem_append, not_or]
  exact ⟨lineFeed_notMem_cell place, by decide, lineFeed_notMem_cell found, by decide,
    lineFeed_notMem_cell quoted, by decide, lineFeed_notMem_cell number⟩

/-! ### Kinds and lexemes -/

theorem toList_kindLine (t : Token) :
    (kindLine t).toList = t.kind.name.toList ++ ' ' :: t.lexeme.toList := by
  change (t.kind.name ++ " " ++ t.lexeme).toList = _
  simp

theorem content_eq_of_kindLine_eq {t u : Token} (h : kindLine t = kindLine u) :
    t.content = u.content := by
  rw [← String.toList_inj, toList_kindLine, toList_kindLine] at h
  obtain ⟨names, lexemes⟩ := Text.append_cons_inj t.kind.name_plain.1 u.kind.name_plain.1 h
  rw [Token.content, Token.content, Token.Kind.name_injective (String.toList_inj.mp names),
    String.toList_inj.mp lexemes]

theorem lineFeed_notMem_kindLine {t : Token} (h : '\n' ∉ t.lexeme.toList) :
    '\n' ∉ (kindLine t).toList := by
  rw [toList_kindLine]
  simp only [List.mem_append, List.mem_cons, not_or]
  exact ⟨t.kind.name_plain.2, by decide, h⟩

/-! ### Streams -/

/-- Heading and rule stand in front of every table. -/
theorem table_eq_append (ts : List Token) :
    table ts = heading ++ "\n" ++ (rule ++ "\n" ++ String.join (ts.map (tokenRow · ++ "\n"))) := by
  rw [table, List.map_cons, List.map_cons, String.join_cons, String.join_cons, List.map_map,
    Function.comp_def]

theorem eq_of_table_eq {ts us : List Token} (ht : ∀ t ∈ ts, '\n' ∉ t.lexeme.toList)
    (hu : ∀ u ∈ us, '\n' ∉ u.lexeme.toList) (h : table ts = table us) : ts = us := by
  rw [table_eq_append, table_eq_append, String.append_right_inj, String.append_right_inj] at h
  have told : ts.map id = us.map id :=
    Text.map_eq_of_join_lineFeed lineFeed_notMem_tokenRow (fun _ _ => eq_of_tokenRow_eq) ht hu h
  rwa [List.map_id, List.map_id] at told

theorem contents_eq_of_kindList_eq {ts us : List Token} (ht : ∀ t ∈ ts, '\n' ∉ t.lexeme.toList)
    (hu : ∀ u ∈ us, '\n' ∉ u.lexeme.toList) (h : kindList ts = kindList us) :
    ts.map Token.content = us.map Token.content :=
  Text.map_eq_of_join_lineFeed lineFeed_notMem_kindLine (fun _ _ => content_eq_of_kindLine_eq) ht hu
    h

end Report

/-- Lexemes of a scan hold no line feed, and about such tokens the two dumps lose nothing: tables
tell the tokens, lists of kinds tell kinds and lexemes. -/
theorem tokens_eq_of_dumped :
    (∀ (o : Options) (source : String) (r : Report), scan o source = .ok r →
      ∀ t ∈ r.tokens, '\n' ∉ t.lexeme.toList) ∧
    ∀ ts us : List Token, (∀ t ∈ ts, '\n' ∉ t.lexeme.toList) →
      (∀ u ∈ us, '\n' ∉ u.lexeme.toList) →
      (Report.table ts = Report.table us → ts = us) ∧
      (Report.kindList ts = Report.kindList us →
        ts.map Token.content = us.map Token.content) := by
  constructor
  · intro o source r h t ht hmem
    cases isBreak_of_mem_lexeme h ht hmem
  · intro ts us ht hu
    exact ⟨Report.eq_of_table_eq ht hu, Report.contents_eq_of_kindList_eq ht hu⟩

/-- A lexeme may be longer than its column and look like the rest of a row; a number may be wider
than its column. -/
theorem tokens_eq_of_dumped_bars :
    ∃ r r' r'', scan {} "x\n\"' | 2 | \" \"longer than a column ' \"" = .ok r ∧
      scan {} "  x \r\n\"' | 2 | \"\"longer than a column ' \"" = .ok r' ∧
      scan {} "x \"' | 2 | \"\n\n\"longer than a column ' \"" = .ok r'' ∧
      (Report.table r.tokens = Report.table r'.tokens ∧ r.tokens = r'.tokens) ∧
      (Report.kindList r.tokens = Report.kindList r''.tokens ∧
        r.tokens.map Token.content = r''.tokens.map Token.content) ∧
      Report.table [⟨.identifier, "x", 10 ^ 24⟩] ≠
        Report.table [⟨.identifier, "x", 10 ^ 24 + 1⟩] := by
  have h : scan {} "x\n\"' | 2 | \" \"longer than a column ' \"" = .ok
      ⟨[⟨.identifier, "x", 1⟩, ⟨.string, "\"' | 2 | \"", 2⟩,
        ⟨.string, "\"longer than a column ' \"", 2⟩], [], 2, 0⟩ := by
    decide +kernel
  have h' : scan {} "  x \r\n\"' | 2 | \"\"longer than a column ' \"" = .ok
      ⟨[⟨.identifier, "x", 1⟩, ⟨.string, "\"' | 2 | \"", 2⟩,
        ⟨.string, "\"longer than a column ' \"", 2⟩], [], 2, 0⟩ := by
    decide +kernel
  have h'' : scan {} "x \"' | 2 | \"\n\n\"longer than a column ' \"" = .ok
      ⟨[⟨.identifier, "x", 1⟩, ⟨.string, "\"' | 2 | \"", 1⟩,
        ⟨.string, "\"longer than a column ' \"", 3⟩], [], 3, 0⟩ := by
    decide +kernel
  have kept := tokens_eq_of_dumped.1 _ _ _ h
  have kept' := tokens_eq_of_dumped.1 _ _ _ h'
  have kept'' := tokens_eq_of_dumped.1 _ _ _ h''
  refine ⟨_, _, _, h, h', h'', ⟨rfl, ?_⟩, ⟨rfl, ?_⟩, fun table_eq => ?_⟩
  · exact (tokens_eq_of_dumped.2 _ _ kept kept').1 rfl
  · exact (tokens_eq_of_dumped.2 _ _ kept kept'').2 rfl
  · cases (tokens_eq_of_dumped.2 _ _ (by decide) (by decide)).1 table_eq

end LineLexer
