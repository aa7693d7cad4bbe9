import LineLexer.Proofs.Lexeme.Gluing
import LineLexer.Proofs.LineScan.Determinism
import LineLexer.Proofs.Scan.Visit
import LineLexer.Proofs.Text.Chunks

/-!
Lexemes written in a row. A line of lexemes, with blanks or nothing between them, is read as those
lexemes exactly if no two of them stand side by side and glue.
-/

namespace LineLexer

/-- A lexeme as it can stand on a line, with the blanks behind it. -/
structure Piece where
  lexeme : List Char
  blanks : List Char
  isLexeme : Lexeme.IsLexeme lexeme
  isBreak_lexeme : ∀ c ∈ lexeme, Text.isBreak c = false
  isBlank_blanks : ∀ c ∈ blanks, Text.isBlank c = true

/-- The token that a lexeme makes on a line. -/
structure Lexeme.Makes (v : Vocabulary) (number : Nat) (l : List Char) (t : Token) : Prop where
  lexeme_eq : t.lexeme = String.ofList l
  hasKind : HasKind v l t.kind
  line_eq : t.line = number

namespace Piece

/-- The text of pieces in a row. -/
def cover (pieces : List Piece) : List Char := pieces.flatMap fun p => p.lexeme ++ p.blanks

@[simp] theorem cover_nil : cover [] = [] := rfl

@[simp] theorem cover_cons (p : Piece) (ps : List Piece) :
    cover (p :: ps) = p.lexeme ++ (p.blanks ++ cover ps) := List.append_assoc ..

/-- Whether a piece may stand in front of another. -/
def Admits (p q : Piece) : Prop := p.blanks = [] → ¬ Lexeme.Glues p.lexeme q.lexeme

end Piece

structure Row where
  lead : List Char
  pieces : List Piece
  isBlank_lead : ∀ c ∈ lead, Text.isBlank c = true

namespace Row

def text (r : Row) : List Char := r.lead ++ Piece.cover r.pieces

def lexemes (r : Row) : List (List Char) := r.pieces.map Piece.lexeme

/-- No two lexemes that glue stand side by side. -/
def IsSpaced (r : Row) : Prop := r.pieces.IsChain Piece.Admits

end Row

/-! ### Reading a row -/

theorem Piece.isLongest_cover_iff (p : Piece) (ps : List Piece) :
    Lexeme.IsLongest (cover (p :: ps)) p.lexeme ↔ ∀ q ∈ ps.head?, p.Admits q := by
  rw [cover_cons, Lexeme.isLongest_append_iff p.isLexeme]
  cases hb : p.blanks with
  | cons b bs =>
      have blank : Text.isBlank b = true := p.isBlank_blanks b (by simp [hb])
      constructor
      · intro _ q _ hnil
        rw [hb] at hnil
        cases hnil
      · rintro _ c ⟨rfl⟩
        exact Lexeme.not_continues_of_isBlank blank
  | nil =>
      cases ps with
      | nil => simp
      | cons q qs =>
          obtain ⟨c, m, hq⟩ := List.exists_cons_of_ne_nil q.isLexeme.ne_nil
          have glues := Lexeme.glues_cons_iff (l := p.lexeme) (hq ▸ q.isLexeme)
          simp [Admits, hb, hq, glues]

theorem Piece.exists_tokens (v : Vocabulary) (number : Nat) (pieces : List Piece) :
    ∃ tokens, List.Forall₂ (Lexeme.Makes v number) (pieces.map lexeme) tokens := by
  induction pieces with
  | nil => exact ⟨[], .nil⟩
  | cons p ps ih =>
      obtain ⟨tokens, ht⟩ := ih
      obtain ⟨k, hk⟩ := p.isLexeme.exists_hasKind v
      exact ⟨⟨k, String.ofList p.lexeme, number⟩ :: tokens, .cons ⟨rfl, hk, rfl⟩ ht⟩

namespace LineScan

variable {v : Vocabulary} {number : Nat} {tokens : List Token} {halt : Option Halt}

theorem munched_lexeme_append_iff {l rest : List Char} {t : Token}
    (ht : Lexeme.Makes v number l t) :
    Munched v number (l ++ rest) (t :: tokens) halt ↔
      Lexeme.IsLongest (l ++ rest) l ∧ Munched v number rest tokens halt := by
  constructor
  · intro h
    -- the token names its lexeme, so the line can only have been cut behind it
    generalize htext : l ++ rest = text at h
    generalize hts : t :: tokens = ts at h
    cases h with
    | complete | stop => cases hts
    | blank hb next =>
        have hl := ht.hasKind.isLexeme
        obtain ⟨c, m, rfl⟩ := List.exists_cons_of_ne_nil hl.ne_nil
        obtain ⟨rfl, _⟩ := List.cons.inj htext
        rw [hl.isBlank_eq_false] at hb
        cases hb
    | lexeme hl hk next =>
        obtain ⟨rfl, rfl⟩ := List.cons.inj hts
        obtain rfl := String.ofList_injective ht.lexeme_eq
        obtain rfl := List.append_cancel_left htext
        exact ⟨hl, next⟩
  · rintro ⟨hl, next⟩
    obtain ⟨kind, lexeme, line⟩ := t
    obtain ⟨rfl, hk, rfl⟩ := ht
    exact .lexeme hl hk next

/-- A row of pieces is read as its lexemes exactly if each piece may stand where it does. -/
theorem munched_cover_iff {pieces : List Piece}
    (ht : List.Forall₂ (Lexeme.Makes v number) (pieces.map Piece.lexeme) tokens) :
    Munched v number (Piece.cover pieces) tokens halt ↔
      halt = none ∧ pieces.IsChain Piece.Admits := by
  induction pieces generalizing tokens with
  | nil =>
      cases ht
      simp [munched_nil_iff]
  | cons p ps ih =>
      cases ht with
      | cons hp hps =>
          rw [Piece.cover_cons, munched_lexeme_append_iff hp,
            munched_blanks_append_iff p.isBlank_blanks, ih hps, ← Piece.cover_cons,
            p.isLongest_cover_iff, List.isChain_cons]
          tauto

end LineScan

theorem Row.munched_text_iff {v : Vocabulary} {number : Nat} {tokens : List Token}
    {halt : Option LineScan.Halt} (row : Row)
    (ht : List.Forall₂ (Lexeme.Makes v number) row.lexemes tokens) :
    LineScan.Munched v number row.text tokens halt ↔ halt = none ∧ row.IsSpaced :=
  (LineScan.munched_blanks_append_iff row.isBlank_lead).trans (LineScan.munched_cover_iff ht)

/-! ### One line -/

theorem Text.isBreak_eq_false_of_isBlank {c : Char} (h : isBlank c = true) : isBreak c = false := by
  rcases Lexeme.isBlank_iff.mp h with rfl | rfl <;> decide

theorem Row.isBreak_text (row : Row) : ∀ c ∈ row.text, Text.isBreak c = false := by
  intro c hc
  simp only [text, Piece.cover, List.mem_append, List.mem_flatMap] at hc
  rcases hc with hc | ⟨p, _, hc | hc⟩
  · exact Text.isBreak_eq_false_of_isBlank (row.isBlank_lead c hc)
  · exact p.isBreak_lexeme c hc
  · exact Text.isBreak_eq_false_of_isBlank (p.isBlank_blanks c hc)

theorem ofSource_ofList (o : Options) {text : List Char}
    (h : ∀ c ∈ text, Text.isBreak c = false) :
    LineScan.ofSource o (String.ofList text) =
      if text = [] then [] else [LineScan.ofLine o 1 text] := by
  rw [LineScan.ofSource, String.toList_ofList]
  split
  · next hnil =>
      rw [hnil, Text.lines_nil]
      rfl
  · next hnil =>
      rw [Text.lines_of_isBreak_eq_false h hnil]
      rfl

theorem tokens_ofSource_ofList (o : Options) {text : List Char}
    (h : ∀ c ∈ text, Text.isBreak c = false) :
    (LineScan.ofSource o (String.ofList text)).flatMap (·.tokens) =
      (LineScan.ofLine o 1 text).tokens := by
  rw [ofSource_ofList o h]
  split
  · next hnil =>
      rw [hnil, LineScan.Munched.complete.ofLine_eq]
      rfl
  · exact List.flatMap_singleton ..

/-- What is written in a row is read back as its lexemes exactly if no two side by side glue. -/
theorem scan_row_iff (o : Options) (row : Row) :
    (∃ r, scan o (String.ofList row.text) = .ok r ∧ r.diagnostics = [] ∧
      List.Forall₂ (Lexeme.Makes o.vocabulary 1) row.lexemes r.tokens) ↔ row.IsSpaced := by
  have found := tokens_ofSource_ofList o row.isBreak_text
  constructor
  · rintro ⟨r, hr, _, ht⟩
    obtain ⟨halt, h, _⟩ := LineScan.munched_ofLine o 1 row.text
    rw [report_of_scan hr, Report.ofScans, found] at ht
    exact ((row.munched_text_iff ht).mp h).2
  · intro hspaced
    obtain ⟨tokens, ht⟩ := Piece.exists_tokens o.vocabulary 1 row.pieces
    have h := ((row.munched_text_iff ht).mpr ⟨rfl, hspaced⟩).ofLine_eq
    have complete : ∀ s ∈ LineScan.ofSource o (String.ofList row.text), s.ending = .complete := by
      intro s hs
      rw [ofSource_ofList o row.isBreak_text] at hs
      split at hs
      · cases hs
      · rw [List.mem_singleton.mp hs, h]
        rfl
    refine ⟨_, scan_of_complete complete, rfl, ?_⟩
    rw [found, h]
    exact ht

end LineLexer
