import LineLexer.Proofs.LineScan.Derivation

/-!
How tokens lie on their line. A tiling cuts a line into blanks, the lexemes of its tokens with the
blanks behind each, and a rest that cannot be read. Every scan of a line lays out such a tiling, in
which each lexeme is the longest at its place.
-/

namespace LineLexer

namespace Lexeme

/-- What a scan may leave: nothing, or a text that begins neither with a blank nor a lexeme. -/
inductive Stuck : List Char → Prop
  | nil : Stuck []
  | unrecognized {c : Char} {rest : List Char} (hb : Text.isBlank c = false)
      (h : ∀ l, ¬ IsLexeme (c :: l)) : Stuck (c :: rest)
  | unterminated {rest : List Char} (h : '"' ∉ rest) : Stuck ('"' :: rest)

theorem Decided.stuck {v : Vocabulary} {text : List Char} {cause : Diagnostic.Cause}
    (h : Decided v text (.stop cause)) : Stuck text := by
  cases h with
  | unrecognized hb _ h => exact .unrecognized hb h
  | unterminated h => exact .unterminated h

theorem Stuck.isBlank_eq_false {c : Char} {rest : List Char} (h : Stuck (c :: rest)) :
    Text.isBlank c = false := by
  cases h with
  | unrecognized hb _ => exact hb
  | unterminated _ => rfl

theorem Stuck.not_isLexeme {text l : List Char} (h : Stuck text) (hl : l <+: text) :
    ¬ IsLexeme l := by
  intro hx
  cases h with
  | nil => exact hx.ne_nil (List.prefix_nil.mp hl)
  | unrecognized _ h =>
      obtain ⟨tail, rfl, _⟩ := hx.exists_tail hl
      exact h tail hx
  | unterminated h =>
      obtain ⟨tail, rfl, htail⟩ := hx.exists_tail hl
      obtain ⟨body, _, hb⟩ := hx.isString
      obtain rfl := (List.cons.inj hb).2
      exact h (htail.subset (by simp))

end Lexeme

/-- A token with the blanks behind it. -/
structure Tile where
  token : Token
  blanks : List Char
  isBlank_blanks : ∀ c ∈ blanks, Text.isBlank c = true

namespace Tile

def lexeme (t : Tile) : List Char := t.token.lexeme.toList

/-- The text under a row of tiles. -/
def cover (tiles : List Tile) : List Char := tiles.flatMap fun t => t.lexeme ++ t.blanks

@[simp] theorem cover_nil : cover [] = [] := rfl

@[simp] theorem cover_cons (t : Tile) (ts : List Tile) :
    cover (t :: ts) = t.lexeme ++ t.blanks ++ cover ts := rfl

end Tile

structure Tiling where
  lead : List Char
  tiles : List Tile
  rest : List Char
  isBlank_lead : ∀ c ∈ lead, Text.isBlank c = true
  stuck_rest : Lexeme.Stuck rest

namespace Tiling

def line (t : Tiling) : List Char := t.lead ++ Tile.cover t.tiles ++ t.rest

def tokens (t : Tiling) : List Token := t.tiles.map Tile.token

/-- At each place the longest lexeme was taken, and under its kind. -/
def IsMunch (v : Vocabulary) (t : Tiling) : Prop :=
  ∀ before tile after, t.tiles = before ++ tile :: after →
    Lexeme.IsLongest (Tile.cover (tile :: after) ++ t.rest) tile.lexeme ∧
      Lexeme.HasKind v tile.lexeme tile.token.kind

end Tiling

namespace LineScan

theorem Munched.exists_tiling {v : Vocabulary} {number : Nat} {text : List Char}
    {tokens : List Token} {halt : Option Halt} (h : Munched v number text tokens halt) :
    ∃ t : Tiling, t.line = text ∧ t.tokens = tokens ∧ t.rest = remaining halt ∧ t.IsMunch v := by
  induction h with
  | complete =>
      refine ⟨⟨[], [], [], by simp, .nil⟩, rfl, rfl, rfl, ?_⟩
      intro before tile after ht
      simp at ht
  | @blank c rest tokens halt hb next ih =>
      obtain ⟨t, rfl, rfl, hr, hm⟩ := ih
      refine ⟨⟨c :: t.lead, t.tiles, t.rest, ?_, t.stuck_rest⟩, rfl, rfl, hr, hm⟩
      rw [List.forall_mem_cons]
      constructor
      · exact hb
      · exact t.isBlank_lead
  | @lexeme l rest kind tokens halt hl hk next ih =>
      obtain ⟨t, rfl, rfl, hr, hm⟩ := ih
      let tile : Tile := ⟨⟨kind, String.ofList l, number⟩, t.lead, t.isBlank_lead⟩
      have hx : tile.lexeme = l := String.toList_ofList
      have hc : Tile.cover (tile :: t.tiles) ++ t.rest = l ++ t.line := by
        simp [hx, tile, Tiling.line]
      refine ⟨⟨[], tile :: t.tiles, t.rest, by simp, t.stuck_rest⟩, hc, rfl, hr, ?_⟩
      intro before d after hd
      cases before with
      | nil =>
          obtain ⟨rfl, rfl⟩ := List.cons.inj hd
          rw [hc, hx]
          exact ⟨hl, hk⟩
      | cons b bs => exact hm bs d after (List.cons.inj hd).2
  | @stop c rest cause hd =>
      refine ⟨⟨[], [], c :: rest, by simp, hd.stuck⟩, rfl, rfl, rfl, ?_⟩
      intro before tile after ht
      simp at ht

theorem exists_tiling_ofLine (o : Options) (number : Nat) (text : List Char) :
    ∃ t : Tiling, t.line = text ∧ t.tokens = (ofLine o number text).tokens ∧
      t.rest = leftOver o number text ∧ t.IsMunch o.vocabulary := by
  obtain ⟨halt, hm, hr⟩ := munched_ofLine o number text
  obtain ⟨t, hl, ht, hrest, hmunch⟩ := hm.exists_tiling
  exact ⟨t, hl, ht, hrest.trans hr, hmunch⟩

end LineScan
end LineLexer
