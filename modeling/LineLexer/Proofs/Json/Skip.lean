import LineLexer.Proofs.Json.Borders

/-!
Passing over values. A value that nobody looks at is passed over up to its very end, however deeply
it is nested and whatever brackets and quotes its strings hold.
-/

namespace LineLexer.Json

theorem readColon_gap (g : Gap) (rest : List Char) :
    readColon (g.chars ++ ':' :: rest) = .ok rest := by
  rw [readColon, skipSpace_gap_cons g rest (by decide)]
  rfl

theorem skipKey_body (g : Gap) (key : Literal) (g' : Gap) (rest : List Char) :
    skipKey (g.chars ++ '"' :: (key.body ++ (g'.chars ++ ':' :: rest))) = .ok rest := by
  rw [skipKey, skipSpace_gap_cons g _ (by decide)]
  simp only [skipString_body]
  exact readColon_gap g' rest

/-! ### Beginnings of values -/

/-- The start of a value in front of `rest`. -/
def Tree.start (rest : List Char) : Tree → Start
  | .list gap items => .opened .list (gap.chars ++ (itemsChars true items ++ ']' :: rest))
  | .object gap members =>
    .opened .object (gap.chars ++ (membersChars true members ++ '\x7d' :: rest))
  | _ => .scalar rest

theorem skipStart_digit {c : Char} (h : c.isDigit = true) (cs : List Char) :
    skipStart (c :: cs) = (skipNumber (c :: cs)).map .scalar := by
  have hs : skipSpace (c :: cs) = c :: cs :=
    skipSpace_gap_cons .none cs (Starts.isSpace_eq_false (.inr h)).1
  rw [skipStart, hs]
  split <;> simp_all

theorem skipStart_number (n : Numeral) {rest : List Char} (h : Ends rest) :
    skipStart (n.chars ++ rest) = .ok (.scalar rest) := by
  have hw := n.skipNumber_whole h
  obtain ⟨c, cs, hc, hd⟩ := n.whole.exists_cons
  rw [Numeral.chars, List.append_assoc, List.append_assoc]
  cases n.negative with
  | true => exact congrArg (Except.map Start.scalar) hw
  | false =>
      rw [hc] at hw ⊢
      exact (skipStart_digit hd _).trans (congrArg (Except.map Start.scalar) hw)

theorem skipStart_chars (t : Tree) {rest : List Char} (h : Ends rest) :
    skipStart (t.chars ++ rest) = .ok (t.start rest) := by
  cases t with
  | null =>
      rw [Tree.chars]
      rfl
  | boolean b => cases b <;> rw [Tree.chars] <;> rfl
  | number n =>
      rw [Tree.chars]
      exact skipStart_number n h
  | string s =>
      rw [Tree.chars]
      exact congrArg (Except.map Start.scalar) (skipString_body s rest)
  | list gap items =>
      rw [Tree.chars, Tree.start, List.cons_append, List.append_assoc, List.append_assoc]
      rfl
  | object gap members =>
      rw [Tree.chars, Tree.start, List.cons_append, List.append_assoc, List.append_assoc]
      rfl

theorem skipStart_gap (g : Gap) (t : Tree) {rest : List Char} (h : Ends rest) :
    skipStart (g.chars ++ (t.chars ++ rest)) = .ok (t.start rest) := by
  have hs : skipSpace (t.chars ++ rest) = t.chars ++ rest :=
    skipSpace_gap .none (t.isSpace_head? rest)
  rw [← skipStart_chars t h, skipStart, skipStart, skipSpace_gap g (t.isSpace_head? rest), hs]

/-! ### Inside brackets -/

/-- Goes on behind the start of an entry of the innermost bracket. -/
def skipEntry (brackets : List Bracket) : Start → Except Fault (List Char)
  | .scalar rest => skipInside false brackets rest
  | .opened inner rest => skipInside true (inner :: brackets) rest

section

variable {bracket : Bracket} {fresh : Bool} {cs : List Char} (outer : List Bracket)

theorem skipInside_close {rest : List Char} (h : skipNext bracket fresh cs = .ok (.close rest)) :
    skipInside fresh (bracket :: outer) cs = skipInside false outer rest := by
  rw [skipInside]
  split
  · next he => rw [h] at he; cases he
  · next he =>
      rw [h] at he
      cases he
      rfl
  · next he => rw [h] at he; cases he

theorem skipInside_entry {start : List Char} (h : skipNext bracket fresh cs = .ok (.entry start)) :
    skipInside fresh (bracket :: outer) cs = skipStart start >>= skipEntry (bracket :: outer) := by
  rw [skipInside]
  split
  · next he => rw [h] at he; cases he
  · next he => rw [h] at he; cases he
  · next he =>
      rw [h] at he
      cases he
      cases hs : skipStart start with
      | error f => rfl
      | ok s => cases s <;> rfl

end

theorem skipNext_close (bracket : Bracket) (fresh : Bool) (g : Gap) (rest : List Char) :
    skipNext bracket fresh (g.chars ++ bracket.closing :: rest) = .ok (.close rest) := by
  rw [skipNext, skipSpace_gap_cons g rest (by cases bracket <;> decide)]
  exact if_pos rfl

/-- Behind the separator of an entry stands its value, with the key in front of it if it has one. -/
theorem skipNext_separator (bracket : Bracket) (fresh : Bool) (g g' : Gap) {c : Char}
    (cs : List Char) (hs : isSpace c = false) (hc : c ≠ bracket.closing) :
    ∃ g'' : Gap, skipNext bracket fresh (g.chars ++ (separator fresh ++ (g'.chars ++ c :: cs))) =
      (skipToValue bracket (g''.chars ++ c :: cs)).map .entry := by
  -- white space in front of a first entry is gone already, that behind a comma is still there
  cases fresh with
  | true =>
      refine ⟨.none, ?_⟩
      rw [skipNext, separator, if_pos rfl, List.nil_append, skipSpace_gaps_cons g g' cs hs]
      simp only [if_neg hc, if_pos]
      rfl
  | false =>
      have comma : ',' ≠ bracket.closing := by cases bracket <;> decide
      refine ⟨g', ?_⟩
      rw [skipNext, separator, if_neg Bool.false_ne_true, List.singleton_append,
        skipSpace_gap_cons g _ (by decide)]
      simp only [if_neg comma, if_neg Bool.false_ne_true, if_pos]

section

variable (fresh : Bool) (outer : List Bracket) (g : Gap) {rest : List Char}

theorem skipInside_item (g' : Gap) (t : Tree) (h : Ends rest) :
    skipInside fresh (.list :: outer)
        (g.chars ++ (separator fresh ++ (g'.chars ++ (t.chars ++ rest)))) =
      skipEntry (.list :: outer) (t.start rest) := by
  obtain ⟨c, cs, ht, hc⟩ := t.exists_head
  obtain ⟨hs, _, hc, _⟩ := hc.isSpace_eq_false
  obtain ⟨g'', hn⟩ := skipNext_separator .list fresh g g' (cs ++ rest) hs hc
  rw [← List.cons_append, ← ht] at hn
  rw [skipInside_entry outer hn, skipStart_gap g'' t h]
  rfl

theorem skipInside_member (before : Gap) (key : Literal) (behindKey beforeValue : Gap) (t : Tree)
    (h : Ends rest) :
    skipInside fresh (.object :: outer)
        (g.chars ++ (separator fresh ++ (before.chars ++ '"' :: (key.body ++ (behindKey.chars ++
          ':' :: (beforeValue.chars ++ (t.chars ++ rest))))))) =
      skipEntry (.object :: outer) (t.start rest) := by
  obtain ⟨g'', hn⟩ := skipNext_separator .object fresh g before
    (key.body ++ (behindKey.chars ++ ':' :: (beforeValue.chars ++ (t.chars ++ rest))))
    (c := '"') (by decide) (by decide)
  rw [skipToValue, skipKey_body] at hn
  rw [skipInside_entry outer hn, skipStart_gap beforeValue t h]
  rfl

end

/-! ### Whole values -/

mutual

theorem Tree.skipEntry_start (t : Tree) (brackets : List Bracket) (rest : List Char) :
    skipEntry brackets (t.start rest) = skipInside false brackets rest := by
  cases t with
  | list gap items => exact skipInside_items true gap items brackets rest
  | object gap members => exact skipInside_members true gap members brackets rest
  | null | boolean _ | number _ | string _ => rfl

theorem skipInside_items (fresh : Bool) (g : Gap) (items : List Item) (outer : List Bracket)
    (rest : List Char) :
    skipInside fresh (.list :: outer) (g.chars ++ (itemsChars fresh items ++ ']' :: rest)) =
      skipInside false outer rest := by
  match items with
  | [] => exact skipInside_close outer (skipNext_close .list fresh g rest)
  | ⟨before, value, behind⟩ :: items =>
      have ends := behind.ends (ends_items items rest)
      simp only [itemsChars_cons, List.append_assoc]
      rw [skipInside_item fresh outer g before value ends, Tree.skipEntry_start value]
      exact skipInside_items false behind items outer rest

theorem skipInside_members (fresh : Bool) (g : Gap) (members : List Member) (outer : List Bracket)
    (rest : List Char) :
    skipInside fresh (.object :: outer)
        (g.chars ++ (membersChars fresh members ++ '\x7d' :: rest)) =
      skipInside false outer rest := by
  match members with
  | [] => exact skipInside_close outer (skipNext_close .object fresh g rest)
  | ⟨before, key, behindKey, beforeValue, value, behind⟩ :: members =>
      have ends := behind.ends (ends_members members rest)
      simp only [membersChars_cons, List.append_assoc, List.cons_append]
      rw [skipInside_member fresh outer g before key behindKey beforeValue value ends,
        Tree.skipEntry_start value]
      exact skipInside_members false behind members outer rest

end

theorem skipValue_chars (g : Gap) (t : Tree) {rest : List Char} (h : Ends rest) :
    skipValue (g.chars ++ (t.chars ++ rest)) = .ok rest := by
  have entry : skipEntry [] (t.start rest) = .ok rest := by
    rw [t.skipEntry_start, skipInside]
  rw [skipValue, skipStart_gap g t h]
  cases hs : t.start rest <;> rw [hs] at entry
  · rwa [skipEntry, skipInside] at entry
  · exact entry

end LineLexer.Json
