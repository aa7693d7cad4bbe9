import LineLexer.Proofs.Json.Numeral

/-!
Where values begin and end. White space is passed over up to the first character of what follows it;
a value never begins with what may follow one, so that the end of a list or an object is recognised
by one character.
-/

namespace LineLexer.Json

/-! ### White space -/

theorem skipSpace_gap (g : Gap) {cs : List Char} (h : ∀ c ∈ cs.head?, isSpace c = false) :
    skipSpace (g.chars ++ cs) = cs := by
  rw [skipSpace, List.dropWhile_append_of_pos g.blank]
  cases cs with
  | nil => rfl
  | cons c cs => simp [h c rfl]

theorem skipSpace_gaps (g g' : Gap) {cs : List Char} (h : ∀ c ∈ cs.head?, isSpace c = false) :
    skipSpace (g.chars ++ (g'.chars ++ cs)) = cs := by
  rw [skipSpace, List.dropWhile_append_of_pos g.blank]
  exact skipSpace_gap g' h

theorem skipSpace_gap_cons (g : Gap) {c : Char} (cs : List Char) (h : isSpace c = false) :
    skipSpace (g.chars ++ c :: cs) = c :: cs :=
  skipSpace_gap g fun _ hd => Option.some.inj hd ▸ h

theorem skipSpace_gaps_cons (g g' : Gap) {c : Char} (cs : List Char) (h : isSpace c = false) :
    skipSpace (g.chars ++ (g'.chars ++ c :: cs)) = c :: cs :=
  skipSpace_gaps g g' fun _ hd => Option.some.inj hd ▸ h

/-! ### Beginnings -/

/-- The first character of a value. -/
def Starts (c : Char) : Prop :=
  c ∈ ['n', 't', 'f', '"', '[', '\x7b', '-'] ∨ c.isDigit = true

theorem Starts.isSpace_eq_false {c : Char} (h : Starts c) :
    isSpace c = false ∧ c ≠ ',' ∧ c ≠ ']' ∧ c ≠ '\x7d' := by
  rcases h with h | h
  · have all : ∀ c ∈ ['n', 't', 'f', '"', '[', '\x7b', '-'],
        isSpace c = false ∧ c ≠ ',' ∧ c ≠ ']' ∧ c ≠ '\x7d' := by simp [isSpace]
    exact all c h
  · have ne {d : Char} (hd : d.isDigit = false) : c ≠ d := by
      rintro rfl
      exact Bool.false_ne_true (hd.symm.trans h)
    refine ⟨?_, ne rfl, ne rfl, ne rfl⟩
    simp [isSpace, ne (d := ' ') rfl, ne (d := '\t') rfl, ne (d := '\n') rfl, ne (d := '\r') rfl]

theorem Numeral.exists_head (n : Numeral) :
    ∃ c cs, n.chars = c :: cs ∧ (c = '-' ∨ c.isDigit = true) := by
  obtain ⟨c, cs, hc, hd⟩ := n.whole.exists_cons
  cases hn : n.negative with
  | true => exact ⟨'-', n.whole.chars ++ n.tail, by simp [chars, hn], .inl rfl⟩
  | false => exact ⟨c, cs ++ n.tail, by simp [chars, hn, hc], .inr hd⟩

theorem Tree.exists_head (t : Tree) : ∃ c cs, t.chars = c :: cs ∧ Starts c := by
  cases t with
  | null => exact ⟨_, _, by rw [chars], .inl (by decide)⟩
  | boolean b => cases b <;> exact ⟨_, _, by rw [chars], .inl (by decide)⟩
  | string s => exact ⟨_, _, by rw [chars, Literal.chars], .inl (by decide)⟩
  | list gap items => exact ⟨_, _, by rw [chars], .inl (by decide)⟩
  | object gap members => exact ⟨_, _, by rw [chars], .inl (by decide)⟩
  | number n =>
      obtain ⟨c, cs, hc, hd⟩ := n.exists_head
      refine ⟨c, cs, by rw [chars, hc], hd.imp_left ?_⟩
      rintro rfl
      decide

theorem Tree.isSpace_head? (t : Tree) (rest : List Char) :
    ∀ c ∈ (t.chars ++ rest).head?, isSpace c = false := by
  obtain ⟨c, cs, hc, hs⟩ := t.exists_head
  rw [hc]
  intro d hd
  exact Option.some.inj hd ▸ hs.isSpace_eq_false.1

/-! ### Ends -/

theorem ends_cons {c : Char} (h : isSpace c = true ∨ c = ',' ∨ c = ']' ∨ c = '\x7d')
    (rest : List Char) : Ends (c :: rest) :=
  fun _ hd => Option.some.inj hd ▸ h

theorem Gap.ends (g : Gap) {rest : List Char} (h : Ends rest) : Ends (g.chars ++ rest) := by
  cases hg : g.chars with
  | nil => exact h
  | cons c cs => exact ends_cons (.inl (g.blank c (hg ▸ List.mem_cons_self))) _

theorem ends_items (items : List Item) (rest : List Char) :
    Ends (itemsChars false items ++ ']' :: rest) := by
  cases items with
  | nil => exact ends_cons (by simp) rest
  | cons item items =>
      rw [itemsChars_cons]
      exact ends_cons (.inr (.inl rfl)) _

theorem ends_members (members : List Member) (rest : List Char) :
    Ends (membersChars false members ++ '\x7d' :: rest) := by
  cases members with
  | nil => exact ends_cons (by simp) rest
  | cons member members =>
      rw [membersChars_cons]
      exact ends_cons (.inr (.inl rfl)) _

end LineLexer.Json
