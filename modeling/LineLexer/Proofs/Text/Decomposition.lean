import LineLexer.Proofs.Text.Chunks

/-!
A text taken apart into lines and what ends them. The rules for line ends say what a decomposition
is and do not mention the splitter. Every text has exactly one decomposition, and its lines are those
that the splitter finds.
-/

namespace LineLexer.Text

/-- The code points that end a line: line feed, carriage return, vertical tab, form feed, three
separators of ASCII, next line, line separator and paragraph separator. -/
def lineEnds : List Nat := [0x0a, 0x0d, 0x0b, 0x0c, 0x1c, 0x1d, 0x1e, 0x85, 0x2028, 0x2029]

def EndsLine (c : Char) : Prop := c.toNat ∈ lineEnds

/-- What can end a line: one character, or the pair of carriage return and line feed. -/
inductive IsTerminator : List Char → Prop
  | pair : IsTerminator ['\r', '\n']
  | single {c : Char} (h : EndsLine c) : IsTerminator [c]

/-- A line and what ends it, which is empty behind the last line of some texts. -/
structure Segment where
  line : List Char
  terminator : List Char

namespace Segment

/-- The text that is cut into segments. -/
def cover (segments : List Segment) : List Char :=
  segments.flatMap fun s => s.line ++ s.terminator

@[simp] theorem cover_nil : cover [] = [] := rfl

@[simp] theorem cover_cons (s : Segment) (after : List Segment) :
    cover (s :: after) = s.line ++ s.terminator ++ cover after := rfl

/-- How a line may end in front of the segments behind it. -/
inductive IsEnded (s : Segment) (after : List Segment) : Prop
  /-- A carriage return stands alone only if no line feed follows. -/
  | terminated (h : IsTerminator s.terminator)
      (alone : s.terminator = ['\r'] → (cover after).head? ≠ some '\n')
  /-- Only a last line can lack a terminator, and it is not empty. -/
  | unterminated (h : s.terminator = []) (last : after = []) (nonempty : s.line ≠ [])

end Segment

open Segment

structure IsDecomposition (text : List Char) (segments : List Segment) : Prop where
  cover_eq : cover segments = text
  unbroken : ∀ s ∈ segments, ∀ c ∈ s.line, ¬ EndsLine c
  ended : ∀ before s after, segments = before ++ s :: after → s.IsEnded after

/-! ### Breaks and terminators -/

theorem isBreak_iff_endsLine {c : Char} : isBreak c = true ↔ EndsLine c := by
  rw [isBreak, List.contains_iff_mem, EndsLine,
    ← List.mem_map_of_injective (f := Char.toNat) fun _ _ => Char.toNat_inj.mp]
  rfl

theorem isBreak_eq_false_iff {c : Char} : isBreak c = false ↔ ¬ EndsLine c := by
  rw [← isBreak_iff_endsLine, Bool.not_eq_true]

/-- Behind a terminator the text goes on with what stands behind it. -/
theorem IsTerminator.dropBreak_append {t rest : List Char} (h : IsTerminator t)
    (alone : t = ['\r'] → rest.head? ≠ some '\n') : dropBreak (t ++ rest) = rest := by
  cases h with
  | pair => rfl
  | @single c hc =>
      rw [List.singleton_append, dropBreak_cons, following, if_neg]
      rintro ⟨hr, hn⟩
      obtain rfl := Option.some.inj hr
      exact alone rfl hn

theorem IsTerminator.exists_cons {t : List Char} (h : IsTerminator t) :
    ∃ c rest, t = c :: rest ∧ isBreak c = true := by
  cases h with
  | pair => exact ⟨'\r', ['\n'], rfl, rfl⟩
  | @single c hc => exact ⟨c, [], rfl, isBreak_iff_endsLine.mpr hc⟩

/-- A text that starts with a break starts with one terminator. -/
theorem exists_terminator {c : Char} (hc : isBreak c = true) (rest : List Char) :
    ∃ t, IsTerminator t ∧ t ++ dropBreak (c :: rest) = c :: rest ∧
      (t = ['\r'] → (dropBreak (c :: rest)).head? ≠ some '\n') := by
  have single : IsTerminator [c] := .single (isBreak_iff_endsLine.mp hc)
  rw [dropBreak_cons, following]
  split
  · next h =>
      obtain ⟨hr, hn⟩ := h
      obtain rfl := Option.some.inj hr
      obtain ⟨ds, rfl⟩ := List.head?_eq_some_iff.mp hn
      exact ⟨['\r', '\n'], .pair, rfl, by simp⟩
  · next h =>
      refine ⟨[c], single, rfl, ?_⟩
      rintro ⟨⟩ hn
      exact h ⟨rfl, hn⟩

/-! ### The first segment -/

section

variable {text : List Char} {s : Segment} {after : List Segment}

theorem isDecomposition_nil : IsDecomposition [] [] where
  cover_eq := rfl
  unbroken := by simp
  ended := by simp

/-- A decomposition is a first segment with a decomposition of what stands behind it. -/
theorem isDecomposition_cons_iff :
    IsDecomposition text (s :: after) ↔
      s.line ++ s.terminator ++ cover after = text ∧ (∀ c ∈ s.line, isBreak c = false) ∧
        s.IsEnded after ∧ IsDecomposition (cover after) after := by
  simp only [isBreak_eq_false_iff]
  constructor
  · intro h
    have unbroken := List.forall_mem_cons.mp h.unbroken
    refine ⟨h.cover_eq, unbroken.1, h.ended [] s after rfl, rfl, unbroken.2, ?_⟩
    intro before t behind ht
    exact h.ended (s :: before) t behind (congrArg (s :: ·) ht)
  · rintro ⟨hc, hs, he, h⟩
    refine ⟨hc, List.forall_mem_cons.mpr ⟨hs, h.unbroken⟩, ?_⟩
    intro before t behind ht
    cases before with
    | nil =>
        obtain ⟨rfl, rfl⟩ := List.cons.inj ht
        exact he
    | cons _ before => exact h.ended before t behind (List.cons.inj ht).2

/-- The first segment of a decomposition holds the first line, and the others what is behind it. -/
theorem IsDecomposition.firstLine_eq (h : IsDecomposition text (s :: after)) :
    firstLine text = s.line ∧ afterLine text = cover after := by
  obtain ⟨rfl, hline, hend, _⟩ := isDecomposition_cons_iff.mp h
  cases hend with
  | terminated ht alone =>
      obtain ⟨c, rest, htc, hc⟩ := ht.exists_cons
      have hd := ht.dropBreak_append alone
      rw [htc, List.cons_append] at hd
      rw [List.append_assoc, htc, List.cons_append, firstLine_append_cons hline hc,
        afterLine_append_cons hline hc, hd]
      exact ⟨rfl, rfl⟩
  | unterminated ht last _ =>
      have inside : ∀ c ∈ s.line, (!isBreak c) = true := by simpa using hline
      rw [last, ht, cover_nil, List.append_nil, List.append_nil, firstLine, afterLine,
        List.takeWhile_eq_self_iff.mpr inside, List.dropWhile_eq_nil_iff.mpr inside]
      exact ⟨rfl, rfl⟩

theorem IsDecomposition.ne_nil (h : IsDecomposition text (s :: after)) : text ≠ [] := by
  obtain ⟨rfl, _, hend, _⟩ := isDecomposition_cons_iff.mp h
  cases hend with
  | terminated ht _ =>
      obtain ⟨c, rest, htc, _⟩ := ht.exists_cons
      simp [htc]
  | unterminated _ _ hne => simp [hne]

end

/-! ### Existence and uniqueness -/

theorem IsDecomposition.eq_nil {segments : List Segment} (h : IsDecomposition [] segments) :
    segments = [] := by
  cases segments with
  | nil => rfl
  | cons s after => exact absurd rfl h.ne_nil

/-- The first line of a text has an end that suits a decomposition of what stands behind it. -/
theorem exists_isEnded {text : List Char} {after : List Segment} (hne : text ≠ [])
    (h : IsDecomposition (afterLine text) after) :
    ∃ t, firstLine text ++ t ++ cover after = text ∧ IsEnded ⟨firstLine text, t⟩ after := by
  have hsplit : firstLine text ++ text.dropWhile (!isBreak ·) = text :=
    List.takeWhile_append_dropWhile
  have hcover := h.cover_eq
  cases hd : text.dropWhile (!isBreak ·) with
  | nil =>
      rw [afterLine, hd] at h
      obtain rfl := h.eq_nil
      rw [hd, List.append_nil] at hsplit
      refine ⟨[], ?_, .unterminated rfl rfl ?_⟩
      · rw [cover_nil, List.append_nil, List.append_nil, hsplit]
      · rwa [hsplit]
  | cons d ds =>
      have hb : d ∈ (text.dropWhile (!isBreak ·)).head? := by
        rw [hd]
        rfl
      obtain ⟨t, ht, happ, alone⟩ := exists_terminator (isBreak_of_mem_head?_dropWhile hb) ds
      rw [afterLine, hd] at hcover
      rw [← hcover] at happ alone
      refine ⟨t, ?_, .terminated ht alone⟩
      rw [List.append_assoc, happ, ← hd, hsplit]

theorem exists_isDecomposition (text : List Char) :
    ∃ segments, IsDecomposition text segments ∧ segments.map Segment.line = lines text := by
  fun_induction lines text with
  | case1 => exact ⟨[], isDecomposition_nil, rfl⟩
  | case2 c cs ih =>
      obtain ⟨after, h, hlines⟩ := ih
      obtain ⟨t, hcover, hend⟩ := exists_isEnded (List.cons_ne_nil c cs) h
      refine ⟨⟨firstLine (c :: cs), t⟩ :: after, ?_, congrArg (_ :: ·) hlines⟩
      refine isDecomposition_cons_iff.mpr ⟨hcover, ?_, hend, ?_⟩
      · intro d hd
        exact isBreak_eq_false_of_mem_firstLine hd
      · rwa [h.cover_eq]

theorem IsDecomposition.unique {text : List Char} {xs ys : List Segment}
    (hx : IsDecomposition text xs) (hy : IsDecomposition text ys) : xs = ys := by
  induction xs generalizing text ys with
  | nil =>
      obtain rfl : text = [] := hx.cover_eq.symm
      exact hy.eq_nil.symm
  | cons s xs ih =>
      cases ys with
      | nil =>
          obtain rfl : text = [] := hy.cover_eq.symm
          exact hx.eq_nil
      | cons t ys =>
          obtain ⟨hs, hsc⟩ := hx.firstLine_eq
          obtain ⟨ht, htc⟩ := hy.firstLine_eq
          obtain ⟨hxt, _, _, hxs⟩ := isDecomposition_cons_iff.mp hx
          obtain ⟨hyt, _, _, hys⟩ := isDecomposition_cons_iff.mp hy
          have line : s.line = t.line := hs.symm.trans ht
          have rest : cover xs = cover ys := hsc.symm.trans htc
          have terminator : s.terminator = t.terminator := by
            rw [← hyt, line, rest] at hxt
            exact List.append_cancel_left (List.append_cancel_right hxt)
          rw [← rest] at hys
          obtain rfl := ih hxs hys
          cases s
          cases t
          cases line
          cases terminator
          rfl

theorem lines_eq_nil_iff {text : List Char} : lines text = [] ↔ text = [] := by
  constructor
  · intro h
    cases text with
    | nil => rfl
    | cons c cs =>
        rw [lines_cons] at h
        cases h
  · rintro rfl
    exact lines_nil

/-! ### The end of a text -/

theorem following_eq_self {b : List Char} (h : ∀ c ∈ b.head?, isBreak c = false)
    (a : List Char) : following a b = b := by
  rw [following, if_neg]
  rintro ⟨_, hb⟩
  cases h '\n' hb

/-- A text is made up of terminated lines and a last line without a terminator. -/
theorem exists_unterminated (text : List Char) :
    ∃ a line, text = a ++ line ∧ (∀ c ∈ a.getLast?, isBreak c = true) ∧
      ∀ c ∈ line, isBreak c = false := by
  refine ⟨text.rdropWhile (!isBreak ·), text.rtakeWhile (!isBreak ·), ?_, ?_, ?_⟩
  · exact List.rdropWhile_append_rtakeWhile.symm
  · intro c hc
    obtain ⟨hne, rfl⟩ := List.mem_getLast?_eq_getLast hc
    simpa using List.rdropWhile_last_not (!isBreak ·) text hne
  · intro c hc
    simpa using List.mem_rtakeWhile_imp hc

/-- A terminator at the very end starts no further line. -/
theorem lines_append_terminator {text t : List Char} (hne : text ≠ [])
    (hlast : ∀ c ∈ text.getLast?, ¬ EndsLine c) (ht : IsTerminator t) :
    lines (text ++ t) = lines text := by
  obtain ⟨a, line, rfl, ha, hline⟩ := exists_unterminated text
  have hn : line ≠ [] := by
    rintro rfl
    rw [List.append_nil] at hne hlast
    have hc := List.getLast?_eq_some_getLast hne
    exact hlast _ hc (isBreak_iff_endsLine.mp (ha _ hc))
  obtain ⟨d, ds, rfl⟩ := List.exists_cons_of_ne_nil hn
  have head (b : List Char) : following a (d :: ds ++ b) = d :: ds ++ b := by
    apply following_eq_self
    rintro _ ⟨⟩
    exact hline d List.mem_cons_self
  have alone : lines (d :: ds) = [d :: ds] := lines_of_isBreak_eq_false hline hn
  have ended : lines (d :: ds ++ t) = [d :: ds] := by
    have hd : dropBreak (t ++ []) = [] := ht.dropBreak_append (by simp)
    obtain ⟨c, rest, rfl, hc⟩ := ht.exists_cons
    rw [List.append_nil] at hd
    rw [lines_append_cons hline hc, hd, lines_nil]
  have hb := lines_append (d :: ds) ha
  rw [← List.append_nil (d :: ds), head [], List.append_nil, alone] at hb
  rw [List.append_assoc, lines_append _ ha, head t, ended, hb]

/-- A text has one decomposition, and its lines are those of the text. -/
theorem existsUnique_isDecomposition (text : List Char) :
    (∃ segments, IsDecomposition text segments ∧ segments.map Segment.line = lines text ∧
      ∀ others, IsDecomposition text others → others = segments) ∧
    (lines text = [] ↔ text = []) ∧
    (text ≠ [] → (∀ c ∈ text.getLast?, ¬ EndsLine c) → ∀ t, IsTerminator t →
      lines (text ++ t) = lines text) := by
  obtain ⟨segments, h, hlines⟩ := exists_isDecomposition text
  refine ⟨⟨segments, h, hlines, fun others ho => ho.unique h⟩, lines_eq_nil_iff, ?_⟩
  intro hne hlast t ht
  exact lines_append_terminator hne hlast ht

end LineLexer.Text
