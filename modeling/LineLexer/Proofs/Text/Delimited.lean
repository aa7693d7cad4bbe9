import Mathlib

/-!
Texts in front of a delimiter. A character that does not occur in a text shows where the text ends,
whatever is written behind. So numbers end with the first character that is no digit, lines with
their line feeds and padded texts with the last character that is no padding.
-/

namespace LineLexer.Text

section

variable {c : Char} {a b s t : List Char}

/-- The first delimiter tells the text in front of it from what is behind. -/
theorem append_cons_inj (ha : c ∉ a) (hb : c ∉ b) (h : a ++ c :: s = b ++ c :: t) :
    a = b ∧ s = t := by
  induction a generalizing b with
  | nil =>
      cases b with
      | nil => exact ⟨rfl, (List.cons.inj h).2⟩
      | cons d b => exact absurd ((List.cons.inj h).1 ▸ List.mem_cons_self) hb
  | cons d a ih =>
      cases b with
      | nil => exact absurd ((List.cons.inj h).1 ▸ List.mem_cons_self) ha
      | cons e b =>
          obtain ⟨rfl, htail⟩ := List.cons.inj h
          obtain ⟨rfl, rfl⟩ := ih (List.not_mem_of_not_mem_cons ha)
            (List.not_mem_of_not_mem_cons hb) htail
          exact ⟨rfl, rfl⟩

/-- The last delimiter does so as well. -/
theorem append_cons_inj_last (hs : c ∉ s) (ht : c ∉ t) (h : a ++ c :: s = b ++ c :: t) :
    a = b ∧ s = t := by
  have backwards := congrArg List.reverse h
  simp only [List.reverse_append, List.reverse_cons, List.append_assoc, List.singleton_append]
    at backwards
  obtain ⟨hst, hab⟩ := append_cons_inj (List.mem_reverse.not.mpr hs) (List.mem_reverse.not.mpr ht)
    backwards
  exact ⟨List.reverse_injective hab, List.reverse_injective hst⟩

/-- Padding hides no end that is none of its own characters. -/
theorem padded_inj {p : Char} {m n : Nat} (hc : c ≠ p)
    (h : a ++ c :: List.replicate m p = b ++ c :: List.replicate n p) : a = b :=
  (append_cons_inj_last (fun hm => hc (List.eq_of_mem_replicate hm))
    (fun hm => hc (List.eq_of_mem_replicate hm)) h).1

theorem notMem_toString (n : Nat) (hc : c.isDigit = false) : c ∉ (toString n).toList := by
  rw [Nat.toString_eq_repr, Nat.toList_repr]
  intro h
  rw [Nat.isDigit_of_mem_toDigits (by decide) (by decide) h] at hc
  cases hc

/-- A number ends with the first character that is no digit. -/
theorem toString_append_cons_inj {m n : Nat} (hc : c.isDigit = false)
    (h : (toString m).toList ++ c :: s = (toString n).toList ++ c :: t) : m = n ∧ s = t := by
  obtain ⟨hmn, hst⟩ := append_cons_inj (notMem_toString m hc) (notMem_toString n hc) h
  exact ⟨Nat.repr_injective (String.toList_inj.mp hmn), hst⟩

end

/-- Lines that hold no line feed are told apart by what is written, hence so is all that each of
them tells apart. -/
theorem map_eq_of_join_lineFeed {α β : Type} {P : α → Prop} {line : α → String} {told : α → β}
    (hline : ∀ {a}, P a → '\n' ∉ (line a).toList)
    (htold : ∀ {a b}, P a → P b → line a = line b → told a = told b) {as bs : List α}
    (ha : ∀ a ∈ as, P a) (hb : ∀ b ∈ bs, P b)
    (h : String.join (as.map (line · ++ "\n")) = String.join (bs.map (line · ++ "\n"))) :
    as.map told = bs.map told := by
  have joined (cs : List α) : (String.join (cs.map (line · ++ "\n"))).toList =
      cs.flatMap fun c => (line c).toList ++ ['\n'] := by
    rw [String.toList_join, List.flatMap_map]
    simp only [String.toList_append]
    rfl
  rw [← String.toList_inj, joined, joined] at h
  induction as generalizing bs with
  | nil =>
      cases bs with
      | nil => rfl
      | cons b bs => simp at h
  | cons a as ih =>
      cases bs with
      | nil => simp at h
      | cons b bs =>
          rw [List.forall_mem_cons] at ha hb
          simp only [List.flatMap_cons, List.append_assoc, List.singleton_append] at h
          obtain ⟨hab, hrest⟩ := append_cons_inj (hline ha.1) (hline hb.1) h
          rw [List.map_cons, List.map_cons, htold ha.1 hb.1 (String.toList_inj.mp hab),
            ih ha.2 hb.2 hrest]

end LineLexer.Text
