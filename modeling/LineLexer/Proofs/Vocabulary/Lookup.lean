import Mathlib
import LineLexer.Vocabulary

/-!
Looking up a word. Capitals take as many bytes as small letters, so the bound on the length of a
lexeme never hides an entry of the table, and a lookup is exactly membership up to capitals.
-/

namespace LineLexer.Vocabulary

theorem utf8Size_toUpper (c : Char) : c.toUpper.utf8Size = c.utf8Size := by
  by_cases h : 'a'.val ≤ c.val ∧ c.val ≤ 'z'.val
  · have hl : c.val ≤ 127 := UInt32.le_trans h.2 (by decide)
    have hu : c.val + ('A'.val - 'a'.val) ≤ 127 := by
      simp only [UInt32.le_iff_toNat_le, UInt32.toNat_add] at h ⊢
      change 97 ≤ c.val.toNat ∧ c.val.toNat ≤ 122 at h
      change (c.val.toNat + 4294967264) % 4294967296 ≤ 127
      omega
    rw [Char.utf8Size_eq_one_iff.mpr hl, Char.utf8Size_eq_one_iff, Char.toUpper, dif_pos h]
    exact hu
  · rw [Char.toUpper, dif_neg h]

theorem utf8ByteSize_toUpper (s : String) : s.toUpper.utf8ByteSize = s.utf8ByteSize := by
  have len (cs : List Char) : String.utf8Len (cs.map Char.toUpper) = String.utf8Len cs := by
    induction cs with
    | nil => rfl
    | cons c cs ih =>
        rw [List.map_cons, String.utf8Len_cons, String.utf8Len_cons, ih, utf8Size_toUpper]
  rw [← String.utf8Len_toList, ← String.utf8Len_toList, String.toUpper, String.toList_map, len]

theorem lookup_table_eq_some_iff {v : Vocabulary} {spelling : String} {k : Keyword} :
    v.table.lookup spelling = some k ↔ k ∈ v.reserved ∧ k.spelling = spelling := by
  rw [table_eq]
  induction v.reserved with
  | nil => simp
  | cons j words ih =>
      rw [List.map_cons]
      by_cases h : spelling = j.spelling
      · subst h
        rw [List.lookup_cons_self, Option.some_inj, List.mem_cons]
        constructor
        · rintro rfl
          exact ⟨.inl rfl, rfl⟩
        · exact fun hk => (Keyword.spelling_injective hk.2).symm
      · rw [List.lookup_cons, beq_false_of_ne h, ih, List.mem_cons]
        have other (hk : k.spelling = spelling) : k ≠ j := by
          rintro rfl
          exact h hk.symm
        constructor
        · exact fun hk => ⟨.inr hk.1, hk.2⟩
        · exact fun hk => ⟨hk.1.resolve_left (other hk.2), hk.2⟩

/-- The bound on the length passes over no entry of the table. -/
theorem lookup?_eq_lookup_table (v : Vocabulary) (lexeme : String) :
    v.lookup? lexeme = v.table.lookup lexeme.toUpper := by
  by_cases h : lexeme.utf8ByteSize > longest
  · rw [lookup?, if_pos h]
    symm
    rw [Option.eq_none_iff_forall_ne_some]
    intro k hk
    have short := utf8ByteSize_spelling_le k
    rw [(lookup_table_eq_some_iff.mp hk).2, utf8ByteSize_toUpper] at short
    exact Nat.not_lt.mpr short h
  · rw [lookup?, if_neg h]

theorem lookup?_eq_some_iff {v : Vocabulary} {lexeme : String} {k : Keyword} :
    v.lookup? lexeme = some k ↔ k ∈ v.reserved ∧ k.spelling = lexeme.toUpper := by
  rw [lookup?_eq_lookup_table, lookup_table_eq_some_iff]

theorem classify_eq_keyword_iff {v : Vocabulary} {lexeme : String} {k : Keyword} :
    v.classify lexeme = .keyword k ↔ k ∈ v.reserved ∧ k.spelling = lexeme.toUpper := by
  rw [← lookup?_eq_some_iff, classify]
  cases v.lookup? lexeme <;> simp

theorem classify_eq_identifier_iff {v : Vocabulary} {lexeme : String} :
    v.classify lexeme = .identifier ↔ ∀ k ∈ v.reserved, k.spelling ≠ lexeme.toUpper := by
  have none_iff : v.lookup? lexeme = none ↔ ∀ k ∈ v.reserved, k.spelling ≠ lexeme.toUpper := by
    simp only [Option.eq_none_iff_forall_ne_some, ne_eq, lookup?_eq_some_iff, not_and]
  rw [← none_iff, classify]
  cases v.lookup? lexeme <;> simp

end LineLexer.Vocabulary
