import LineLexer.Proofs.Text.LetterCase

/-!
The reserved words as a list in small letters. The list is strictly ascending, a word is looked up
with success exactly if its small letters are on the list, and a later vocabulary resolves whatever
an earlier one does.
-/

namespace LineLexer

theorem Keyword.toUpper_spelling (k : Keyword) : k.spelling.toUpper = k.spelling := by
  cases k <;> decide +kernel

/-- To compare a spelling with the capitals of a word is to compare the small letters of both. -/
theorem Keyword.spelling_eq_toUpper_iff {k : Keyword} {word : String} :
    k.spelling = word.toUpper ↔ k.spelling.toLower = word.toLower := by
  constructor
  · intro h
    rw [h, Text.toLower_toUpper]
  · intro h
    rw [← k.toUpper_spelling, ← Text.toUpper_toLower, h, Text.toUpper_toLower]

namespace Vocabulary

theorem mem_words_iff {v : Vocabulary} {word : String} :
    word ∈ v.words ↔ ∃ k ∈ v.reserved, k.spelling.toLower = word := by
  rw [words, List.mem_mergeSort, table_eq, List.map_map, List.mem_map]
  rfl

theorem isSome_lookup?_iff {v : Vocabulary} {word : String} :
    (v.lookup? word).isSome = true ↔ word.toLower ∈ v.words := by
  rw [Option.isSome_iff_exists, mem_words_iff]
  apply exists_congr
  intro k
  rw [lookup?_eq_some_iff, Keyword.spelling_eq_toUpper_iff]

/-- The words are in ascending order, and none of them occurs twice. -/
theorem pairwise_words (v : Vocabulary) : v.words.Pairwise (· < ·) := by
  have sorted : v.words.Pairwise (· ≤ ·) := List.pairwise_mergeSort' _ _
  have apart : (v.table.map (·.1.toLower)).Nodup := by cases v <;> decide +kernel
  have distinct : v.words.Nodup := (List.mergeSort_perm _ _).nodup_iff.mpr apart
  exact (sorted.and distinct).imp fun h => lt_of_le_of_ne h.1 h.2

theorem exists_lookup?_of_mem_words {v : Vocabulary} {word : String} (h : word ∈ v.words) :
    ∃ k, v.lookup? word = some k := by
  obtain ⟨k, _, rfl⟩ := mem_words_iff.mp h
  rw [← Option.isSome_iff_exists, isSome_lookup?_iff, ← Text.toLower_toUpper,
    Text.toUpper_toLower, k.toUpper_spelling]
  exact h

theorem reserved_subset_extended (v : Vocabulary) : v.reserved ⊆ extended.reserved := by
  cases v with
  | initial => exact List.subset_append_left _ _
  | extended => exact List.Subset.refl _

/-- A look-up is a search in the table up to capitals, for words of any length and any characters,
and its successes are the words on the list. -/
theorem lookup?_exact (v : Vocabulary) :
    (∀ word kind, (v.lookup? word).map .keyword = some kind ↔
        (∃ k ∈ v.reserved, kind = Token.Kind.keyword k) ∧ kind.name = word.toUpper) ∧
      (∀ word, (v.lookup? word).isSome = true ↔ word.toLower ∈ v.words) ∧
      (∀ word, v.lookup? word = v.table.lookup word.toUpper) ∧
      v.words.Pairwise (· < ·) ∧
      (∀ word ∈ v.words, ∃ k, v.lookup? word = some k) ∧
      ∀ word k, initial.lookup? word = some k → extended.lookup? word = some k := by
  refine ⟨?_, fun _ => isSome_lookup?_iff, v.lookup?_eq_lookup_table, v.pairwise_words,
    fun _ => exists_lookup?_of_mem_words, ?_⟩
  · intro word kind
    rw [Option.map_eq_some_iff]
    constructor
    · rintro ⟨k, hk, rfl⟩
      obtain ⟨hr, hs⟩ := lookup?_eq_some_iff.mp hk
      exact ⟨⟨k, hr, rfl⟩, hs⟩
    · rintro ⟨⟨k, hr, rfl⟩, hs⟩
      exact ⟨k, lookup?_eq_some_iff.mpr ⟨hr, hs⟩, rfl⟩
  · intro word k h
    obtain ⟨hr, hs⟩ := lookup?_eq_some_iff.mp h
    exact lookup?_eq_some_iff.mpr ⟨initial.reserved_subset_extended hr, hs⟩

/-- The capital of a dotless i is a letter of ASCII, but not among its own capitals. -/
theorem lookup?_exact_dotless :
    "for" ∈ initial.words ∧ (∃ k, initial.lookup? "for" = some k) ∧
      initial.lookup? "FoR" = some .for_ ∧ extended.lookup? "FoR" = some .for_ ∧
      extended.lookup? "\u0131f" = none := by
  have listed : "for" ∈ initial.words :=
    mem_words_iff.mpr ⟨.for_, by decide, by decide +kernel⟩
  have resolved : initial.lookup? "FoR" = some .for_ := by decide +kernel
  have searched := (lookup?_exact extended).2.2.1 "\u0131f"
  exact ⟨listed, (lookup?_exact initial).2.2.2.2.1 _ listed, resolved,
    (lookup?_exact initial).2.2.2.2.2 _ _ resolved, searched.trans (by decide +kernel)⟩

end Vocabulary
end LineLexer
