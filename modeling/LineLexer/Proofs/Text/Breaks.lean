import LineLexer.Text.Line

/-!
What stands between the lines of a text: characters that end a line, and nothing else.
-/

namespace LineLexer.Text

theorem exists_dropBreak {cs : List Char} (h : ∀ c ∈ cs.head?, isBreak c = true) :
    ∃ b, (∀ c ∈ b, isBreak c = true) ∧ b ++ dropBreak cs = cs := by
  fun_cases dropBreak cs with
  | case1 rest =>
      refine ⟨['\r', '\n'], ?_, rfl⟩
      simp [isBreak]
  | case2 c rest =>
      refine ⟨[c], ?_, rfl⟩
      intro d hd
      obtain rfl := List.mem_singleton.mp hd
      exact h d rfl
  | case3 => exact ⟨[], by simp, rfl⟩

/-- A line ends in front of a break. -/
theorem isBreak_of_mem_head?_dropWhile {text : List Char} {c : Char}
    (h : c ∈ (text.dropWhile (!isBreak ·)).head?) : isBreak c = true := by
  have := List.head?_dropWhile_not (!isBreak ·) text
  rw [Option.mem_def.mp h] at this
  simpa using this

/-- The lines and what stands between them make up the whole text. -/
theorem exists_breaks (text : List Char) :
    ∃ breaks : List (List Char), breaks.length = (lines text).length ∧
      (∀ b ∈ breaks, ∀ c ∈ b, isBreak c = true) ∧
      (List.zipWith (· ++ ·) (lines text) breaks).flatten = text := by
  fun_induction lines text with
  | case1 => exact ⟨[], rfl, by simp, rfl⟩
  | case2 c cs ih =>
      obtain ⟨breaks, hl, hb, ht⟩ := ih
      obtain ⟨b, hbreak, hdrop⟩ := exists_dropBreak fun d (hd : d ∈ _) =>
        isBreak_of_mem_head?_dropWhile hd
      refine ⟨b :: breaks, ?_, ?_, ?_⟩
      · simp [hl]
      · rw [List.forall_mem_cons]
        constructor
        · exact hbreak
        · exact hb
      · calc (List.zipWith (· ++ ·) (firstLine (c :: cs) :: lines (afterLine (c :: cs)))
                (b :: breaks)).flatten
            = firstLine (c :: cs) ++ (b ++ afterLine (c :: cs)) := by
              rw [List.zipWith_cons_cons, List.flatten_cons, ht, List.append_assoc]
          _ = c :: cs := by
              rw [afterLine, hdrop, firstLine, List.takeWhile_append_dropWhile]

end LineLexer.Text
