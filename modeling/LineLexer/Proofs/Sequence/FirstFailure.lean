/-!
Steps taken one after the other. What a sequence of steps fails with is the failure of its first
step that fails, whatever stands behind that step.
-/

namespace LineLexer

section

variable {α β ε : Type} {f : α → Except ε β} {a item : α} {items : List α} {e : ε}

/-- Of the items, the first on which `f` fails, and how it fails there. -/
structure FailsFirst (f : α → Except ε β) (items : List α) (item : α) (e : ε) : Prop where
  splits : ∃ before behind,
    items = before ++ item :: behind ∧ ∀ other ∈ before, ∃ b, f other = .ok b
  fails : f item = .error e

namespace FailsFirst

theorem mem (h : FailsFirst f items item e) : item ∈ items := by
  obtain ⟨before, behind, rfl, _⟩ := h.splits
  exact List.mem_append_right before List.mem_cons_self

theorem head (ha : f a = .error e) : FailsFirst f (a :: items) a e where
  splits := ⟨[], items, rfl, List.forall_mem_nil _⟩
  fails := ha

theorem tail {b : β} (ha : f a = .ok b) (h : FailsFirst f items item e) :
    FailsFirst f (a :: items) item e where
  splits := by
    obtain ⟨before, behind, rfl, hb⟩ := h.splits
    refine ⟨a :: before, behind, rfl, ?_⟩
    intro other ho
    cases ho with
    | head => exact ⟨b, ha⟩
    | tail _ ho => exact hb other ho
  fails := h.fails

theorem of_mem (hm : item ∈ items) (hi : f item = .error e) :
    ∃ first e, FailsFirst f items first e := by
  induction items with
  | nil => cases hm
  | cons a items ih =>
      cases ha : f a with
      | error e => exact ⟨a, e, head ha⟩
      | ok b =>
          cases hm with
          | head => cases hi.symm.trans ha
          | tail _ hm =>
              obtain ⟨first, e, h⟩ := ih hm
              exact ⟨first, e, h.tail ha⟩

/-- A sequence of steps fails as its first failing step does. -/
theorem mapM_eq (h : FailsFirst f items item e) : items.mapM f = .error e := by
  obtain ⟨⟨before, behind, rfl, hb⟩, fails⟩ := h
  induction before with
  | nil =>
      rw [List.nil_append, List.mapM_cons, fails]
      rfl
  | cons a before ih =>
      obtain ⟨⟨b, ha⟩, hb⟩ := List.forall_mem_cons.mp hb
      rw [List.cons_append, List.mapM_cons, ha, ih hb]
      rfl

end FailsFirst
end

end LineLexer
