import Mathlib
import LineLexer.Batch
import LineLexer.Proofs.Sequence.FirstFailure

/-!
How the threads of a pool go through the items. The items are divided by joins of two parts each. A
thread that comes to a join goes through the first part of it, and then through the second, unless
another thread has taken the second part over. A thread that comes upon a failure takes up nothing
more, while the others may go on or not.

Two threads can finish the items in any order. One thread alone has nobody to take a part over: it
does the items in their order, up to the first that fails.
-/

namespace LineLexer.ThreadPools

/-- A division of the places of the items. A part that is not divided further is gone through in its
order. -/
inductive Division
  | part (places : List Nat)
  | join (first second : Division)

def Division.places : Division → List Nat
  | part places => places
  | join first second => first.places ++ second.places

/-- Two lists put between one another, each of them in its order. -/
inductive Interleaved {α : Type} : List α → List α → List α → Prop
  | nil : Interleaved [] [] []
  | left (a : α) {xs ys zs : List α} (h : Interleaved xs ys zs) :
      Interleaved (a :: xs) ys (a :: zs)
  | right (a : α) {xs ys zs : List α} (h : Interleaved xs ys zs) :
      Interleaved xs (a :: ys) (a :: zs)

/-- The item at a place as the turn of a thread. -/
structure Turn (threads : Nat) where
  thread : Fin threads
  place : Nat

/-- The turns that threads can take, in the order in which they end, if some thread is given a
division. -/
inductive Goes {threads : Nat} : Fin threads → Division → List (Turn threads) → Prop
  | part (t : Fin threads) (places : List Nat) :
      Goes t (.part places) (places.map fun place => ⟨t, place⟩)
  | inTurn {t : Fin threads} {first second : Division} {xs ys : List (Turn threads)}
      (hf : Goes t first xs) (hs : Goes t second ys) : Goes t (.join first second) (xs ++ ys)
  | taken {t other : Fin threads} {first second : Division} {xs ys zs : List (Turn threads)}
      (ne : other ≠ t) (hf : Goes t first xs) (hs : Goes other second ys)
      (hz : Interleaved xs ys zs) : Goes t (.join first second) zs

section

variable {α β ε : Type}

/-- The item at a place fails. -/
def FailsAt (f : α → Except ε β) (items : List α) (place : Nat) (e : ε) : Prop :=
  ∃ item, items[place]? = some item ∧ f item = .error e

/-- Which items get done of the turns that are left, when some threads have come upon a failure.
These threads do nothing more; no turn is skipped before there is a failure. -/
inductive Done (f : α → Except ε β) (items : List α) {threads : Nat} :
    (failed : List (Fin threads)) → List (Turn threads) → (course : List Nat) → Prop
  | nil (failed : List (Fin threads)) : Done f items failed [] []
  | skipped {failed : List (Fin threads)} {turn : Turn threads} {turns : List (Turn threads)}
      {course : List Nat} (ne : failed ≠ []) (h : Done f items failed turns course) :
      Done f items failed (turn :: turns) course
  | succeeds {failed : List (Fin threads)} {turn : Turn threads} {turns : List (Turn threads)}
      {course : List Nat} (ht : turn.thread ∉ failed) (hs : ∀ e, ¬ FailsAt f items turn.place e)
      (h : Done f items failed turns course) :
      Done f items failed (turn :: turns) (turn.place :: course)
  | fails {failed : List (Fin threads)} {turn : Turn threads} {turns : List (Turn threads)}
      {course : List Nat} {e : ε} (ht : turn.thread ∉ failed) (hf : FailsAt f items turn.place e)
      (h : Done f items (turn.thread :: failed) turns course) :
      Done f items failed (turn :: turns) (turn.place :: course)

/-- A course on which the threads of a pool can get items done. -/
def IsCourse (threads : Nat) (f : α → Except ε β) (items : List α) (course : List Nat) : Prop :=
  ∃ (t : Fin threads) (division : Division) (turns : List (Turn threads)),
    division.places = List.range items.length ∧ Goes t division turns ∧
      Done f items [] turns course

end

/-! ### Turns -/

theorem Interleaved.perm {α : Type} {xs ys zs : List α} (h : Interleaved xs ys zs) :
    zs.Perm (xs ++ ys) := by
  induction h with
  | nil => exact .nil
  | left a _ ih => exact ih.cons a
  | right a _ ih => exact (ih.cons a).trans List.perm_middle.symm

theorem Goes.perm {threads : Nat} {t : Fin threads} {division : Division}
    {turns : List (Turn threads)} (h : Goes t division turns) :
    (turns.map Turn.place).Perm division.places := by
  induction h with
  | part t places =>
      rw [List.map_map]
      exact .of_eq (List.map_id places)
  | inTurn _ _ ihf ihs =>
      rw [List.map_append]
      exact ihf.append ihs
  | taken _ _ _ hz ihf ihs =>
      refine (hz.perm.map Turn.place).trans ?_
      rw [List.map_append]
      exact ihf.append ihs

/-- One thread alone takes its turns in the order of the places. -/
theorem Goes.eq_of_alone {t : Fin 1} {division : Division} {turns : List (Turn 1)}
    (h : Goes t division turns) : turns = division.places.map fun place => ⟨t, place⟩ := by
  induction h with
  | part t places => rfl
  | inTurn _ _ ihf ihs => rw [ihf, ihs, Division.places, List.map_append]
  | taken ne => exact absurd (Subsingleton.elim _ _) ne

theorem interleaved_singleton {α : Type} (a : α) (before behind : List α) :
    Interleaved [a] (before ++ behind) (before ++ a :: behind) := by
  induction before with
  | nil =>
      apply Interleaved.left a
      induction behind with
      | nil => exact .nil
      | cons b behind ih => exact ih.right b
  | cons b before ih => exact ih.right b

/-- With a second thread there is a division of the places for each order in which they can end. -/
theorem exists_goes {threads : Nat} (h : 2 ≤ threads) {places order : List Nat}
    (hp : order.Perm places) (t : Fin threads) :
    ∃ division turns, division.places = places ∧ Goes t division turns ∧
      turns.map Turn.place = order := by
  -- On the places: a thread does the first of them, and another one has taken over all others.
  induction places generalizing order t with
  | nil =>
      obtain rfl := List.Perm.eq_nil hp
      exact ⟨.part [], [], rfl, .part t [], rfl⟩
  | cons place places ih =>
      obtain ⟨before, behind, rfl⟩ := List.append_of_mem (hp.mem_iff.mpr List.mem_cons_self)
      have rest : (before ++ behind).Perm places :=
        (List.perm_cons place).mp (List.perm_middle.symm.trans hp)
      obtain ⟨other, ne⟩ : ∃ other, other ≠ t := by
        have : Nontrivial (Fin threads) := Fin.nontrivial_iff_two_le.mpr h
        exact exists_ne t
      obtain ⟨division, turns, hd, hg, ht⟩ := ih rest other
      obtain ⟨xs, ys, rfl, rfl, rfl⟩ := List.map_eq_append_iff.mp ht
      refine ⟨.join (.part [place]) division, xs ++ ⟨t, place⟩ :: ys, ?_, ?_, ?_⟩
      · rw [Division.places, hd]
        rfl
      · exact .taken ne (.part t [place]) hg (interleaved_singleton _ xs ys)
      · rw [List.map_append, List.map_cons]

/-! ### Courses -/

section

variable {α β ε : Type} {f : α → Except ε β} {items : List α} {course : List Nat}

theorem Done.sublist {threads : Nat} {failed : List (Fin threads)} {turns : List (Turn threads)}
    (h : Done f items failed turns course) : course.Sublist (turns.map Turn.place) := by
  induction h with
  | nil => exact .slnil
  | skipped _ _ ih => exact ih.cons _
  | succeeds _ _ _ ih | fails _ _ _ ih => exact ih.cons_cons _

/-- Without a failure no turn is skipped. -/
theorem Done.eq_of_forall {threads : Nat} {turns : List (Turn threads)}
    (h : Done f items [] turns course) (hs : ∀ place ∈ course, ∀ e, ¬ FailsAt f items place e) :
    course = turns.map Turn.place := by
  induction turns generalizing course with
  | nil =>
      cases h
      rfl
  | cons turn turns ih =>
      cases h with
      | skipped ne => exact absurd rfl ne
      | succeeds _ _ h => rw [List.map_cons, ← ih h (List.forall_mem_cons.mp hs).2]
      | fails _ hf => exact absurd hf (hs _ List.mem_cons_self _)

theorem Done.eq_nil {threads : Nat} {failed : List (Fin threads)} {turns : List (Turn threads)}
    (h : Done f items failed turns course) (hf : ∀ turn ∈ turns, turn.thread ∈ failed) :
    course = [] := by
  induction h with
  | nil => rfl
  | skipped _ _ ih => exact ih (List.forall_mem_cons.mp hf).2
  | succeeds ht | fails ht => exact absurd (hf _ List.mem_cons_self) ht

/-- A thread that takes all turns from the first place to the last does nothing after a failure. -/
theorem Done.not_failsAt_of_lt {threads : Nat} {t : Fin threads} {places : List Nat}
    (h : Done f items [] (places.map fun place => ⟨t, place⟩) course)
    (sorted : places.Pairwise (· < ·)) {place other : Nat} {e : ε} (hp : place ∈ course)
    (hf : FailsAt f items place e) (ho : other ∈ places) (hlt : other < place) (e' : ε) :
    ¬ FailsAt f items other e' := by
  induction places generalizing course with
  | nil => cases ho
  | cons first places ih =>
      obtain ⟨hfirst, sorted⟩ := List.pairwise_cons.mp sorted
      cases h with
      | skipped ne => exact absurd rfl ne
      | succeeds _ hs h =>
          cases hp with
          | head => exact absurd hf (hs e)
          | tail _ hp =>
              cases ho with
              | head => exact hs e'
              | tail _ ho => exact ih h sorted hp ho
      | fails _ _ h =>
          obtain rfl := h.eq_nil (by simp)
          obtain rfl := List.mem_singleton.mp hp
          cases ho with
          | head => exact absurd hlt (Nat.lt_irrefl _)
          | tail _ ho => exact absurd (hfirst other ho) (Nat.lt_asymm hlt)

theorem exists_done {threads : Nat} (f : α → Except ε β) (items : List α)
    (failed : List (Fin threads)) (turns : List (Turn threads)) :
    ∃ course, Done f items failed turns course := by
  induction turns generalizing failed with
  | nil => exact ⟨[], .nil failed⟩
  | cons turn turns ih =>
      by_cases hn : failed = []
      · subst hn
        by_cases hf : ∃ e, FailsAt f items turn.place e
        · obtain ⟨e, hf⟩ := hf
          obtain ⟨course, h⟩ := ih [turn.thread]
          exact ⟨_, .fails List.not_mem_nil hf h⟩
        · obtain ⟨course, h⟩ := ih []
          exact ⟨_, .succeeds List.not_mem_nil (not_exists.mp hf) h⟩
      · obtain ⟨course, h⟩ := ih failed
        exact ⟨course, .skipped hn h⟩

/-- There is a course for any items and any pool. -/
theorem exists_isCourse {threads : Nat} (h : 0 < threads) (f : α → Except ε β) (items : List α) :
    ∃ course, IsCourse threads f items course := by
  have alone := Goes.part ⟨0, h⟩ (List.range items.length)
  obtain ⟨course, hd⟩ := exists_done f items [] _
  exact ⟨course, _, _, _, rfl, alone, hd⟩

/-- If nothing fails, then two threads or more may get the items done in any order. -/
theorem isCourse_of_perm {threads : Nat} (h : 2 ≤ threads)
    (hp : course.Perm (List.range items.length)) (hs : ∀ item ∈ items, ∃ b, f item = .ok b) :
    IsCourse threads f items course := by
  obtain ⟨division, turns, hd, hg, rfl⟩ := exists_goes h hp ⟨0, by omega⟩
  obtain ⟨course, done⟩ := exists_done f items [] turns
  have all := done.eq_of_forall fun place _ e ⟨item, hi, he⟩ => by
    obtain ⟨b, hb⟩ := hs item (List.mem_of_getElem? hi)
    cases hb.symm.trans he
  exact ⟨_, division, turns, hd, hg, all ▸ done⟩

namespace IsCourse

variable {threads : Nat}

theorem nodup (h : IsCourse threads f items course) : course.Nodup := by
  obtain ⟨_, _, _, hp, hg, hd⟩ := h
  exact hd.sublist.nodup (hg.perm.nodup_iff.mpr (hp ▸ List.nodup_range))

theorem lt_length (h : IsCourse threads f items course) :
    ∀ place ∈ course, place < items.length := by
  obtain ⟨_, _, _, hp, hg, hd⟩ := h
  intro place hm
  have placed := hg.perm.mem_iff.mp (hd.sublist.subset hm)
  rwa [hp, List.mem_range] at placed

/-- A pool gives up only on a failure. -/
theorem complete (h : IsCourse threads f items course)
    (hs : ∀ place ∈ course, ∀ e, ¬ FailsAt f items place e) :
    ∀ place < items.length, place ∈ course := by
  obtain ⟨_, _, _, hp, hg, hd⟩ := h
  intro place hlt
  rw [hd.eq_of_forall hs, hg.perm.mem_iff, hp]
  exact List.mem_range.mpr hlt

end IsCourse

theorem exists_failsAt {item : α} {e : ε} (hm : item ∈ items) (he : f item = .error e) :
    ∃ place < items.length, FailsAt f items place e := by
  obtain ⟨place, hlt, rfl⟩ := List.mem_iff_getElem.mp hm
  exact ⟨place, hlt, items[place], List.getElem?_eq_getElem hlt, he⟩

/-- If an item fails then one fails that gets done. -/
theorem IsCourse.exists_failsAt {threads : Nat} (h : IsCourse threads f items course) {item : α}
    {e : ε} (hm : item ∈ items) (he : f item = .error e) :
    ∃ place ∈ course, ∃ e, FailsAt f items place e := by
  obtain ⟨place, hlt, hf⟩ := ThreadPools.exists_failsAt hm he
  by_contra hn
  simp only [not_exists, not_and] at hn
  exact hn place (h.complete hn place hlt) e hf

section

variable {before behind : List α} {item : α} {place : Nat} {e : ε}

theorem failsAt_length_iff :
    FailsAt f (before ++ item :: behind) before.length e ↔ f item = .error e := by
  simp [FailsAt]

/-- What stands in front of the first failure does not fail. -/
theorem FailsAt.length_le (h : FailsAt f (before ++ item :: behind) place e)
    (hb : ∀ other ∈ before, ∃ b, f other = .ok b) : before.length ≤ place := by
  obtain ⟨other, ho, he⟩ := h
  by_contra hlt
  rw [List.getElem?_append_left (by omega)] at ho
  obtain ⟨b, hok⟩ := hb other (List.mem_of_getElem? ho)
  cases hok.symm.trans he

end

/-- One thread alone fails with the first failure in the order of the items. -/
theorem IsCourse.eq_of_alone (h : IsCourse 1 f items course) {item : α} {e e' : ε} {place : Nat}
    (hfirst : FailsFirst f items item e) (hp : place ∈ course) (hf : FailsAt f items place e') :
    e' = e := by
  have hlt := h.lt_length place hp
  obtain ⟨t, division, turns, hd, hg, done⟩ := h
  obtain ⟨⟨before, behind, rfl, hb⟩, fails⟩ := hfirst
  -- nothing in front of the place fails, and nothing in front of the first failure does
  have stops : FailsAt f (before ++ item :: behind) before.length e :=
    failsAt_length_iff.mpr fails
  have hge := hf.length_le hb
  have hle : place ≤ before.length := by
    by_contra hn
    rw [hg.eq_of_alone, hd] at done
    refine done.not_failsAt_of_lt List.pairwise_lt_range hp hf ?_ (Nat.lt_of_not_le hn) e stops
    exact List.mem_range.mpr (by omega)
  obtain rfl : place = before.length := by omega
  exact Except.error.inj ((failsAt_length_iff.mp hf).symm.trans fails)

end

end LineLexer.ThreadPools
