import Mathlib
import LineLexer.Proofs.Batch.Course
import LineLexer.Proofs.Scan.Loop

/-!
Scanning on a pool of threads against scanning one source after the other. Of the library it is
asked that a pool can be built, that results come in the order of the items and that a failure is
that of some item which was done. Whatever the course of the threads, a batch then gives the reports
of the sources in their order, or the failure of one of them.
-/

namespace LineLexer

namespace ThreadPools

/-- What a batch relies on: pools of a thread or more can be built, values come in the order of the
items, and a failure is that of some item that got done. Which of several it is, is left open. -/
structure Lawful (lib : ThreadPools) : Prop where
  build : ∀ threads, 0 < threads → ∃ pool, lib.build threads = .ok pool
  collect_ok : ∀ {α β ε : Type} {threads : Nat} {pool : lib.Pool} {f : α → Except ε β}
    {items : List α} {course : List Nat} {values : List β}, lib.build threads = .ok pool →
    IsCourse threads f items course → List.Forall₂ (fun item b => f item = .ok b) items values →
    lib.collect pool course f items = .ok values
  collect_error : ∀ {α β ε : Type} {threads : Nat} {pool : lib.Pool} {f : α → Except ε β}
    {items : List α} {course : List Nat}, lib.build threads = .ok pool →
    IsCourse threads f items course → (∃ place ∈ course, ∃ e, FailsAt f items place e) →
    ∃ place ∈ course, ∃ e, FailsAt f items place e ∧ lib.collect pool course f items = .error e

/-! ### Slots -/

section

variable {α β ε : Type} {f : α → Except ε β} {items : List α}

/-- The slots of the values, of which those at the given places are filled. -/
def slotsAt (values : List β) (places : List Nat) : List (Option β) :=
  values.mapIdx fun place b => if place ∈ places then some b else none

theorem slotsAt_nil (values : List β) : slotsAt values [] = List.replicate values.length none := by
  apply List.ext_getElem
  · simp [slotsAt]
  · simp [slotsAt]

theorem slotsAt_all {values : List β} {places : List Nat}
    (h : ∀ place < values.length, place ∈ places) : slotsAt values places = values.map some := by
  apply List.ext_getElem
  · simp [slotsAt]
  · intro place hlt _
    have hm := h place (by simpa [slotsAt] using hlt)
    simp [slotsAt, hm]

theorem set_slotsAt {values : List β} {places : List Nat} {place : Nat} {b : β}
    (hb : values[place]? = some b) :
    (slotsAt values places).set place (some b) = slotsAt values (place :: places) := by
  obtain ⟨hlt, rfl⟩ := List.getElem?_eq_some_iff.mp hb
  apply List.ext_getElem?
  intro other
  simp only [List.getElem?_set, slotsAt, List.getElem?_mapIdx, List.length_mapIdx, List.mem_cons]
  by_cases hne : place = other
  · subst hne
    simp [hlt]
  · simp [hne, Ne.symm hne]

/-- One more item that gets done fills the slot of its place and no other. -/
theorem fillSlot_slotsAt {values : List β}
    (h : List.Forall₂ (fun item b => f item = .ok b) items values) (places : List Nat) {place : Nat}
    (hp : place < items.length) :
    fillSlot f items (slotsAt values places) place = .ok (slotsAt values (place :: places)) := by
  have hv : place < values.length := h.length_eq ▸ hp
  have hf : f items[place] = .ok values[place] := h.get hp hv
  rw [fillSlot, List.getElem?_eq_getElem hp]
  simp only [hf, Except.map]
  rw [set_slotsAt (List.getElem?_eq_getElem hv)]

theorem foldlM_fillSlot {values : List β}
    (h : List.Forall₂ (fun item b => f item = .ok b) items values) {course : List Nat}
    (hc : ∀ place ∈ course, place < items.length) (places : List Nat) :
    course.foldlM (fillSlot f items) (slotsAt values places) =
      .ok (slotsAt values (course.reverse ++ places)) := by
  induction course generalizing places with
  | nil => rfl
  | cons place course ih =>
      obtain ⟨hp, hc⟩ := List.forall_mem_cons.mp hc
      rw [List.foldlM_cons, fillSlot_slotsAt h places hp]
      refine (ih hc (place :: places)).trans ?_
      rw [List.reverse_cons, List.append_assoc, List.singleton_append]

theorem foldlM_fillSlot_error {course : List Nat}
    (h : ∃ place ∈ course, ∃ e, FailsAt f items place e) (slots : List (Option β)) :
    ∃ place ∈ course, ∃ e, FailsAt f items place e ∧
      course.foldlM (fillSlot f items) slots = .error e := by
  induction course generalizing slots with
  | nil => simp at h
  | cons place course ih =>
      rw [List.foldlM_cons]
      by_cases hf : ∃ e, FailsAt f items place e
      · obtain ⟨e, item, hi, he⟩ := hf
        refine ⟨place, List.mem_cons_self, e, ⟨item, hi, he⟩, ?_⟩
        rw [fillSlot, hi]
        simp only [he]
        rfl
      · obtain ⟨next, hn⟩ : ∃ next, fillSlot f items slots place = .ok next := by
          rw [fillSlot]
          cases hi : items[place]? with
          | none => exact ⟨slots, rfl⟩
          | some item =>
              cases he : f item with
              | error e => exact absurd ⟨e, item, hi, he⟩ hf
              | ok b => exact ⟨slots.set place (some b), by simp only [he, Except.map]⟩
        obtain ⟨other, ho, e, he⟩ := h
        have behind : ∃ place ∈ course, ∃ e, FailsAt f items place e := by
          rcases List.mem_cons.mp ho with rfl | ho
          · exact absurd ⟨e, he⟩ hf
          · exact ⟨other, ho, e, he⟩
        obtain ⟨last, hl, e, he, hr⟩ := ih behind next
        rw [hn]
        exact ⟨last, List.mem_cons_of_mem place hl, e, he, hr⟩

/-- Slots keep the order of the items on every course. -/
theorem lawful_slotted : slotted.Lawful where
  build _ _ := ⟨(), rfl⟩
  collect_ok := by
    intro α β ε _ _ f items course values _ hc h
    have all : ∀ place < values.length, place ∈ course.reverse ++ [] := by
      intro place hp
      rw [List.append_nil, List.mem_reverse]
      refine hc.complete ?_ place (h.length_eq ▸ hp)
      rintro other _ e ⟨item, hi, he⟩
      obtain ⟨hlt, rfl⟩ := List.getElem?_eq_some_iff.mp hi
      cases he.symm.trans (h.get hlt (h.length_eq ▸ hlt))
    have run := foldlM_fillSlot h hc.lt_length []
    rw [slotsAt_nil, slotsAt_all all, ← h.length_eq] at run
    simp only [slotted, run]
    change Except.ok ((values.map some).filterMap id) = .ok values
    rw [List.filterMap_map, Function.id_comp, List.filterMap_some]
  collect_error := by
    intro α β ε _ _ f items course _ hc h
    obtain ⟨place, hp, e, he, hr⟩ := foldlM_fillSlot_error h (List.replicate items.length none)
    refine ⟨place, hp, e, he, ?_⟩
    simp only [slotted, hr]
    rfl

end

end ThreadPools

/-! ### Batches -/

theorem exists_reports {o : Options} {sources : List String}
    (h : ∀ s ∈ sources, ∃ r, scan o s = .ok r) :
    ∃ reports, List.Forall₂ (fun s r => scan o s = .ok r) sources reports := by
  induction sources with
  | nil => exact ⟨[], .nil⟩
  | cons s sources ih =>
      obtain ⟨⟨r, hr⟩, h⟩ := List.forall_mem_cons.mp h
      obtain ⟨reports, hs⟩ := ih h
      exact ⟨r :: reports, .cons hr hs⟩

theorem scanAll_of_forall₂ {o : Options} {sources : List String} {reports : List Report}
    (h : List.Forall₂ (fun s r => scan o s = .ok r) sources reports) :
    scanAll o sources = .ok reports := by
  induction h with
  | nil => rfl
  | cons hr _ ih =>
      rw [scanAll] at ih ⊢
      rw [List.mapM_cons, hr, ih]
      rfl

section

variable {lib : ThreadPools} {course : List Nat} {o : Options} {maxParallelism : Nat}
  {sources : List String}

/-- Without a pool, sources are scanned as they are one after the other. -/
theorem scanMany_of_length_le (h : sources.length ≤ 1) :
    scanMany lib course o maxParallelism sources = scanAll o sources := by
  cases sources with
  | nil => rfl
  | cons s sources =>
      obtain rfl : sources = [] := List.length_eq_zero_iff.mp (by simpa using h)
      rw [scanMany, scanAll, List.mapM_cons]
      cases scan o s <;> rfl

/-- More than one source is handed to a pool. -/
theorem exists_pool_of_scanMany (hl : lib.Lawful) (h : 1 < sources.length) :
    ∃ pool, lib.build (threadCount maxParallelism sources.length) = .ok pool ∧
      scanMany lib course o maxParallelism sources = lib.collect pool course (scan o) sources := by
  obtain ⟨pool, hp⟩ := hl.build _ (threadCount_pos maxParallelism sources.length)
  refine ⟨pool, hp, ?_⟩
  cases sources with
  | nil => cases h
  | cons a sources =>
      cases sources with
      | nil => cases Nat.lt_irrefl 1 h
      | cons b sources =>
          rw [scanMany, hp]
          · rfl
          · intro hs
            cases hs
          · intro source hs
            cases hs

variable (hl : lib.Lawful) (hc : 1 < sources.length → ThreadPools.IsCourse
  (threadCount maxParallelism sources.length) (scan o) sources course)

include hl hc

theorem scanMany_ok {reports : List Report}
    (h : List.Forall₂ (fun s r => scan o s = .ok r) sources reports) :
    scanMany lib course o maxParallelism sources = .ok reports := by
  rcases Nat.lt_or_ge 1 sources.length with hlt | hle
  · obtain ⟨pool, hp, hs⟩ := exists_pool_of_scanMany hl hlt
    exact hs.trans (hl.collect_ok hp (hc hlt) h)
  · exact (scanMany_of_length_le hle).trans (scanAll_of_forall₂ h)

theorem exists_scanMany_error {s : String} {e : Failure} (hm : s ∈ sources)
    (he : scan o s = .error e) :
    ∃ s ∈ sources, ∃ e, scan o s = .error e ∧
      scanMany lib course o maxParallelism sources = .error e := by
  rcases Nat.lt_or_ge 1 sources.length with hlt | hle
  · obtain ⟨pool, hp, hs⟩ := exists_pool_of_scanMany hl hlt
    have failing := (hc hlt).exists_failsAt hm he
    obtain ⟨_, _, e, ⟨t, ht, hte⟩, hr⟩ := hl.collect_error hp (hc hlt) failing
    exact ⟨t, List.mem_of_getElem? ht, e, hte, hs.trans hr⟩
  · obtain ⟨t, e, hf⟩ := FailsFirst.of_mem hm he
    exact ⟨t, hf.mem, e, hf.fails, (scanMany_of_length_le hle).trans hf.mapM_eq⟩

/-- With one worker a batch fails as the first failing source does. -/
theorem scanMany_error_of_first (hone : maxParallelism ≤ 1 ∨ sources.length ≤ 1) {s : String}
    {e : Failure} (h : FailsFirst (scan o) sources s e) :
    scanMany lib course o maxParallelism sources = .error e := by
  rcases Nat.lt_or_ge 1 sources.length with hlt | hle
  · obtain ⟨pool, hp, hs⟩ := exists_pool_of_scanMany hl hlt
    have failing := (hc hlt).exists_failsAt h.mem h.fails
    obtain ⟨place, hplace, e', hf, hr⟩ := hl.collect_error hp (hc hlt) failing
    have one : threadCount maxParallelism sources.length = 1 := by
      unfold threadCount
      omega
    have alone := hc hlt
    rw [one] at alone
    obtain rfl := alone.eq_of_alone h hplace hf
    exact hs.trans hr
  · exact (scanMany_of_length_le hle).trans h.mapM_eq

/-- A batch refines scanning one source after the other, for every bound on the threads and every
course that they may take. -/
theorem scanMany_refines :
    ((∀ s ∈ sources, ∃ r, scan o s = .ok r) →
      ∃ reports, scanMany lib course o maxParallelism sources = .ok reports ∧
        List.Forall₂ (fun s r => scan o s = .ok r) sources reports) ∧
    ((∃ s ∈ sources, ∃ e, scan o s = .error e) →
      ∃ s ∈ sources, ∃ e, scan o s = .error e ∧
        scanMany lib course o maxParallelism sources = .error e) ∧
    (maxParallelism ≤ 1 ∨ sources.length ≤ 1 → ∀ s e, FailsFirst (scan o) sources s e →
      scanMany lib course o maxParallelism sources = .error e) ∧
    (o.recovery = .skipLine →
      ∃ reports, scanMany lib course o maxParallelism sources = .ok reports) := by
  have all (h : ∀ s ∈ sources, ∃ r, scan o s = .ok r) :
      ∃ reports, scanMany lib course o maxParallelism sources = .ok reports ∧
        List.Forall₂ (fun s r => scan o s = .ok r) sources reports := by
    obtain ⟨reports, hr⟩ := exists_reports h
    exact ⟨reports, scanMany_ok hl hc hr, hr⟩
  refine ⟨all, ?_, ?_, ?_⟩
  · rintro ⟨s, hm, e, he⟩
    exact exists_scanMany_error hl hc hm he
  · intro hone s e h
    exact scanMany_error_of_first hl hc hone h
  · intro ho
    obtain ⟨reports, hr, _⟩ := all fun s _ => ⟨_, scan_skipLine ho s⟩
    exact ⟨reports, hr⟩

end

theorem scanMany_refines_failing :
    let o : Options := { recovery := .failFast }
    let sources := ["a", "b @", "c ?"]
    (∃ s ∈ sources, ∃ e, scan o s = .error e ∧
      scanMany .slotted [0, 2, 1] o 2 sources = .error e) ∧
      scanMany .slotted [0, 1] o 0 sources =
        .error (.scan ⟨.unrecognizedCharacter, 1, '@', "@"⟩) := by
  intro o sources
  have first : scan o "a" = .ok ⟨[⟨.identifier, "a", 1⟩], [], 1, 0⟩ := by decide +kernel
  have second : scan o "b @" = .error (.scan ⟨.unrecognizedCharacter, 1, '@', "@"⟩) := by
    decide +kernel
  have third : scan o "c ?" = .error (.scan ⟨.unrecognizedCharacter, 1, '?', "?"⟩) := by
    decide +kernel
  have zero : ∀ e, ¬ ThreadPools.FailsAt (scan o) sources 0 e := by
    rintro e ⟨s, hs, he⟩
    cases hs
    cases first.symm.trans he
  have one : ThreadPools.FailsAt (scan o) sources 1 _ := ⟨"b @", rfl, second⟩
  have two : ThreadPools.FailsAt (scan o) sources 2 _ := ⟨"c ?", rfl, third⟩
  -- one thread does the first two sources, and the other takes the last over and is done sooner
  have shared : ThreadPools.IsCourse 2 (scan o) sources [0, 2, 1] :=
    ⟨0, .join (.part [0]) (.join (.part [1]) (.part [2])), [⟨0, 0⟩, ⟨1, 2⟩, ⟨0, 1⟩], rfl,
      .inTurn (.part 0 [0])
        (.taken (by decide) (.part 0 [1]) (.part 1 [2]) (.right _ (.left _ .nil))),
      .succeeds (by decide) zero (.fails (by decide) two (.fails (by decide) one (.nil _)))⟩
  have alone : ThreadPools.IsCourse 1 (scan o) sources [0, 1] :=
    ⟨0, .part [0, 1, 2], _, rfl, .part 0 _,
      .succeeds (by decide) zero (.fails (by decide) one (.skipped (by decide) (.nil _)))⟩
  have firstFailure :
      FailsFirst (scan o) sources "b @" (.scan ⟨.unrecognizedCharacter, 1, '@', "@"⟩) := by
    refine ⟨⟨["a"], ["c ?"], rfl, ?_⟩, second⟩
    rw [List.forall_mem_singleton]
    exact ⟨_, first⟩
  constructor
  · have course : ThreadPools.IsCourse (threadCount 2 sources.length) (scan o) sources _ := shared
    exact (scanMany_refines ThreadPools.lawful_slotted fun _ => course).2.1
      ⟨"b @", by decide, _, second⟩
  · have course : ThreadPools.IsCourse (threadCount 0 sources.length) (scan o) sources _ := alone
    exact (scanMany_refines ThreadPools.lawful_slotted fun _ => course).2.2.1 (.inl (by decide)) _ _
      firstFailure

end LineLexer
