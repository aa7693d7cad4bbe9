import LineLexer.Scan

/-!
Scans of several sources on a pool of threads. The pool belongs to a library of its own. All that is
asked of it is a pool of a given size and the results of a function on every item, in whatever way
the threads go through the items.
-/

namespace LineLexer

/-- A library of thread pools. A course lists the items that get done by their places, in the order
in which the threads finish them. -/
structure ThreadPools where
  Pool : Type
  build : (threads : Nat) → Except String Pool
  collect : {α β ε : Type} → Pool → (course : List Nat) → (α → Except ε β) → List α →
    Except ε (List β)

/-- At least one thread, and no more than there are sources. -/
def threadCount (maxParallelism sources : Nat) : Nat := max 1 (min maxParallelism sources)

theorem threadCount_pos (maxParallelism sources : Nat) :
    0 < threadCount maxParallelism sources := by
  unfold threadCount
  omega

/-- Scans several sources at once, with a pool only if there is more than one. -/
def scanMany (lib : ThreadPools) (course : List Nat) (o : Options) (maxParallelism : Nat) :
    List String → Except Failure (List Report)
  | [] => .ok []
  | [source] => do
    let report ← scan o source
    return [report]
  | sources => do
    let pool ← (lib.build (threadCount maxParallelism sources.length)).mapError fun reason =>
      .configuration s!"Failed to create thread pool: {reason}"
    lib.collect pool course (scan o) sources

namespace ThreadPools

/-- Puts the result of the item at a place into the slot of that place. -/
def fillSlot {α β ε : Type} (f : α → Except ε β) (items : List α) (slots : List (Option β))
    (place : Nat) : Except ε (List (Option β)) :=
  match items[place]? with
  | some item => (f item).map fun b => slots.set place (some b)
  | none => .ok slots

/-- Pools with a slot for the result of each item. The first failure on the course is the failure of
the whole. -/
def slotted : ThreadPools where
  Pool := Unit
  build _ := .ok ()
  collect _ course f items := do
    let slots ← course.foldlM (fillSlot f items) (List.replicate items.length none)
    return slots.filterMap id

end ThreadPools
end LineLexer
