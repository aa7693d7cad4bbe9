import LineLexer.Json.Reader

/-!
Records in JSON documents. A record is written as an object whose members may come in any order, or
as the array of its field values. While it is read its fields fill a draft; a field may be filled
only once, and what is missing at the end is the record's own decision.
-/

namespace LineLexer.Json

structure Field (σ : Type) where
  key : String
  /-- Whether a draft has the field already. -/
  isSet : σ → Bool
  /-- Reads the value, as the way to put it into a draft. -/
  value : Reader (σ → σ)

/-- The field that a draft keeps as an option. -/
def Field.ofOption {σ β : Type} (key : String) (get : σ → Option β) (set : σ → β → σ)
    (value : Reader β) : Field σ :=
  ⟨key, fun draft => (get draft).isSome, value.map fun b draft => set draft b⟩

structure Record (σ α : Type) where
  /-- What the record is called in messages. -/
  title : String
  fields : List (Field σ)
  /-- Whether members of other names are passed over. -/
  isOpen : Bool
  blank : σ
  /-- The record of a draft, or the key of the first field that it lacks. -/
  finish : σ → Except String α

namespace Record

variable {σ α : Type} (r : Record σ α)

def keys : List String := r.fields.map (·.key)

def field? (key : String) : Option (Field σ) := r.fields.find? (·.key == key)

/-- A fault of a whole object, which is placed behind its brace if that comes next. -/
def objectFault (cause : Cause) (cs : List Char) : Fault :=
  match skipSpace cs with
  | '\x7d' :: rest => .before cause rest
  | rest => .before cause rest

def readMember (draft : σ) (cs : List Char) : Except Fault (σ × List Char) := do
  let (key, rest) ← readString cs
  match r.field? key with
  | some field =>
    if field.isSet draft then .error (objectFault (.duplicateField key) rest)
    else
      let (fill, rest) ← field.value.run (← readColon rest)
      .ok (fill draft, rest)
  | none =>
    if r.isOpen then
      let rest ← skipValue (← readColon rest)
      .ok (draft, rest)
    else .error (objectFault (.unknownField key r.keys) rest)

/-- What comes next in an object: its end, or a member behind the quote of its key. -/
def nextMember (fresh : Bool) (cs : List Char) : Except Fault Next :=
  match skipSpace cs with
  | [] => .error (.on (.unfinished .object) [])
  | '\x7d' :: rest => .ok (.close rest)
  | c :: rest =>
    if fresh then
      if c = '"' then .ok (.entry rest) else .error (.on .keyNotString (c :: rest))
    else if c = ',' then
      match skipSpace rest with
      | [] => .error (.on (.unfinished .value) [])
      | '"' :: rest => .ok (.entry rest)
      | '\x7d' :: rest => .error (.on .trailingComma ('\x7d' :: rest))
      | rest => .error (.on .keyNotString rest)
    else .error (.on .expectedObjectEnd (c :: rest))

theorem length_of_readMember {draft filled : σ} {cs rest : List Char}
    (h : r.readMember draft cs = .ok (filled, rest)) : rest.length < cs.length := by
  obtain ⟨⟨key, r₁⟩, h₁, h⟩ := exists_of_bind_eq_ok h
  have := length_of_readString h₁
  simp only at h
  split at h
  · next field _ =>
      split at h
      · cases h
      · obtain ⟨r₂, h₂, h⟩ := exists_of_bind_eq_ok h
        obtain ⟨⟨fill, r₃⟩, h₃, h⟩ := exists_of_bind_eq_ok h
        have := length_of_readColon h₂
        have := field.value.shrinks h₃
        simp only [Except.ok.injEq, Prod.mk.injEq] at h
        rw [← h.2]
        omega
  · split at h
    · obtain ⟨r₂, h₂, h⟩ := exists_of_bind_eq_ok h
      obtain ⟨r₃, h₃, h⟩ := exists_of_bind_eq_ok h
      have := length_of_readColon h₂
      have := length_of_skipValue h₃
      cases h
      omega
    · cases h

theorem length_of_nextMember_close {fresh : Bool} {cs rest : List Char}
    (h : nextMember fresh cs = .ok (.close rest)) : rest.length < cs.length := by
  have hs := length_skipSpace_le cs
  unfold nextMember at h
  split at h
  · cases h
  · next r hr =>
      cases h
      simp only [hr, List.length_cons] at hs
      omega
  · split at h
    · split at h <;> cases h
    · split at h
      · split at h <;> cases h
      · cases h

theorem length_of_nextMember_entry {fresh : Bool} {cs start : List Char}
    (h : nextMember fresh cs = .ok (.entry start)) : start.length < cs.length := by
  have hs := length_skipSpace_le cs
  unfold nextMember at h
  split at h
  · cases h
  · cases h
  · next c r _ hr =>
      have hs' := length_skipSpace_le r
      simp only [hr, List.length_cons] at hs
      split at h
      · split at h <;> cases h
        omega
      · split at h
        · split at h <;> cases h
          simp_all
          omega
        · cases h

def readMembers (fresh : Bool) (draft : σ) (cs : List Char) : Except Fault (α × List Char) :=
  match _ : nextMember fresh cs with
  | .error f => .error f
  | .ok (.close rest) =>
    match r.finish draft with
    | .ok a => .ok (a, rest)
    | .error key => .error (.before (.missingField key) rest)
  | .ok (.entry start) =>
    match _ : r.readMember draft start with
    | .error f => .error f
    | .ok (filled, rest) => readMembers false filled rest
termination_by cs.length
decreasing_by exact Nat.lt_trans (r.length_of_readMember ‹_›) (length_of_nextMember_entry ‹_›)

/-- The fault of an array that is over after the given number of values. -/
def lengthFault (length : Nat) (rest : List Char) : Fault :=
  .before (.invalidLength length s!"{r.title} with {r.fields.length} elements") rest

/-- What follows the end of an array that has a value for every field. -/
def closeArray (cs : List Char) : Except Fault (List Char) :=
  match skipSpace cs with
  | [] => .error (.on (.unfinished .list) [])
  | ']' :: rest => .ok rest
  | ',' :: rest =>
    match skipSpace rest with
    | ']' :: rest => .error (.on .trailingComma (']' :: rest))
    | rest => .error (.on .trailingCharacters rest)
  | rest => .error (.on .trailingCharacters rest)

/-- The record of a draft that an array has filled with its first `length` values. -/
def finishArray (length : Nat) (draft : σ) (rest : List Char) : Except Fault (α × List Char) :=
  match r.finish draft with
  | .ok a => .ok (a, rest)
  | .error _ => .error (r.lengthFault length rest)

/-- The values of the given fields up to the end of the array, behind `length` others. -/
def readSlots (length : Nat) (draft : σ) :
    List (Field σ) → List Char → Except Fault (α × List Char)
  | [], cs => do r.finishArray length draft (← closeArray cs)
  | field :: fields, cs => do
    match ← nextItem (length == 0) cs with
    | .close rest => r.finishArray length draft rest
    | .entry start =>
      let (fill, rest) ← field.value.run start
      readSlots (length + 1) (fill draft) fields rest

def read (cs : List Char) : Except Fault (α × List Char) :=
  match skipSpace cs with
  | [] => .error (.on (.unfinished .value) [])
  | '\x7b' :: rest => r.readMembers true r.blank rest
  | '[' :: rest => r.readSlots 0 r.blank r.fields rest
  | rest => .error (mismatch r.title rest)

theorem length_of_readMembers {fresh : Bool} {draft : σ} {cs rest : List Char} {a : α}
    (h : r.readMembers fresh draft cs = .ok (a, rest)) : rest.length < cs.length := by
  fun_induction r.readMembers fresh draft cs with
  | case1 => cases h
  | case2 fresh draft cs r' hn b hf => cases h; exact length_of_nextMember_close hn
  | case3 => cases h
  | case4 => cases h
  | case5 fresh draft cs start hn filled r' hr ih =>
      have := length_of_nextMember_entry hn
      have := r.length_of_readMember hr
      have := ih h
      omega

theorem length_of_closeArray {cs rest : List Char} (h : closeArray cs = .ok rest) :
    rest.length < cs.length := by
  have hs := length_skipSpace_le cs
  unfold closeArray at h
  split at h
  · cases h
  · next r hr =>
      cases h
      simp only [hr, List.length_cons] at hs
      omega
  · split at h <;> cases h
  · cases h

theorem rest_of_finishArray {length : Nat} {draft : σ} {cs rest : List Char} {a : α}
    (h : r.finishArray length draft cs = .ok (a, rest)) : rest = cs := by
  unfold finishArray at h
  split at h <;> simp_all

theorem length_of_readSlots {length : Nat} {draft : σ} {fields : List (Field σ)}
    {cs rest : List Char} {a : α} (h : r.readSlots length draft fields cs = .ok (a, rest)) :
    rest.length < cs.length := by
  induction fields generalizing length draft cs with
  | nil =>
      obtain ⟨r₁, h₁, h⟩ := exists_of_bind_eq_ok h
      rw [r.rest_of_finishArray h]
      exact length_of_closeArray h₁
  | cons field fields ih =>
      obtain ⟨next, hn, h⟩ := exists_of_bind_eq_ok h
      cases next with
      | close r₁ =>
          rw [r.rest_of_finishArray h]
          exact length_of_nextItem_close hn
      | entry start =>
          obtain ⟨⟨fill, r₁⟩, hv, h⟩ := exists_of_bind_eq_ok h
          have := length_of_nextItem_entry hn
          have := field.value.shrinks hv
          have := ih h
          omega

theorem length_of_read {cs rest : List Char} {a : α} (h : r.read cs = .ok (a, rest)) :
    rest.length < cs.length := by
  have hs := length_skipSpace_le cs
  unfold read at h
  split at h
  · cases h
  · next r' hr =>
      have := r.length_of_readMembers h
      simp only [hr, List.length_cons] at hs
      omega
  · next r' hr =>
      have := r.length_of_readSlots h
      simp only [hr, List.length_cons] at hs
      omega
  · cases h

end Record

def Reader.record {σ α : Type} (r : Record σ α) : Reader α := ⟨r.read, r.length_of_read⟩

end LineLexer.Json
