import LineLexer.Json.Skip

/-!
Readers of JSON values. A reader takes one value of a known form off the front of a text and always
takes at least one character; documents are read from front to back, so of several faults the first
one met is reported.
-/

namespace LineLexer.Json

structure Reader (α : Type) where
  run : List Char → Except Fault (α × List Char)
  shrinks : ∀ {cs rest : List Char} {a : α}, run cs = .ok (a, rest) → rest.length < cs.length

/-- The fault of a value that is not of the expected form. The value itself is read first unless it
is a list or an object. -/
def mismatch (expected : String) (cs : List Char) : Fault :=
  let wrong (read : Except Fault (Found × List Char)) : Fault :=
    match read with
    | .ok (found, rest) => .before (.invalidType found expected) rest
    | .error f => f
  let word (w : String) (found : Found) (rest : List Char) : Fault :=
    wrong ((readWord w.toList rest).map fun rest => (found, rest))
  let number (negative : Bool) (rest : List Char) : Fault :=
    wrong ((readNumber negative rest).map fun (n, rest) => (n.found, rest))
  match cs with
  | 'n' :: rest => word "ull" .null rest
  | 't' :: rest => word "rue" (.boolean true) rest
  | 'f' :: rest => word "alse" (.boolean false) rest
  | '-' :: rest => number true rest
  | '"' :: rest => wrong ((readString rest).map fun (s, rest) => (.string s, rest))
  | '[' :: _ => wrong (.ok (.sequence, cs))
  | '\x7b' :: _ => wrong (.ok (.map, cs))
  | c :: _ => if c.isDigit then number false cs else .on .expectedValue cs
  | [] => .on .expectedValue []

/-! ### Numbers, strings and characters -/

/-- A number that has been read up to `rest`, as a natural number. -/
def asNatural (expected : String) : Number × List Char → Except Fault (Nat × List Char)
  | (.natural n, rest) => .ok (n, rest)
  | (.negative n, rest) => .error (.before (.invalidValue (.integer (-n)) expected) rest)
  | (.real x, rest) => .error (.before (.invalidType (.real x) expected) rest)

def readNatural (cs : List Char) : Except Fault (Nat × List Char) :=
  let expected := "usize"
  match skipSpace cs with
  | [] => .error (.on (.unfinished .value) [])
  | '-' :: rest => readNumber true rest >>= asNatural expected
  | c :: rest =>
    if c.isDigit then readNumber false (c :: rest) >>= asNatural expected
    else .error (mismatch expected (c :: rest))

def readText (expected : String) (cs : List Char) : Except Fault (String × List Char) :=
  match skipSpace cs with
  | [] => .error (.on (.unfinished .value) [])
  | '"' :: rest => readString rest
  | rest => .error (mismatch expected rest)

def readCharacter (cs : List Char) : Except Fault (Char × List Char) := do
  let expected := "a character"
  let (s, rest) ← readText expected cs
  match s.toList with
  | [c] => .ok (c, rest)
  | _ => .error (.before (.invalidValue (.string s) expected) rest)

theorem rest_of_asNatural {expected : String} {found : Number × List Char} {n : Nat}
    {rest : List Char} (h : asNatural expected found = .ok (n, rest)) : rest = found.2 := by
  unfold asNatural at h
  split at h <;> simp_all

theorem length_of_readNatural {cs rest : List Char} {n : Nat}
    (h : readNatural cs = .ok (n, rest)) : rest.length < cs.length := by
  have hs := length_skipSpace_le cs
  have number {negative : Bool} {cs : List Char}
      (h : readNumber negative cs >>= asNatural "usize" = .ok (n, rest)) :
      rest.length < cs.length := by
    obtain ⟨⟨k, r⟩, hn, h⟩ := exists_of_bind_eq_ok h
    rw [rest_of_asNatural h]
    exact length_of_readNumber hn
  unfold readNatural at h
  simp only at h
  split at h
  · cases h
  · next r hr =>
      have := number h
      simp only [hr, List.length_cons] at hs
      omega
  · next c r _ hr =>
      split at h
      · exact Nat.lt_of_lt_of_le (number h) (hr ▸ hs)
      · cases h

theorem length_of_readText {expected : String} {cs rest : List Char} {s : String}
    (h : readText expected cs = .ok (s, rest)) : rest.length < cs.length := by
  have hs := length_skipSpace_le cs
  unfold readText at h
  split at h
  · cases h
  · next r hr =>
      have := length_of_readString h
      simp only [hr, List.length_cons] at hs
      omega
  · cases h

theorem length_of_readCharacter {cs rest : List Char} {c : Char}
    (h : readCharacter cs = .ok (c, rest)) : rest.length < cs.length := by
  obtain ⟨⟨s, r⟩, ht, h⟩ := exists_of_bind_eq_ok h
  have := length_of_readText ht
  simp only at h
  split at h
  · cases h
    exact this
  · cases h

namespace Reader

/-- The same value, seen through a function. -/
def map {α β : Type} (f : α → β) (r : Reader α) : Reader β where
  run cs := (r.run cs).map fun (a, rest) => (f a, rest)
  shrinks {cs rest b} h := by
    cases hr : r.run cs with
    | error e => simp [hr, Except.map] at h
    | ok found =>
        simp only [hr, Except.map, Except.ok.injEq, Prod.mk.injEq] at h
        exact h.2 ▸ r.shrinks hr

/-- A number without sign, fraction and exponent that fits in 64 bits. -/
def natural : Reader Nat := ⟨readNatural, length_of_readNatural⟩

def string : Reader String := ⟨readText "a string", length_of_readText⟩

def character : Reader Char := ⟨readCharacter, length_of_readCharacter⟩

end Reader

/-! ### Choices -/

/-- What a name that has been read up to `rest` stands for. -/
def chooseName {α : Type} (choices : List (String × α)) (name : String) (rest : List Char) :
    Except Fault (α × List Char) :=
  match choices.lookup name with
  | some a => .ok (a, rest)
  | none => .error (.before (.unknownVariant name (choices.map (·.1))) rest)

/-- What follows the value that a name may carry in an object, which is always null. -/
def readNull (cs : List Char) : Except Fault (List Char) :=
  match skipSpace cs with
  | [] => .error (.on (.unfinished .value) [])
  | 'n' :: rest => readWord "ull".toList rest
  | rest => .error (mismatch "unit" rest)

/-- The key of an object with one entry, behind the brace of the object. -/
def readEntryKey (cs : List Char) : Except Fault (String × List Char) :=
  match skipSpace cs with
  | [] => .error (.on (.unfinished .object) [])
  | '"' :: rest => readString rest
  | '\x7d' :: rest => .error (.on .expectedValue ('\x7d' :: rest))
  | rest => .error (.on .keyNotString rest)

def closeEntry (cs : List Char) : Except Fault (List Char) :=
  match skipSpace cs with
  | [] => .error (.on (.unfinished .object) [])
  | '\x7d' :: rest => .ok rest
  | rest => .error (.before .expectedValue rest)

/-- A name of a fixed choice: a string, or an object whose one key is the name and carries null. -/
def readChoice {α : Type} (choices : List (String × α)) (cs : List Char) :
    Except Fault (α × List Char) :=
  match skipSpace cs with
  | [] => .error (.on (.unfinished .value) [])
  | '"' :: rest => do
    let (name, rest) ← readString rest
    chooseName choices name rest
  | '\x7b' :: rest => do
    let (name, rest) ← readEntryKey rest
    let (a, rest) ← chooseName choices name rest
    let rest ← closeEntry (← readNull (← readColon rest))
    .ok (a, rest)
  | rest => .error (.on .expectedValue rest)

theorem rest_of_chooseName {α : Type} {choices : List (String × α)} {name : String}
    {cs rest : List Char} {a : α} (h : chooseName choices name cs = .ok (a, rest)) :
    rest = cs := by
  unfold chooseName at h
  split at h <;> simp_all

theorem length_of_readNull {cs rest : List Char} (h : readNull cs = .ok rest) :
    rest.length < cs.length := by
  have hs := length_skipSpace_le cs
  unfold readNull at h
  split at h
  · cases h
  · next r hr =>
      have := congrArg List.length (readWord_eq_ok h)
      simp only [hr, List.length_cons, List.length_append] at hs this
      omega
  · cases h

theorem length_of_readEntryKey {cs rest : List Char} {s : String}
    (h : readEntryKey cs = .ok (s, rest)) : rest.length < cs.length := by
  have hs := length_skipSpace_le cs
  unfold readEntryKey at h
  split at h
  · cases h
  · next r hr =>
      have := length_of_readString h
      simp only [hr, List.length_cons] at hs
      omega
  · cases h
  · cases h

theorem length_of_closeEntry {cs rest : List Char} (h : closeEntry cs = .ok rest) :
    rest.length < cs.length := by
  have hs := length_skipSpace_le cs
  unfold closeEntry at h
  split at h
  · cases h
  · next r hr =>
      cases h
      simp only [hr, List.length_cons] at hs
      omega
  · cases h

theorem length_of_readChoice {α : Type} {choices : List (String × α)} {cs rest : List Char}
    {a : α} (h : readChoice choices cs = .ok (a, rest)) : rest.length < cs.length := by
  have hs := length_skipSpace_le cs
  unfold readChoice at h
  split at h
  · cases h
  · next r hr =>
      obtain ⟨⟨name, r'⟩, hn, h⟩ := exists_of_bind_eq_ok h
      have := length_of_readString hn
      simp only [hr, List.length_cons] at hs
      rw [rest_of_chooseName h]
      omega
  · next r hr =>
      obtain ⟨⟨name, r₁⟩, h₁, h⟩ := exists_of_bind_eq_ok h
      obtain ⟨⟨b, r₂⟩, h₂, h⟩ := exists_of_bind_eq_ok h
      obtain ⟨r₃, h₃, h⟩ := exists_of_bind_eq_ok h
      obtain ⟨r₄, h₄, h⟩ := exists_of_bind_eq_ok h
      obtain ⟨r₅, h₅, h⟩ := exists_of_bind_eq_ok h
      have := length_of_readEntryKey h₁
      have := rest_of_chooseName h₂
      have := length_of_readColon h₃
      have := length_of_readNull h₄
      have := length_of_closeEntry h₅
      simp only [Except.ok.injEq, Prod.mk.injEq] at h
      simp only [hr, List.length_cons] at hs
      simp_all
      omega
  · cases h

def Reader.choice {α : Type} (choices : List (String × α)) : Reader α :=
  ⟨readChoice choices, length_of_readChoice⟩

/-! ### Lists -/

/-- What comes next in a list, where `fresh` says that it has just been opened. -/
def nextItem (fresh : Bool) (cs : List Char) : Except Fault Next :=
  match skipSpace cs with
  | [] => .error (.on (.unfinished .list) [])
  | ']' :: rest => .ok (.close rest)
  | c :: rest =>
    if fresh then .ok (.entry (c :: rest))
    else if c = ',' then
      match skipSpace rest with
      | [] => .error (.on (.unfinished .value) [])
      | ']' :: rest => .error (.on .trailingComma (']' :: rest))
      | rest => .ok (.entry rest)
    else .error (.on .expectedListEnd (c :: rest))

theorem length_of_nextItem_close {fresh : Bool} {cs rest : List Char}
    (h : nextItem fresh cs = .ok (.close rest)) : rest.length < cs.length := by
  have hs := length_skipSpace_le cs
  unfold nextItem at h
  split at h
  · cases h
  · next r hr =>
      cases h
      simp only [hr, List.length_cons] at hs
      omega
  · split at h
    · cases h
    · split at h
      · split at h <;> cases h
      · cases h

theorem length_of_nextItem_entry {fresh : Bool} {cs start : List Char}
    (h : nextItem fresh cs = .ok (.entry start)) : start.length ≤ cs.length := by
  have hs := length_skipSpace_le cs
  unfold nextItem at h
  split at h
  · cases h
  · cases h
  · next c r _ hr =>
      have hs' := length_skipSpace_le r
      simp only [hr, List.length_cons] at hs
      split at h
      · cases h
        exact hs
      · split at h
        · split at h
          · cases h
          · cases h
          · cases h
            omega
        · cases h

/-- The items up to the end of the list, behind those read before. -/
def readItems {α : Type} (item : Reader α) (fresh : Bool) (read : Array α) (cs : List Char) :
    Except Fault (List α × List Char) :=
  match _ : nextItem fresh cs with
  | .error f => .error f
  | .ok (.close rest) => .ok (read.toList, rest)
  | .ok (.entry start) =>
    match _ : item.run start with
    | .error f => .error f
    | .ok (a, rest) => readItems item false (read.push a) rest
termination_by cs.length
decreasing_by exact Nat.lt_of_lt_of_le (item.shrinks ‹_›) (length_of_nextItem_entry ‹_›)

def readList {α : Type} (item : Reader α) (cs : List Char) : Except Fault (List α × List Char) :=
  match skipSpace cs with
  | [] => .error (.on (.unfinished .value) [])
  | '[' :: rest => readItems item true #[] rest
  | rest => .error (mismatch "a sequence" rest)

theorem length_of_readItems {α : Type} {item : Reader α} {fresh : Bool} {read : Array α}
    {cs rest : List Char} {xs : List α} (h : readItems item fresh read cs = .ok (xs, rest)) :
    rest.length < cs.length := by
  fun_induction readItems item fresh read cs with
  | case1 => cases h
  | case2 fresh read cs r hn => cases h; exact length_of_nextItem_close hn
  | case3 => cases h
  | case4 fresh read cs start hn a r hr ih =>
      have := item.shrinks hr
      have := length_of_nextItem_entry hn
      have := ih h
      omega

theorem length_of_readList {α : Type} {item : Reader α} {cs rest : List Char} {xs : List α}
    (h : readList item cs = .ok (xs, rest)) : rest.length < cs.length := by
  have hs := length_skipSpace_le cs
  unfold readList at h
  split at h
  · cases h
  · next r hr =>
      have := length_of_readItems h
      simp only [hr, List.length_cons] at hs
      omega
  · cases h

def Reader.list {α : Type} (item : Reader α) : Reader (List α) :=
  ⟨readList item, length_of_readList⟩

end LineLexer.Json
