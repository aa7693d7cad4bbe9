import LineLexer.Json.Number
import LineLexer.Json.Quoted
import LineLexer.Json.Space

/-!
Passing over a value that nobody looks at. Brackets are kept on a stack, so a value may be nested to
any depth; strings and numbers are checked for their form only.
-/

namespace LineLexer.Json

inductive Bracket
  | list | object
  deriving DecidableEq, Repr

def Bracket.closing : Bracket → Char
  | list => ']'
  | object => '\x7d'

/-- The fault of a text that ends inside the bracket. -/
def Bracket.unfinished : Bracket → Cause
  | list => .unfinished .list
  | object => .unfinished .object

/-- The fault of an entry that neither a comma nor the closing bracket follows. -/
def Bracket.expectedEnd : Bracket → Cause
  | list => .expectedListEnd
  | object => .expectedObjectEnd

def readColon (cs : List Char) : Except Fault (List Char) :=
  match skipSpace cs with
  | [] => .error (.on (.unfinished .object) [])
  | ':' :: rest => .ok rest
  | rest => .error (.on .expectedColon rest)

theorem length_of_readColon {cs rest : List Char} (h : readColon cs = .ok rest) :
    rest.length < cs.length := by
  have hs := length_skipSpace_le cs
  unfold readColon at h
  split at h
  · cases h
  · next r hr =>
      cases h
      simp only [hr, List.length_cons] at hs
      omega
  · cases h

def skipKey (cs : List Char) : Except Fault (List Char) :=
  match skipSpace cs with
  | [] => .error (.on (.unfinished .object) [])
  | '"' :: rest => skipString rest >>= readColon
  | rest => .error (.on .keyNotString rest)

theorem length_of_skipKey {cs rest : List Char} (h : skipKey cs = .ok rest) :
    rest.length < cs.length := by
  have hs := length_skipSpace_le cs
  unfold skipKey at h
  split at h
  · cases h
  · next r hr =>
      obtain ⟨mid, hm, h⟩ := exists_of_bind_eq_ok h
      have := length_of_skipString hm
      have := length_of_readColon h
      simp only [hr, List.length_cons] at hs
      omega
  · cases h

/-- What a value starts with: either it is over at once, or a bracket opens. -/
inductive Start
  | scalar (rest : List Char)
  | opened (bracket : Bracket) (rest : List Char)

def Start.rest : Start → List Char
  | scalar rest | opened _ rest => rest

def skipStart (cs : List Char) : Except Fault Start :=
  match skipSpace cs with
  | [] => .error (.on (.unfinished .value) [])
  | 'n' :: rest => (readWord "ull".toList rest).map .scalar
  | 't' :: rest => (readWord "rue".toList rest).map .scalar
  | 'f' :: rest => (readWord "alse".toList rest).map .scalar
  | '-' :: rest => (skipNumber rest).map .scalar
  | '"' :: rest => (skipString rest).map .scalar
  | '[' :: rest => .ok (.opened .list rest)
  | '\x7b' :: rest => .ok (.opened .object rest)
  | c :: rest =>
    if c.isDigit then (skipNumber (c :: rest)).map .scalar
    else .error (.on .expectedValue (c :: rest))

theorem length_of_skipStart {cs : List Char} {start : Start} (h : skipStart cs = .ok start) :
    start.rest.length < cs.length := by
  have hs := length_skipSpace_le cs
  have word {w cs : List Char} {k : Nat} (hk : cs.length < k)
      (h : (readWord w cs).map Start.scalar = .ok start) : start.rest.length < k := by
    cases hw : readWord w cs with
    | error f => simp [hw, Except.map] at h
    | ok rest =>
        have := congrArg List.length (readWord_eq_ok hw)
        simp only [hw, Except.map, Except.ok.injEq, List.length_append] at h this
        simp only [← h, Start.rest]
        omega
  have rest {read : Except Fault (List Char)} {k : Nat}
      (hk : ∀ {r}, read = .ok r → r.length < k)
      (h : read.map Start.scalar = .ok start) : start.rest.length < k := by
    cases hr : read with
    | error f => simp [hr, Except.map] at h
    | ok r =>
        simp only [hr, Except.map, Except.ok.injEq] at h
        simpa only [← h, Start.rest] using hk hr
  unfold skipStart at h
  split at h <;> simp only [*, List.length_cons] at hs
  · cases h
  · exact word (by omega) h
  · exact word (by omega) h
  · exact word (by omega) h
  · exact rest (fun h => by have := length_of_skipNumber h; omega) h
  · exact rest (fun h => by have := length_of_skipString h; omega) h
  · cases h
    simp only [Start.rest]
    omega
  · cases h
    simp only [Start.rest]
    omega
  · split at h
    · refine rest (fun h => ?_) h
      have := length_of_skipNumber h
      simp only [List.length_cons] at this
      omega
    · cases h

/-- What comes next inside a bracket: its end, or an entry with its key read. -/
inductive Next
  | close (rest : List Char)
  | entry (start : List Char)

/-- The value of an entry, behind its key if it has one. -/
def skipToValue (bracket : Bracket) (cs : List Char) : Except Fault (List Char) :=
  match bracket with
  | .list => .ok cs
  | .object => skipKey cs

theorem length_of_skipToValue {bracket : Bracket} {cs start : List Char}
    (h : skipToValue bracket cs = .ok start) : start.length ≤ cs.length := by
  cases bracket with
  | list => cases h; omega
  | object => exact Nat.le_of_lt (length_of_skipKey h)

/-- What comes next inside a bracket in which nobody looks, where `fresh` says that it has just been
opened and no comma may come. -/
def skipNext (bracket : Bracket) (fresh : Bool) (cs : List Char) : Except Fault Next :=
  match skipSpace cs with
  | [] => .error (.on bracket.unfinished [])
  | c :: rest =>
    if c = bracket.closing then .ok (.close rest)
    else if fresh then (skipToValue bracket (c :: rest)).map .entry
    else if c = ',' then (skipToValue bracket rest).map .entry
    else .error (.on bracket.expectedEnd (c :: rest))

theorem length_of_skipNext_close {bracket : Bracket} {fresh : Bool} {cs rest : List Char}
    (h : skipNext bracket fresh cs = .ok (.close rest)) : rest.length < cs.length := by
  have hs := length_skipSpace_le cs
  have entry {cs : List Char} : (skipToValue bracket cs).map Next.entry ≠ .ok (.close rest) := by
    cases skipToValue bracket cs <;> simp [Except.map]
  unfold skipNext at h
  split at h
  · cases h
  · next c r hr =>
      simp only [hr, List.length_cons] at hs
      split at h
      · cases h
        omega
      · split at h
        · exact absurd h entry
        · split at h
          · exact absurd h entry
          · cases h

theorem length_of_skipNext_entry {bracket : Bracket} {fresh : Bool} {cs start : List Char}
    (h : skipNext bracket fresh cs = .ok (.entry start)) : start.length ≤ cs.length := by
  have hs := length_skipSpace_le cs
  have entry {cs : List Char} (h : (skipToValue bracket cs).map Next.entry = .ok (.entry start)) :
      start.length ≤ cs.length := by
    cases hv : skipToValue bracket cs with
    | error f => simp [hv, Except.map] at h
    | ok r =>
        simp only [hv, Except.map, Except.ok.injEq, Next.entry.injEq] at h
        exact h ▸ length_of_skipToValue hv
  unfold skipNext at h
  split at h
  · cases h
  · next c r hr =>
      simp only [hr] at hs
      split at h
      · cases h
      · split at h
        · exact Nat.le_trans (entry h) hs
        · split at h
          · exact Nat.le_trans (Nat.le_succ_of_le (entry h)) hs
          · cases h

/-- What follows the end of the outermost of the open brackets, the innermost first. -/
def skipInside (fresh : Bool) (brackets : List Bracket) (cs : List Char) :
    Except Fault (List Char) :=
  match brackets with
  | [] => .ok cs
  | bracket :: outer =>
    match _ : skipNext bracket fresh cs with
    | .error f => .error f
    | .ok (.close rest) => skipInside false outer rest
    | .ok (.entry start) =>
      match _ : skipStart start with
      | .error f => .error f
      | .ok (.scalar rest) => skipInside false (bracket :: outer) rest
      | .ok (.opened inner rest) => skipInside true (inner :: bracket :: outer) rest
termination_by cs.length
decreasing_by
  · exact length_of_skipNext_close ‹_›
  · exact Nat.lt_of_lt_of_le (length_of_skipStart ‹_›) (length_of_skipNext_entry ‹_›)
  · exact Nat.lt_of_lt_of_le (length_of_skipStart ‹_›) (length_of_skipNext_entry ‹_›)

theorem length_of_skipInside {fresh : Bool} {brackets : List Bracket} {cs rest : List Char}
    (h : skipInside fresh brackets cs = .ok rest) : rest.length ≤ cs.length := by
  fun_induction skipInside fresh brackets cs with
  | case1 => cases h; omega
  | case2 => cases h
  | case3 fresh cs bracket outer r hn ih =>
      exact Nat.le_trans (ih h) (Nat.le_of_lt (length_of_skipNext_close hn))
  | case4 => cases h
  | case5 fresh cs bracket outer start hn r hs ih =>
      exact Nat.le_trans (ih h) (Nat.le_trans (Nat.le_of_lt (length_of_skipStart hs))
        (length_of_skipNext_entry hn))
  | case6 fresh cs bracket outer start hn inner r hs ih =>
      exact Nat.le_trans (ih h) (Nat.le_trans (Nat.le_of_lt (length_of_skipStart hs))
        (length_of_skipNext_entry hn))

def skipValue (cs : List Char) : Except Fault (List Char) := do
  match ← skipStart cs with
  | .scalar rest => .ok rest
  | .opened bracket rest => skipInside true [bracket] rest

theorem length_of_skipValue {cs rest : List Char} (h : skipValue cs = .ok rest) :
    rest.length < cs.length := by
  obtain ⟨start, hs, h⟩ := exists_of_bind_eq_ok h
  have hl := length_of_skipStart hs
  cases start with
  | scalar r => cases h; exact hl
  | opened bracket r => exact Nat.lt_of_le_of_lt (length_of_skipInside h) hl

end LineLexer.Json
