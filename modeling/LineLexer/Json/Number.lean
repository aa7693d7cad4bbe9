import LineLexer.Json.Fault

/-!
Numbers of JSON documents. An integer stays one as long as it fits in 64 bits; any other number is
read as a double, from as many of its leading digits as fit in 64 bits and a power of ten.
-/

namespace LineLexer.Json

inductive Number
  | natural (n : Nat)
  /-- The negative of a positive number. -/
  | negative (n : Nat)
  | real (x : Float)

def Number.found : Number → Found
  | natural n => .integer n
  | negative n => .integer (-n)
  | real x => .real x

def digitValue (c : Char) : Nat := c.toNat - '0'.toNat

def leadingDigits (cs : List Char) : List Char := cs.takeWhile Char.isDigit

def afterDigits (cs : List Char) : List Char := cs.dropWhile Char.isDigit

/-- Appends digits to a number while it stays within the limit; the others are left over. -/
def absorb (limit value : Nat) : List Char → Nat × List Char
  | [] => (value, [])
  | d :: ds =>
    let longer := value * 10 + digitValue d
    if longer ≤ limit then absorb limit longer ds else (value, d :: ds)

def maxNatural : Nat := 18446744073709551615

/-- The magnitude of the least number of 64 bits with a sign. -/
def maxNegative : Nat := 9223372036854775808

/-- The greatest exponent that is computed with, which has 31 bits. -/
def maxExponent : Nat := 2147483647

/-- The greatest power of ten that is multiplied or divided by at once. -/
def maxPower : Nat := 308

def powerOfTen (n : Nat) : Float := Float.ofScientific 1 false n

/-- `x * 10 ^ exponent`, unless it is beyond the doubles. -/
def scale (x : Float) (exponent : Int) : Option Float :=
  if exponent.natAbs ≤ maxPower then
    if exponent < 0 then some (x / powerOfTen exponent.natAbs)
    else
      let y := x * powerOfTen exponent.natAbs
      if y.isInf then none else some y
  else if x == 0 then some x
  else if _ : exponent < 0 then scale (x / powerOfTen maxPower) (exponent + maxPower)
  else none
termination_by exponent.natAbs
decreasing_by simp only [maxPower] at *; omega

def signed (negative : Bool) (x : Float) : Float := if negative then -x else x

/-- The double of a number that has been read up to `rest`. -/
def ofParts (negative : Bool) (significand : Nat) (exponent : Int) (rest : List Char) :
    Except Fault (Float × List Char) :=
  match scale significand.toUInt64.toFloat exponent with
  | some x => .ok (signed negative x, rest)
  | none => .error (.before .numberOutOfRange rest)

/-- The fault of a text that goes on with `rest` where a digit is wanted. -/
def noDigit (rest : List Char) : Fault :=
  .on (if rest.isEmpty then .unfinished .value else .invalidNumber) rest

/-- Whether an exponent is negative, and what follows its sign. -/
def exponentSign : List Char → Bool × List Char
  | '-' :: rest => (true, rest)
  | '+' :: rest => (false, rest)
  | rest => (false, rest)

/-- The rest of a number behind the letter of its exponent. -/
def readExponent (negative : Bool) (significand : Nat) (exponent : Int) (cs : List Char) :
    Except Fault (Float × List Char) :=
  let (down, cs) := exponentSign cs
  let rest := afterDigits cs
  if (leadingDigits cs).isEmpty then .error (noDigit cs)
  else
    match absorb maxExponent 0 (leadingDigits cs) with
    | (e, []) => ofParts negative significand (if down then exponent - e else exponent + e) rest
    | (_, _ :: more) =>
      if significand ≠ 0 ∧ !down then .error (.before .numberOutOfRange (more ++ rest))
      else .ok (signed negative 0, rest)

def readScale (negative : Bool) (significand : Nat) (exponent : Int) :
    List Char → Except Fault (Float × List Char)
  | 'e' :: cs => readExponent negative significand exponent cs
  | 'E' :: cs => readExponent negative significand exponent cs
  | cs => ofParts negative significand exponent cs

def readFraction (negative : Bool) (significand : Nat) (exponent : Int) (cs : List Char) :
    Except Fault (Float × List Char) :=
  let digits := leadingDigits cs
  if digits.isEmpty then .error (noDigit cs)
  else
    let (longer, unused) := absorb maxNatural significand digits
    readScale negative longer (exponent - (digits.length - unused.length : Nat)) (afterDigits cs)

/-- The number of an integer literal that fits in 64 bits. Zero has a sign only as a double. -/
def ofInteger (negative : Bool) (n : Nat) : Number :=
  if !negative then .natural n
  else if n ≠ 0 ∧ n ≤ maxNegative then .negative n
  else .real (-n.toUInt64.toFloat)

/-- The rest of a number behind its integer digits, of which `unused` were too many. -/
def readTail (negative : Bool) (significand unused : Nat) (cs : List Char) :
    Except Fault (Number × List Char) :=
  let real (read : Except Fault (Float × List Char)) := read.map fun (x, rest) => (.real x, rest)
  match cs with
  | '.' :: rest => real (readFraction negative significand unused rest)
  | 'e' :: _ => real (readScale negative significand unused cs)
  | 'E' :: _ => real (readScale negative significand unused cs)
  | _ =>
    if unused = 0 then .ok (ofInteger negative significand, cs)
    else real (ofParts negative significand unused cs)

/-- A number behind its sign. A leading zero stands alone. -/
def readNumber (negative : Bool) (cs : List Char) : Except Fault (Number × List Char) :=
  match cs with
  | [] => .error (noDigit [])
  | '0' :: rest =>
    if rest.head?.any Char.isDigit then .error (.on .invalidNumber rest)
    else readTail negative 0 0 rest
  | c :: _ =>
    if c.isDigit then
      let (significand, unused) := absorb maxNatural 0 (leadingDigits cs)
      readTail negative significand unused.length (afterDigits cs)
    else .error (.on .invalidNumber cs)

def skipExponent : List Char → Except Fault (List Char)
  | c :: rest =>
    if c = 'e' ∨ c = 'E' then
      let (_, digits) := exponentSign rest
      if (leadingDigits digits).isEmpty then .error (.on .invalidNumber digits)
      else .ok (afterDigits digits)
    else .ok (c :: rest)
  | [] => .ok []

def skipFraction : List Char → Except Fault (List Char)
  | '.' :: rest =>
    if (leadingDigits rest).isEmpty then .error (.on .invalidNumber rest)
    else skipExponent (afterDigits rest)
  | rest => skipExponent rest

/-- What follows a number that nobody looks at, behind its sign. It may be of any size. -/
def skipNumber (cs : List Char) : Except Fault (List Char) :=
  match cs with
  | [] => .error (.on .invalidNumber [])
  | '0' :: rest =>
    if rest.head?.any Char.isDigit then .error (.on .invalidNumber rest) else skipFraction rest
  | c :: _ => if c.isDigit then skipFraction (afterDigits cs) else .error (.on .invalidNumber cs)

/-! Every number takes at least one character. -/

theorem length_afterDigits_le (cs : List Char) : (afterDigits cs).length ≤ cs.length :=
  (List.dropWhile_suffix Char.isDigit).length_le

theorem length_afterDigits_cons {c : Char} (cs : List Char) (h : c.isDigit = true) :
    (afterDigits (c :: cs)).length ≤ cs.length := by
  simpa [afterDigits, h] using length_afterDigits_le cs

theorem length_exponentSign_le (cs : List Char) : (exponentSign cs).2.length ≤ cs.length := by
  unfold exponentSign
  split <;> simp

theorem rest_of_ofParts {negative : Bool} {significand : Nat} {exponent : Int}
    {cs rest : List Char} {x : Float}
    (h : ofParts negative significand exponent cs = .ok (x, rest)) : rest = cs := by
  unfold ofParts at h
  split at h <;> simp_all

theorem length_of_readExponent {negative : Bool} {significand : Nat} {exponent : Int}
    {cs rest : List Char} {x : Float}
    (h : readExponent negative significand exponent cs = .ok (x, rest)) :
    rest.length ≤ cs.length := by
  have hs := length_exponentSign_le cs
  have hd := length_afterDigits_le (exponentSign cs).2
  unfold readExponent at h
  simp only at h
  split at h
  · cases h
  · split at h
    · rw [rest_of_ofParts h]
      omega
    · split at h
      · cases h
      · simp only [Except.ok.injEq, Prod.mk.injEq] at h
        rw [← h.2]
        omega

theorem length_of_readScale {negative : Bool} {significand : Nat} {exponent : Int}
    {cs rest : List Char} {x : Float}
    (h : readScale negative significand exponent cs = .ok (x, rest)) :
    rest.length ≤ cs.length := by
  unfold readScale at h
  split at h
  · exact Nat.le_succ_of_le (length_of_readExponent h)
  · exact Nat.le_succ_of_le (length_of_readExponent h)
  · exact Nat.le_of_eq (congrArg List.length (rest_of_ofParts h))

theorem length_of_readFraction {negative : Bool} {significand : Nat} {exponent : Int}
    {cs rest : List Char} {x : Float}
    (h : readFraction negative significand exponent cs = .ok (x, rest)) :
    rest.length ≤ cs.length := by
  unfold readFraction at h
  simp only at h
  split at h
  · cases h
  · exact Nat.le_trans (length_of_readScale h) (length_afterDigits_le cs)

theorem length_of_readTail {negative : Bool} {significand unused : Nat} {cs rest : List Char}
    {n : Number} (h : readTail negative significand unused cs = .ok (n, rest)) :
    rest.length ≤ cs.length := by
  have real {read : Except Fault (Float × List Char)} {k : Nat}
      (hk : ∀ {x r}, read = .ok (x, r) → r.length ≤ k)
      (h : read.map (fun (x, rest) => (Number.real x, rest)) = .ok (n, rest)) :
      rest.length ≤ k := by
    cases hr : read with
    | error f => simp [hr, Except.map] at h
    | ok found =>
        simp only [hr, Except.map, Except.ok.injEq, Prod.mk.injEq] at h
        rw [← h.2]
        exact hk hr
  unfold readTail at h
  simp only at h
  split at h
  · exact Nat.le_succ_of_le (real length_of_readFraction h)
  · exact real length_of_readScale h
  · exact real length_of_readScale h
  · split at h
    · simp only [Except.ok.injEq, Prod.mk.injEq] at h
      exact Nat.le_of_eq (congrArg List.length h.2.symm)
    · exact real (fun h => Nat.le_of_eq (congrArg List.length (rest_of_ofParts h))) h

theorem length_of_readNumber {negative : Bool} {cs rest : List Char} {n : Number}
    (h : readNumber negative cs = .ok (n, rest)) : rest.length < cs.length := by
  unfold readNumber at h
  split at h
  · cases h
  · split at h
    · cases h
    · exact Nat.lt_succ_of_le (length_of_readTail h)
  · split at h
    · next hd =>
        exact Nat.lt_succ_of_le
          (Nat.le_trans (length_of_readTail h) (length_afterDigits_cons _ hd))
    · cases h

theorem length_of_skipExponent {cs rest : List Char} (h : skipExponent cs = .ok rest) :
    rest.length ≤ cs.length := by
  unfold skipExponent at h
  split at h
  · next c r =>
      have hs := length_exponentSign_le r
      have hd := length_afterDigits_le (exponentSign r).2
      split at h
      · simp only at h
        split at h
        · cases h
        · simp only [Except.ok.injEq] at h
          simp only [← h, List.length_cons]
          omega
      · simp_all
  · simp_all

theorem length_of_skipFraction {cs rest : List Char} (h : skipFraction cs = .ok rest) :
    rest.length ≤ cs.length := by
  unfold skipFraction at h
  split at h
  · split at h
    · cases h
    · exact Nat.le_succ_of_le
        (Nat.le_trans (length_of_skipExponent h) (length_afterDigits_le _))
  · exact length_of_skipExponent h

theorem length_of_skipNumber {cs rest : List Char} (h : skipNumber cs = .ok rest) :
    rest.length < cs.length := by
  unfold skipNumber at h
  split at h
  · cases h
  · split at h
    · cases h
    · exact Nat.lt_succ_of_le (length_of_skipFraction h)
  · split at h
    · next hd =>
        exact Nat.lt_succ_of_le
          (Nat.le_trans (length_of_skipFraction h) (length_afterDigits_cons _ hd))
    · cases h

end LineLexer.Json
