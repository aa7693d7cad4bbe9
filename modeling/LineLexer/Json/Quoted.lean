import LineLexer.Json.Fault

/-!
Strings of JSON documents. Reading undoes the escapes; an escape of one half of a surrogate pair has
to be followed by the other half. Writing escapes quotes, backslashes and control characters only.
-/

namespace LineLexer.Json

/-- The characters that have a one-letter escape, with the letter. -/
def letterEscapes : List (Char × Char) :=
  [('"', '"'), ('\\', '\\'), ('/', '/'), ('\x08', 'b'), ('\x0c', 'f'), ('\n', 'n'), ('\r', 'r'),
    ('\t', 't')]

def unescape? (letter : Char) : Option Char :=
  (letterEscapes.find? (·.2 == letter)).map (·.1)

def hexValue? (c : Char) : Option Nat :=
  if c.isDigit then some (c.toNat - '0'.toNat)
  else if 'a' ≤ c ∧ c ≤ 'f' then some (c.toNat - 'a'.toNat + 10)
  else if 'A' ≤ c ∧ c ≤ 'F' then some (c.toNat - 'A'.toNat + 10)
  else none

/-- The number of four hexadecimal digits at the head of a text. -/
def unit? : List Char → Option (Nat × List Char)
  | a :: b :: c :: d :: rest =>
    match hexValue? a, hexValue? b, hexValue? c, hexValue? d with
    | some a, some b, some c, some d => some (((a * 16 + b) * 16 + c) * 16 + d, rest)
    | _, _, _, _ => none
  | _ => none

/-- Four hexadecimal digits. Four bytes are looked at, whatever they turn out to be. -/
def readUnit (cs : List Char) : Except Fault (Nat × List Char) :=
  match unit? cs with
  | some found => .ok found
  | none =>
    if byteSize cs < 4 then .error ⟨.unfinished .string, 0⟩
    else .error ⟨.invalidEscape, byteSize cs - 4⟩

theorem length_of_readUnit {cs rest : List Char} {n : Nat} (h : readUnit cs = .ok (n, rest)) :
    rest.length < cs.length := by
  unfold readUnit at h
  split at h
  · next found hu =>
      cases h
      unfold unit? at hu
      split at hu
      · split at hu
        · simp only [Option.some.injEq, Prod.mk.injEq] at hu
          simp only [← hu.2, List.length_cons]
          omega
        · simp at hu
      · simp at hu
  · split at h <;> simp at h

def isHighSurrogate (n : Nat) : Bool := 0xd800 ≤ n && n < 0xdc00

def isLowSurrogate (n : Nat) : Bool := 0xdc00 ≤ n && n < 0xe000

def ofSurrogates (high low : Nat) : Char :=
  Char.ofNat (0x10000 + (high - 0xd800) * 0x400 + (low - 0xdc00))

/-- The fault of a text that goes on with `rest` where the second half of a pair is wanted. -/
def unpaired (rest : List Char) : Fault :=
  if rest.isEmpty then .on (.unfinished .string) rest else .on .unpairedSurrogate rest

/-- The second half of a surrogate pair. -/
def readLowSurrogate (high : Nat) : List Char → Except Fault (Char × List Char)
  | '\\' :: 'u' :: rest => do
    let (low, rest) ← readUnit rest
    if isLowSurrogate low then .ok (ofSurrogates high low, rest)
    else .error (.before .loneSurrogate rest)
  | '\\' :: rest => .error (unpaired rest)
  | rest => .error (unpaired rest)

/-- The character of a numeric escape, behind its letter. -/
def readCodePoint (cs : List Char) : Except Fault (Char × List Char) := do
  let (n, rest) ← readUnit cs
  if isLowSurrogate n then .error (.before .loneSurrogate rest)
  else if isHighSurrogate n then readLowSurrogate n rest
  else .ok (Char.ofNat n, rest)

def readEscape : List Char → Except Fault (Char × List Char)
  | [] => .error (.on (.unfinished .string) [])
  | 'u' :: rest => readCodePoint rest
  | c :: rest =>
    match unescape? c with
    | some d => .ok (d, rest)
    | none => .error (.on .invalidEscape (c :: rest))

theorem length_of_readLowSurrogate {high : Nat} {cs rest : List Char} {c : Char}
    (h : readLowSurrogate high cs = .ok (c, rest)) : rest.length < cs.length := by
  unfold readLowSurrogate at h
  split at h
  · obtain ⟨⟨low, r⟩, hu, h⟩ := exists_of_bind_eq_ok h
    have := length_of_readUnit hu
    simp only at h
    split at h
    · simp only [Except.ok.injEq, Prod.mk.injEq] at h
      simp only [← h.2, List.length_cons]
      omega
    · cases h
  · cases h
  · cases h

theorem length_of_readCodePoint {cs rest : List Char} {c : Char}
    (h : readCodePoint cs = .ok (c, rest)) : rest.length < cs.length := by
  obtain ⟨⟨n, r⟩, hu, h⟩ := exists_of_bind_eq_ok h
  have := length_of_readUnit hu
  simp only at h
  split at h
  · cases h
  · split at h
    · have := length_of_readLowSurrogate h
      omega
    · simp only [Except.ok.injEq, Prod.mk.injEq] at h
      simp only [← h.2]
      omega

theorem length_of_readEscape {cs rest : List Char} {c : Char}
    (h : readEscape cs = .ok (c, rest)) : rest.length < cs.length := by
  unfold readEscape at h
  split at h
  · cases h
  · have := length_of_readCodePoint h
    simp only [List.length_cons]
    omega
  · split at h
    · cases h
      simp
    · cases h

/-- The characters up to the closing quote, behind those read before, and what follows it. -/
def readQuoted (read : Array Char) : List Char → Except Fault (String × List Char)
  | [] => .error (.on (.unfinished .string) [])
  | '"' :: rest => .ok (String.ofList read.toList, rest)
  | '\\' :: rest =>
    match _ : readEscape rest with
    | .ok (c, rest) => readQuoted (read.push c) rest
    | .error f => .error f
  | c :: rest =>
    if c < ' ' then .error (.before .controlCharacter rest) else readQuoted (read.push c) rest
termination_by cs => cs.length
decreasing_by
  · have := length_of_readEscape ‹_›
    simp only [List.length_cons]
    omega
  · simp

def readString (cs : List Char) : Except Fault (String × List Char) := readQuoted #[] cs

theorem length_of_readQuoted {read : Array Char} {cs rest : List Char} {s : String}
    (h : readQuoted read cs = .ok (s, rest)) : rest.length < cs.length := by
  fun_induction readQuoted read cs with
  | case1 => cases h
  | case2 => cases h; simp
  | case3 read r c r' he ih =>
      have := length_of_readEscape he
      have := ih h
      simp only [List.length_cons]
      omega
  | case4 => cases h
  | case5 => cases h
  | case6 read c r _ _ _ ih =>
      have := ih h
      simp only [List.length_cons]
      omega

theorem length_of_readString {cs rest : List Char} {s : String}
    (h : readString cs = .ok (s, rest)) : rest.length < cs.length := length_of_readQuoted h

/-- What follows an escape that nobody looks at, behind the backslash. Halves of surrogate pairs may
stand alone. -/
def skipEscape : List Char → Except Fault (List Char)
  | [] => .error (.on (.unfinished .string) [])
  | 'u' :: rest => (readUnit rest).map (·.2)
  | c :: rest =>
    match unescape? c with
    | some _ => .ok rest
    | none => .error (.on .invalidEscape (c :: rest))

theorem length_of_skipEscape {cs rest : List Char} (h : skipEscape cs = .ok rest) :
    rest.length < cs.length := by
  unfold skipEscape at h
  split at h
  · cases h
  · next r =>
      cases hu : readUnit r with
      | error f => simp [hu, Except.map] at h
      | ok found =>
          obtain ⟨n, r'⟩ := found
          have := length_of_readUnit hu
          simp only [hu, Except.map, Except.ok.injEq] at h
          simp only [← h, List.length_cons]
          omega
  · split at h
    · cases h
      simp
    · cases h

/-- What follows a string that nobody looks at, behind its opening quote. -/
def skipString : List Char → Except Fault (List Char)
  | [] => .error (.on (.unfinished .string) [])
  | '"' :: rest => .ok rest
  | '\\' :: rest =>
    match _ : skipEscape rest with
    | .ok rest => skipString rest
    | .error f => .error f
  | c :: rest =>
    if c < ' ' then .error (.before .controlCharacter (c :: rest)) else skipString rest
termination_by cs => cs.length
decreasing_by
  · have := length_of_skipEscape ‹_›
    simp only [List.length_cons]
    omega
  · simp

theorem length_of_skipString {cs rest : List Char} (h : skipString cs = .ok rest) :
    rest.length < cs.length := by
  fun_induction skipString cs with
  | case1 => cases h
  | case2 => cases h; simp
  | case3 r r' he ih =>
      have := length_of_skipEscape he
      have := ih h
      simp only [List.length_cons]
      omega
  | case4 => cases h
  | case5 => cases h
  | case6 c r _ _ _ ih =>
      have := ih h
      simp only [List.length_cons]
      omega

/-- The letters of escapes that are written; a slash needs none. -/
def escapeLetter? (c : Char) : Option Char :=
  if c = '/' then none else (letterEscapes.find? (·.1 == c)).map (·.2)

def hexDigit (n : Nat) : Char := Nat.digitChar (n % 16)

def writeChar (c : Char) : List Char :=
  match escapeLetter? c with
  | some letter => ['\\', letter]
  | none =>
    if c < ' ' then ['\\', 'u', '0', '0', hexDigit (c.toNat / 16), hexDigit c.toNat] else [c]

def writeString (s : String) : List Char := '"' :: s.toList.flatMap writeChar ++ ['"']

end LineLexer.Json
