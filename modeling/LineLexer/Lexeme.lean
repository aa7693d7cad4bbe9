import LineLexer.Diagnostic
import LineLexer.Text.CharClass
import LineLexer.Vocabulary

/-!
What comes next on a line. The decision looks only at the characters that are left; it passes over a
blank, takes the longest lexeme that starts here, or stops because none does.
-/

namespace LineLexer.Lexeme

inductive Step
  | blank
  | lexeme (kind : Token.Kind) (width : Nat)
  | stop (cause : Diagnostic.Cause)
  deriving DecidableEq, Repr

/-- The lexemes of two fixed characters. -/
def pair? : Char → Char → Option Token.Kind
  | '*', '*' => some .power
  | '=', '=' => some .equalEqual
  | '!', '=' => some .bangEqual
  | '<', '=' => some .lessEqual
  | _, _ => none

/-- The lexemes of one fixed character. -/
def single? : Char → Option Token.Kind
  | ';' => some .semicolon
  | '(' => some .leftParen
  | ')' => some .rightParen
  | '\x7b' => some .leftBrace
  | '\x7d' => some .rightBrace
  | '+' => some .plus
  | '-' => some .minus
  | '/' => some .slash
  | '^' => some .power
  | '*' => some .star
  | '=' => some .equal
  | '!' => some .bang
  | '<' => some .less
  | _ => none

/-- The operators that one more character extends: that character and the kind of both together. -/
def extension? : Char → Option (Char × Token.Kind)
  | '*' => some ('*', .power)
  | '=' => some ('=', .equalEqual)
  | '!' => some ('=', .bangEqual)
  | '<' => some ('=', .lessEqual)
  | _ => none

/-- The longest operator or bracket at the head of `c :: rest`, with its width. -/
def fixed? (c : Char) (rest : List Char) : Option (Token.Kind × Nat) :=
  match rest.head?.bind (pair? c) with
  | some kind => some (kind, 2)
  | none => (single? c).map (·, 1)

/-- The decision in front of `c :: rest`. A string runs to the next quote, whatever lies between. -/
def step (v : Vocabulary) (c : Char) (rest : List Char) : Step :=
  if Text.isBlank c then .blank
  else if c == '"' then
    match rest.dropWhile (· != '"') with
    | _ :: _ => .lexeme .string ((rest.takeWhile (· != '"')).length + 2)
    | [] => .stop .unterminatedString
  else if c.isDigit then .lexeme .number ((rest.takeWhile Char.isDigit).length + 1)
  else if Text.isWordStart c then
    let tail := rest.takeWhile Text.isWordPart
    .lexeme (v.classify (String.ofList (c :: tail))) (tail.length + 1)
  else
    match fixed? c rest with
    | some (kind, width) => .lexeme kind width
    | none => .stop .unrecognizedCharacter

theorem pair?_eq (c d : Char) :
    pair? c d = (extension? c).bind fun e => if d = e.1 then some e.2 else none := by
  fun_cases pair? c d with
  | case1 | case2 | case3 | case4 => simp [extension?]
  | case5 => fun_cases extension? c <;> simp_all

/-- A lexeme of two characters is told by the extension of its first one. -/
theorem bind_pair?_eq (c : Char) (next : Option Char) :
    next.bind (pair? c) =
      (extension? c).bind fun e => if next = some e.1 then some e.2 else none := by
  cases next with
  | none => cases extension? c <;> rfl
  | some d => simp [pair?_eq]

theorem extension?_eq_none {c : Char} (h : single? c = none) : extension? c = none := by
  fun_cases extension? c <;> simp_all [single?]

theorem width_of_fixed? {c : Char} {rest : List Char} {kind : Token.Kind} {width : Nat}
    (h : fixed? c rest = some (kind, width)) : 0 < width ∧ width ≤ rest.length + 1 := by
  unfold fixed? at h
  split at h
  · next k hk =>
      cases rest with
      | nil => simp at hk
      | cons d ds => simp_all; omega
  · simp only [Option.map_eq_some_iff, Prod.mk.injEq] at h
    obtain ⟨_, _, _, rfl⟩ := h
    omega

/-- A lexeme takes at least one character and no more than there are. -/
theorem width_of_step {v : Vocabulary} {c : Char} {rest : List Char} {kind : Token.Kind}
    {width : Nat} (h : step v c rest = .lexeme kind width) :
    0 < width ∧ width ≤ rest.length + 1 := by
  have take_le (p : Char → Bool) : (rest.takeWhile p).length ≤ rest.length :=
    (List.takeWhile_prefix p).length_le
  unfold step at h
  split at h
  · simp at h
  · split at h
    · split at h
      · next d ds hd =>
          have hl := congrArg List.length
            (List.takeWhile_append_dropWhile (p := (· != '"')) (l := rest))
          simp only [hd, List.length_append, List.length_cons] at hl
          simp only [Step.lexeme.injEq] at h
          omega
      · simp at h
    · split at h
      · simp only [Step.lexeme.injEq] at h
        have := take_le Char.isDigit
        omega
      · split at h
        · simp only [Step.lexeme.injEq] at h
          have := take_le Text.isWordPart
          omega
        · split at h
          · next k w hf =>
              simp only [Step.lexeme.injEq] at h
              obtain ⟨rfl, rfl⟩ := h
              exact width_of_fixed? hf
          · simp at h

end LineLexer.Lexeme
