import LineLexer.Cursor
import LineLexer.Event
import LineLexer.Lexeme
import LineLexer.Options

/-!
The classifier: one call looks at the character in front of the cursor and passes over a blank,
makes a token, or gives the line up; each token is told of when it is made. A call is written for
any way to handle the cursor; in use, what would reach beyond the line is clamped to it. Where
nothing has to be clamped, a call carries out the decision of `Lexeme.step`.
-/

namespace LineLexer.Classifier

/-- A scan on its way through a line, with the tokens found so far. -/
structure State where
  cursor : Cursor
  found : Array Token
  /-- The events told so far. -/
  told : Array Event

/-- Tells of a token and keeps it; it ends at the given cursor. -/
def State.add (s : State) (cursor : Cursor) (kind : Token.Kind) (lexeme : String) : State :=
  let token : Token := ⟨kind, lexeme, cursor.line⟩
  ⟨cursor, s.found.push token, s.told.push (.token token)⟩

/-- What comes of a call. -/
inductive Verdict
  | goOn
  | giveUp (diagnostic : Option Diagnostic)

/-- The ways in which a call moves the cursor, measures a string and cuts texts out of the line. -/
structure Handling (m : Type → Type) where
  advance : Cursor → Nat → m Cursor
  slice : Cursor → Nat → Nat → m String
  preview : Cursor → Nat → m String
  /-- How many characters there are from one offset to another, both included. -/
  width : Nat → Nat → m Nat

/-- What reaches beyond the line is clamped to it. -/
def clamped : Handling Id where
  advance c n := c.advance n
  slice c first last := c.slice first last
  preview c n := c.preview n
  width first last := last + 1 - first

section

variable {m : Type → Type} [Monad m] (h : Handling m) (o : Options) (s : State)

/-- Makes the next `width` characters a token. -/
def consume (width : Nat) (kind : Token.Kind) : m State := do
  let cursor ← h.advance s.cursor width
  let lexeme ← h.slice cursor s.cursor.offset cursor.offset
  return s.add cursor kind lexeme

/-- Makes a token of two characters if `second` follows, else of one. -/
def consumeOneOrTwo (second : Char) (pair alone : Token.Kind) : m State :=
  if s.cursor.followedBy second then consume h s 2 pair else consume h s 1 alone

/-- Makes a token of the current character and all behind it that satisfy `part`. -/
def consumeRun (part : Char → Bool) (kind : String → Token.Kind) : m State := do
  let next ← h.advance s.cursor 1
  let cursor := next.eatWhile part
  let lexeme ← h.slice cursor s.cursor.offset cursor.offset
  return s.add cursor (kind lexeme) lexeme

/-- The diagnostic of an open string, if one is asked for. -/
def openString : m (Option Diagnostic) := do
  match o.openStrings with
  | .report => return some (.unterminated s.cursor.line (← h.preview s.cursor o.width))
  | .silent => return none

/-- A string runs to the next quote; without one the line is given up. -/
def scanString : m (Verdict × State) := do
  match s.cursor.findAfter? '"' with
  | some close => return (.goOn, ← consume h s (← h.width s.cursor.offset close) .string)
  | none => return (.giveUp (← openString h o s), { s with cursor := s.cursor.toEnd })

/-- An operator or a bracket; any other character is not recognized. -/
def scanFixed (c : Char) : m (Verdict × State) := do
  match Lexeme.single? c, Lexeme.extension? c with
  | some alone, some (second, pair) => return (.goOn, ← consumeOneOrTwo h s second pair alone)
  | some alone, none => return (.goOn, ← consume h s 1 alone)
  | none, _ =>
    let context ← h.preview s.cursor o.width
    return (.giveUp (some (.unrecognized s.cursor.line c context)), s)

/-- One call of the classifier. -/
def scanToken : m (Verdict × State) := do
  match s.cursor.current? with
  | none => return (.goOn, s)
  | some c =>
    if Text.isBlank c then return (.goOn, { s with cursor := ← h.advance s.cursor 1 })
    else if c == '"' then scanString h o s
    else if c.isDigit then return (.goOn, ← consumeRun h s Char.isDigit fun _ => .number)
    else if Text.isWordStart c then
      return (.goOn, ← consumeRun h s Text.isWordPart o.vocabulary.classify)
    else scanFixed h o s c

end

/-! ### A call and the decision that it carries out -/

/-- A handling that does what it is asked wherever the line allows it. -/
structure Handling.Lawful {m : Type → Type} [Monad m] (h : Handling m) : Prop where
  advance : ∀ {c : Cursor} {n : Nat}, n ≤ c.ahead.length → h.advance c n = pure (c.skip n)
  slice : ∀ {c : Cursor} {first last : Nat}, first ≤ last → last ≤ c.chars.size →
    h.slice c first last = pure (c.slice first last)
  preview : ∀ (c : Cursor) (o : Options), h.preview c o.width = pure (c.next o.width)
  width : ∀ {first last : Nat}, first < last → h.width first last = pure (last + 1 - first)

theorem lawful_clamped : clamped.Lawful where
  advance fits := Cursor.advance_eq (Cursor.lt_wordSize_of_le (.inl fits))
  slice _ _ := rfl
  preview c o := by
    have small : 2 * o.width < UInt64.size :=
      Nat.lt_of_le_of_lt (Nat.mul_le_mul_left 2 o.width_le) (by decide)
    exact Cursor.preview_eq (Cursor.lt_wordSize_of_le (.inr small))
  width _ := rfl

/-- A scan behind the token that the next `width` characters make. -/
def State.take (s : State) (kind : Token.Kind) (width : Nat) : State :=
  s.add (s.cursor.skip width) kind (s.cursor.next width)

/-- What an open string is worth. -/
def State.openString (o : Options) (s : State) : Option Diagnostic :=
  match o.openStrings with
  | .report => some (.unterminated s.cursor.line (s.cursor.next o.width))
  | .silent => none

/-- What a decision in front of `c` makes of a scan. -/
def State.follow (o : Options) (s : State) (c : Char) : Lexeme.Step → Verdict × State
  | .blank => (.goOn, { s with cursor := s.cursor.skip 1 })
  | .lexeme kind width => (.goOn, s.take kind width)
  | .stop .unterminatedString => (.giveUp (s.openString o), { s with cursor := s.cursor.toEnd })
  | .stop .unrecognizedCharacter =>
    (.giveUp (some (.unrecognized s.cursor.line c (s.cursor.next o.width))), s)

/-- The first place of a character is behind all the others. -/
theorem idxOf?_eq (x : Char) (cs : List Char) :
    cs.idxOf? x =
      match cs.dropWhile (· != x) with
      | [] => none
      | _ :: _ => some (cs.takeWhile (· != x)).length := by
  induction cs with
  | nil => rfl
  | cons c cs ih =>
      rw [List.idxOf?_cons]
      split
      · next h => simp_all
      · next h =>
          rw [ih, List.dropWhile_cons_of_pos (by simpa using h),
            List.takeWhile_cons_of_pos (by simpa using h)]
          split <;> rfl

section

variable {m : Type → Type} [Monad m] [LawfulMonad m] {h : Handling m} (hl : h.Lawful) {s : State}

include hl

theorem consume_eq {width : Nat} (fits : width ≤ s.cursor.ahead.length) (kind : Token.Kind) :
    consume h s width kind = pure (s.take kind width) := by
  have forward : s.cursor.offset ≤ (s.cursor.skip width).offset := by
    rw [Cursor.offset_skip]
    exact Nat.le_add_right _ _
  rw [consume, hl.advance fits, pure_bind, hl.slice forward (s.cursor.skip width).offset_le,
    pure_bind, Cursor.slice_skip]
  rfl

theorem openString_eq (o : Options) : openString h o s = pure (s.openString o) := by
  rw [openString, State.openString]
  cases o.openStrings with
  | report => simp only [hl.preview, pure_bind]
  | silent => rfl

variable {c : Char} {rest : List Char} (ha : s.cursor.ahead = c :: rest)

include ha

theorem consumeRun_eq (part : Char → Bool) (kind : String → Token.Kind) :
    consumeRun h s part kind =
      pure (s.take (kind (String.ofList (c :: rest.takeWhile part)))
        ((rest.takeWhile part).length + 1)) := by
  have moved : (s.cursor.skip 1).eatWhile part =
      s.cursor.skip ((rest.takeWhile part).length + 1) := by
    rw [Cursor.eatWhile_eq, Cursor.skip_skip, Cursor.ahead_skip, ha, Nat.add_comm]
    rfl
  have forward : s.cursor.offset ≤ (s.cursor.skip ((rest.takeWhile part).length + 1)).offset := by
    rw [Cursor.offset_skip]
    exact Nat.le_add_right _ _
  rw [consumeRun, hl.advance (by simp [ha]), pure_bind, moved]
  simp only
  rw [hl.slice forward (Cursor.offset_le _), pure_bind, Cursor.slice_skip, State.take,
    Cursor.next_takeWhile ha]

theorem consumeOneOrTwo_eq (second : Char) (pair alone : Token.Kind) :
    consumeOneOrTwo h s second pair alone =
      pure (if rest.head? = some second then s.take pair 2 else s.take alone 1) := by
  rw [consumeOneOrTwo, Cursor.followedBy_eq, ha, List.tail_cons]
  by_cases hd : rest.head? = some second
  · -- The character that follows is one more than the current one.
    have fits : 2 ≤ s.cursor.ahead.length := by
      obtain ⟨ds, rfl⟩ := List.head?_eq_some_iff.mp hd
      simp [ha]
    rw [if_pos (by simp [hd]), if_pos hd]
    exact consume_eq hl fits pair
  · rw [if_neg (by simp [hd]), if_neg hd]
    exact consume_eq hl (by simp [ha]) alone

omit hl [Monad m] [LawfulMonad m] in
theorem findAfter?_of_ahead (x : Char) :
    s.cursor.findAfter? x =
      match rest.dropWhile (· != x) with
      | [] => none
      | _ :: _ => some (s.cursor.offset + 1 + (rest.takeWhile (· != x)).length) := by
  rw [Cursor.findAfter?_eq, ha, List.tail_cons, idxOf?_eq]
  cases rest.dropWhile (· != x) <;> rfl

theorem scanFixed_eq (o : Options) :
    scanFixed h o s c =
      pure (s.follow o c (match Lexeme.fixed? c rest with
        | some (kind, width) => .lexeme kind width
        | none => .stop .unrecognizedCharacter)) := by
  rw [scanFixed, Lexeme.fixed?, Lexeme.bind_pair?_eq]
  cases hs : Lexeme.single? c with
  | none =>
      rw [Lexeme.extension?_eq_none hs]
      simp only [hl.preview, pure_bind]
      rfl
  | some alone =>
      cases Lexeme.extension? c with
      | none =>
          have fits : 1 ≤ s.cursor.ahead.length := by simp [ha]
          simp only [consume_eq hl fits, pure_bind]
          rfl
      | some e =>
          simp only [consumeOneOrTwo_eq hl ha, pure_bind, Option.bind_some]
          by_cases hd : rest.head? = some e.1
          · rw [if_pos hd, if_pos hd]
            rfl
          · rw [if_neg hd, if_neg hd]
            rfl

theorem scanString_eq (o : Options) :
    scanString h o s =
      pure (s.follow o c (match rest.dropWhile (· != '"') with
        | _ :: _ => .lexeme .string ((rest.takeWhile (· != '"')).length + 2)
        | [] => .stop .unterminatedString)) := by
  rw [scanString, findAfter?_of_ahead ha]
  cases hd : rest.dropWhile (· != '"') with
  | nil =>
      simp only [openString_eq hl, pure_bind]
      rfl
  | cons d ds =>
      -- The closing quote is one more than what is between the two.
      have fits : (rest.takeWhile (· != '"')).length + 2 ≤ s.cursor.ahead.length := by
        have hlen := congrArg List.length
          (List.takeWhile_append_dropWhile (p := (· != '"')) (l := rest))
        simp only [hd, List.length_append, List.length_cons] at hlen
        rw [ha, List.length_cons]
        omega
      have behind : s.cursor.offset < s.cursor.offset + 1 + (rest.takeWhile (· != '"')).length := by
        omega
      have width (n : Nat) : s.cursor.offset + 1 + n + 1 - s.cursor.offset = n + 2 := by omega
      simp only [hl.width behind, pure_bind, width, consume_eq hl fits]
      rfl

theorem scanToken_eq (o : Options) :
    scanToken h o s = pure (s.follow o c (Lexeme.step o.vocabulary c rest)) := by
  have hc : s.cursor.current? = some c := by rw [Cursor.current?_eq, ha, List.head?_cons]
  rw [scanToken, hc, Lexeme.step]
  simp only
  by_cases hb : Text.isBlank c
  · rw [if_pos hb, if_pos hb, hl.advance (by simp [ha]), pure_bind]
    rfl
  rw [if_neg hb, if_neg hb]
  by_cases hq : c == '"'
  · rw [if_pos hq, if_pos hq]
    exact scanString_eq hl ha o
  rw [if_neg hq, if_neg hq]
  by_cases hd : c.isDigit
  · rw [if_pos hd, if_pos hd, consumeRun_eq hl ha, pure_bind]
    rfl
  rw [if_neg hd, if_neg hd]
  by_cases hw : Text.isWordStart c
  · rw [if_pos hw, if_pos hw, consumeRun_eq hl ha, pure_bind]
    rfl
  rw [if_neg hw, if_neg hw]
  exact scanFixed_eq hl ha o

end

theorem scanToken_clamped {s : State} {c : Char} {rest : List Char}
    (ha : s.cursor.ahead = c :: rest) (o : Options) :
    Id.run (scanToken clamped o s) = s.follow o c (Lexeme.step o.vocabulary c rest) :=
  scanToken_eq lawful_clamped ha o

/-- A call after which a scan goes on has moved the cursor. -/
theorem length_ahead_of_goOn {o : Options} {s next : State} (h : ¬ s.cursor.atEnd = true)
    (hs : Id.run (scanToken clamped o s) = (.goOn, next)) :
    next.cursor.ahead.length < s.cursor.ahead.length := by
  cases ha : s.cursor.ahead with
  | nil => exact absurd (s.cursor.atEnd_iff.mpr ha) h
  | cons c rest =>
      rw [scanToken_clamped ha] at hs
      cases hd : Lexeme.step o.vocabulary c rest with
      | blank =>
          rw [hd] at hs
          cases hs
          simp [ha]
      | lexeme kind width =>
          have hw := (Lexeme.width_of_step hd).1
          rw [hd] at hs
          cases hs
          simp only [State.take, State.add, Cursor.ahead_skip, ha, List.length_drop,
            List.length_cons]
          omega
      | stop cause =>
          rw [hd] at hs
          cases cause <;> cases hs

end LineLexer.Classifier
