import LineLexer.LineScan

/-!
The scan of a line told without its cursor: the decisions of `Lexeme.step` one after another, each
in front of what the one before it has left. A line is scanned as it is walked.
-/

namespace LineLexer.LineScan

open Classifier

/-- Where a scan came to a halt: the cause and what was left of the line. -/
structure Halt where
  cause : Diagnostic.Cause
  character : Char
  rest : List Char

/-- The tokens from the cursor on, behind those found before, and the halt if there is one. -/
def walk (v : Vocabulary) (cursor : Cursor) (found : Array Token) : List Token × Option Halt :=
  match _ : cursor.ahead with
  | [] => (found.toList, none)
  | c :: rest =>
    match _ : Lexeme.step v c rest with
    | .blank => walk v (cursor.skip 1) found
    | .lexeme kind width =>
      walk v (cursor.skip width) (found.push ⟨kind, cursor.next width, cursor.line⟩)
    | .stop cause => (found.toList, some ⟨cause, c, rest⟩)
termination_by cursor.ahead.length
decreasing_by
  · simp [*]
  · have := (Lexeme.width_of_step ‹_›).1
    simp only [Cursor.ahead_skip, List.length_drop, *, List.length_cons]
    omega

section

variable {v : Vocabulary} {cursor : Cursor} {c : Char} {rest : List Char} (found : Array Token)

theorem walk_nil (h : cursor.ahead = []) : walk v cursor found = (found.toList, none) := by
  rw [walk]
  split <;> simp_all

theorem walk_blank (h : cursor.ahead = c :: rest) (hs : Lexeme.step v c rest = .blank) :
    walk v cursor found = walk v (cursor.skip 1) found := by
  rw [walk]
  split
  · simp_all
  · split <;> simp_all

theorem walk_lexeme {kind : Token.Kind} {width : Nat} (h : cursor.ahead = c :: rest)
    (hs : Lexeme.step v c rest = .lexeme kind width) :
    walk v cursor found =
      walk v (cursor.skip width) (found.push ⟨kind, cursor.next width, cursor.line⟩) := by
  rw [walk]
  split
  · simp_all
  · split <;> simp_all

theorem walk_stop {cause : Diagnostic.Cause} (h : cursor.ahead = c :: rest)
    (hs : Lexeme.step v c rest = .stop cause) :
    walk v cursor found = (found.toList, some ⟨cause, c, rest⟩) := by
  rw [walk]
  split
  · simp_all
  · split <;> simp_all

/-- What was found before only stands in front of what is found. -/
theorem walk_eq_append (v : Vocabulary) (cursor : Cursor) :
    walk v cursor found =
      (found.toList ++ (walk v cursor #[]).1, (walk v cursor #[]).2) := by
  induction hn : cursor.ahead.length using Nat.strongRecOn generalizing cursor found with
  | ind n ih =>
      subst hn
      cases h : cursor.ahead with
      | nil => simp [walk_nil _ h]
      | cons c rest =>
          cases hs : Lexeme.step v c rest with
          | blank =>
              rw [walk_blank found h hs, walk_blank #[] h hs]
              exact ih _ (by simp [h]) found _ rfl
          | lexeme kind width =>
              have hw := (Lexeme.width_of_step hs).1
              have hl : (cursor.skip width).ahead.length < cursor.ahead.length := by
                simp only [Cursor.ahead_skip, List.length_drop, h, List.length_cons]
                omega
              rw [walk_lexeme found h hs, walk_lexeme #[] h hs, ih _ hl (found.push _) _ rfl,
                ih _ hl (#[].push _) _ rfl]
              simp
          | stop cause => simp [walk_stop _ h hs]

end

/-- The beginning of what was left, as wide as the options ask for. -/
def Halt.context (h : Halt) (width : Nat) : String :=
  String.ofList ((h.character :: h.rest).take width)

/-- What the options make of a halt on a line. -/
def Ending.ofHalt (o : Options) (line : Nat) : Option Halt → Ending
  | none => .complete
  | some h =>
    match h.cause, o.openStrings with
    | .unterminatedString, .silent => .dropped
    | .unterminatedString, .report => .diagnosed (.unterminated line (h.context o.width))
    | .unrecognizedCharacter, _ =>
      .diagnosed (.unrecognized line h.character (h.context o.width))

/-- What has been found and told before only stands in front: a line is scanned as if on its own, and
each token that is found is told of. -/
theorem scanLine_eq (o : Options) (s : State) :
    scanLine o s =
      let (tokens, halt) := walk o.vocabulary s.cursor #[]
      (s.found ++ tokens.toArray, s.told ++ (tokens.map Event.token).toArray,
        .ofHalt o s.cursor.line halt) := by
  -- On what is left of the line, in the steps of `walk`; the line number stays.
  induction hn : s.cursor.ahead.length using Nat.strongRecOn generalizing s with
  | ind n ih =>
      subst hn
      cases h : s.cursor.ahead with
      | nil => simp [scanLine_nil o h, walk_nil _ h, Ending.ofHalt]
      | cons c rest =>
          rw [scanLine_cons o h]
          cases hs : Lexeme.step o.vocabulary c rest with
          | blank =>
              rw [walk_blank _ h hs]
              exact ih _ (by simp [h]) { s with cursor := s.cursor.skip 1 } rfl
          | lexeme kind width =>
              have hw := (Lexeme.width_of_step hs).1
              have next := ih _ (by simp [State.take, State.add, h]; omega) (s.take kind width) rfl
              rw [walk_lexeme _ h hs, walk_eq_append]
              refine next.trans ?_
              simp [State.take, State.add]
          | stop cause =>
              have shown : s.cursor.next o.width = (Halt.mk cause c rest).context o.width := by
                rw [Cursor.next, h, Halt.context]
              rw [walk_stop _ h hs]
              cases cause with
              | unrecognizedCharacter =>
                  simp only [State.follow, shown]
                  simp [Ending.abandoned, Ending.ofHalt]
              | unterminatedString =>
                  simp only [State.follow, State.openString, Ending.ofHalt]
                  cases o.openStrings with
                  | report => simp [shown, Ending.abandoned]
                  | silent => simp [Ending.abandoned]

theorem ofLine_eq (o : Options) (number : Nat) (text : List Char) :
    ofLine o number text =
      let (tokens, halt) := walk o.vocabulary (.start number text) #[]
      ⟨number, tokens, .ofHalt o number halt⟩ := by
  rw [ofLine, scanLine_eq]
  simp

/-- What follows a diagnostic is not decided within the line. -/
theorem ofLine_recovery (o : Options) (p : Recovery) (number : Nat) (text : List Char) :
    ofLine { o with recovery := p } number text = ofLine o number text := by
  rw [ofLine_eq, ofLine_eq]
  rfl

end LineLexer.LineScan
