import LineLexer.Classifier

/-!
The scan of one line: the classifier is called until the line is at its end or given up. Each line
is scanned on its own, so nothing that happens on one can reach another.
-/

namespace LineLexer

/-- How the scan of a line ended. -/
inductive LineScan.Ending
  /-- Every character was used. -/
  | complete
  /-- The rest was given up without a word. -/
  | dropped
  /-- The rest was given up with a diagnostic. -/
  | diagnosed (diagnostic : Diagnostic)
  deriving DecidableEq, Repr

structure LineScan where
  number : Nat
  tokens : List Token
  ending : LineScan.Ending
  deriving DecidableEq, Repr

namespace LineScan

open Classifier

/-- The end of a line that was given up. -/
def Ending.abandoned : Option Diagnostic → Ending
  | some d => .diagnosed d
  | none => .dropped

def Ending.diagnostic? : Ending → Option Diagnostic
  | diagnosed d => some d
  | complete | dropped => none

/-- Whether a part of the line was given up. -/
def Ending.isAbandoned : Ending → Bool
  | complete => false
  | dropped | diagnosed _ => true

/-- The tokens of a line behind those found before, what has been told of them, and how the line
ended. -/
def scanLine (o : Options) (s : State) : Array Token × Array Event × Ending :=
  if _ : s.cursor.atEnd then (s.found, s.told, .complete)
  else
    match _ : Id.run (scanToken clamped o s) with
    | (.goOn, next) => scanLine o next
    | (.giveUp diagnostic, next) => (next.found, next.told, .abandoned diagnostic)
termination_by s.cursor.ahead.length
decreasing_by exact length_ahead_of_goOn ‹_› ‹_›

/-- The scan of a line on its own. -/
def ofLine (o : Options) (number : Nat) (text : List Char) : LineScan :=
  let (tokens, _, ending) := scanLine o ⟨.start number text, #[], #[]⟩
  ⟨number, tokens.toList, ending⟩

def diagnostic? (s : LineScan) : Option Diagnostic := s.ending.diagnostic?

@[simp] theorem number_ofLine (o : Options) (number : Nat) (text : List Char) :
    (ofLine o number text).number = number := rfl

theorem isAbandoned_of_diagnostic? {s : LineScan} {d : Diagnostic} (h : s.diagnostic? = some d) :
    s.ending.isAbandoned = true := by
  cases he : s.ending <;> simp_all [diagnostic?, Ending.diagnostic?, Ending.isAbandoned]

section

variable (o : Options) {s : State} {c : Char} {rest : List Char}

theorem scanLine_nil (h : s.cursor.ahead = []) : scanLine o s = (s.found, s.told, .complete) := by
  rw [scanLine, dif_pos (s.cursor.atEnd_iff.mpr h)]

theorem scanLine_cons (h : s.cursor.ahead = c :: rest) :
    scanLine o s =
      match s.follow o c (Lexeme.step o.vocabulary c rest) with
      | (.goOn, next) => scanLine o next
      | (.giveUp diagnostic, next) => (next.found, next.told, .abandoned diagnostic) := by
  have he : ¬ s.cursor.atEnd = true := by simp [Cursor.atEnd_iff, h]
  rw [scanLine, dif_neg he]
  split
  · next hs => rw [← scanToken_clamped h, hs]
  · next hs => rw [← scanToken_clamped h, hs]

end

end LineScan
end LineLexer
