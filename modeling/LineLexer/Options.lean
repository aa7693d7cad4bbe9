import LineLexer.Diagnostic
import LineLexer.Vocabulary

/-!
How to scan: what to do about a line that cannot be finished, whether an open string is worth a
diagnostic, which words are reserved, and how much context to record.
-/

namespace LineLexer

/-- What follows a diagnostic. -/
inductive Recovery
  | skipLine | failFast
  deriving DecidableEq, Repr

/-- What an unterminated string is worth. -/
inductive OpenStrings
  | report | silent
  deriving DecidableEq, Repr

def Recovery.name : Recovery → String
  | skipLine => "report-and-skip-line"
  | failFast => "fail-fast"

def OpenStrings.name : OpenStrings → String
  | report => "report"
  | silent => "silent"

structure Options where
  recovery : Recovery := .skipLine
  openStrings : OpenStrings := .report
  vocabulary : Vocabulary := .current
  contextWidth : Nat := Diagnostic.longestContext
  deriving DecidableEq, Repr

namespace Options

/-- The context width in force: at least one character, at most the longest context. -/
def width (o : Options) : Nat := max 1 (min o.contextWidth Diagnostic.longestContext)

theorem width_pos (o : Options) : 0 < o.width := by unfold width; omega

theorem width_le (o : Options) : o.width ≤ Diagnostic.longestContext := by
  simp only [width, Diagnostic.longestContext]; omega

end Options
end LineLexer
