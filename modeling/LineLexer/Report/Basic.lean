import LineLexer.Diagnostic
import LineLexer.Token.Basic

/-!
The report of a scan: tokens and diagnostics in source order, and two counts of lines.
-/

namespace LineLexer

structure Report where
  tokens : List Token
  diagnostics : List Diagnostic
  /-- The lines that were looked at. -/
  linesScanned : Nat
  /-- The lines of which a part was given up. -/
  linesAbandoned : Nat
  deriving DecidableEq, Repr

namespace Report

/-- Whether nothing was worth a diagnostic. -/
def isClean (r : Report) : Bool := r.diagnostics.isEmpty

def messages (r : Report) : List String := r.diagnostics.map (·.message)

end Report
end LineLexer
