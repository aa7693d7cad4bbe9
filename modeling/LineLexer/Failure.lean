import LineLexer.Diagnostic

/-!
The ways in which a request can fail as a whole. A scan fails only when it was told to stop at the
first diagnostic; everything else lies outside of scanning.
-/

namespace LineLexer

inductive Failure
  | scan (diagnostic : Diagnostic)
  | unreadable (path : String) (reason : String)
  | configuration (reason : String)
  deriving DecidableEq, Repr

/-- Whether a scan could have gone on past the failure. -/
inductive Severity
  | recoverable | fatal
  deriving DecidableEq, Repr

def Severity.name : Severity → String
  | recoverable => "Recoverable"
  | fatal => "Fatal"

namespace Failure

def message : Failure → String
  | scan d => d.message
  | unreadable path reason => s!"Cannot read '{path}': {reason}"
  | configuration reason => s!"Invalid configuration: {reason}"

def severity : Failure → Severity
  | scan _ => .recoverable
  | unreadable .. | configuration _ => .fatal

/-- The line to blame, for failures of a scan. -/
def line? : Failure → Option Nat
  | scan d => some d.line
  | unreadable .. | configuration _ => none

end Failure
end LineLexer
