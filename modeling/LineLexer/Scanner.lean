import LineLexer.LineScan
import LineLexer.Report.Basic
import LineLexer.Text.Line

/-!
The loop over the lines of a source. What is found is kept for all lines together, and every event
is told when it happens. Each line has a cursor of its own; in fail-fast mode the first diagnostic
ends the loop and is handed out.
-/

namespace LineLexer

/-- What a scan has found, counted and told so far. -/
structure Scanner where
  tokens : Array Token := #[]
  diagnostics : Array Diagnostic := #[]
  linesScanned : Nat := 0
  linesAbandoned : Nat := 0
  told : Array Event := #[]

namespace Scanner

def tell (s : Scanner) (e : Event) : Scanner := { s with told := s.told.push e }

/-- Counts a line of which a part was given up, and tells why. -/
def abandon (s : Scanner) (e : Event) : Scanner :=
  { s with linesAbandoned := s.linesAbandoned + 1 }.tell e

def start (source : String) : Scanner := tell {} (.started source.utf8ByteSize)

/-- Scans one more line. -/
def scanLine (o : Options) (s : Scanner) (number : Nat) (text : List Char) :
    Scanner × Option Diagnostic :=
  let (tokens, told, ending) := LineScan.scanLine o ⟨.start number text, s.tokens, s.told⟩
  let s := { s with tokens, told, linesScanned := s.linesScanned + 1 }
  match ending with
  | .complete => (s, none)
  | .dropped => (s.abandon (.dropped number), none)
  | .diagnosed d =>
    let s := s.abandon (.diagnosed d)
    match o.recovery with
    | .failFast => (s, some d)
    | .skipLine => ({ s with diagnostics := s.diagnostics.push d }, none)

/-- Scans consecutive lines, the first of which has the given number. -/
def scanLines (o : Options) (s : Scanner) (number : Nat) :
    List (List Char) → Scanner × Option Diagnostic
  | [] => (s, none)
  | text :: texts =>
    match s.scanLine o number text with
    | (s, some d) => (s, some d)
    | (s, none) => scanLines o s (number + 1) texts

/-- Scans a source to its end, or to the diagnostic that ends the loop. -/
def run (o : Options) (source : String) : Scanner × Option Diagnostic :=
  match scanLines o (start source) 1 (Text.lines source.toList) with
  | (s, some d) => (s, some d)
  | (s, none) => (s.tell (.finished s.linesScanned s.tokens.size s.diagnostics.size), none)

def report (s : Scanner) : Report :=
  ⟨s.tokens.toList, s.diagnostics.toList, s.linesScanned, s.linesAbandoned⟩

end Scanner
end LineLexer
