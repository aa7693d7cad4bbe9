import LineLexer.Failure
import LineLexer.Scanner

/-!
The scan of whole texts: its outcome, and what it has to tell. The diagnostic that ends the loop
over the lines is the failure of the scan; without one the scan cannot fail.
-/

namespace LineLexer

def scan (o : Options) (source : String) : Except Failure Report :=
  match Scanner.run o source with
  | (_, some d) => .error (.scan d)
  | (s, none) => .ok s.report

/-- What the scan of a source has to tell, in order. -/
def events (o : Options) (source : String) : List Event := (Scanner.run o source).1.told.toList

/-- The report on a source under the default options. -/
def report (source : String) : Report := (Scanner.run {} source).1.report

/-- Scans several sources; the first failure in their order is the failure of all. -/
def scanAll (o : Options) (sources : List String) : Except Failure (List Report) :=
  sources.mapM (scan o)

end LineLexer
