import LineLexer.Json.Document
import LineLexer.Json.Record
import LineLexer.Json.Value
import LineLexer.Options

/-!
Options as a JSON document. Every field may be left out and then has its default; a field of any
other name is refused. Written options name every field.
-/

namespace LineLexer

def Recovery.choices : List (String × Recovery) :=
  [skipLine, failFast].map fun r => (r.name, r)

def OpenStrings.choices : List (String × OpenStrings) :=
  [report, silent].map fun s => (s.name, s)

namespace Options

/-- Options of which some have not been read. -/
structure Draft where
  recovery? : Option Recovery := none
  openStrings? : Option OpenStrings := none
  vocabulary? : Option Vocabulary := none
  contextWidth? : Option Nat := none

/-- The options of a draft, with defaults for what it lacks. -/
def Draft.toOptions (d : Draft) : Options :=
  let o : Options := {}
  ⟨d.recovery?.getD o.recovery, d.openStrings?.getD o.openStrings, d.vocabulary?.getD o.vocabulary,
    d.contextWidth?.getD o.contextWidth⟩

def form : Json.Record Draft Options where
  title := "struct ScanConfig"
  fields :=
    [.ofOption "on-error" (·.recovery?) (fun d r => { d with recovery? := some r })
      (.choice Recovery.choices),
     .ofOption "unterminated-strings" (·.openStrings?) (fun d s => { d with openStrings? := some s })
      (.choice OpenStrings.choices),
     .ofOption "keywords" (·.vocabulary?) (fun d v => { d with vocabulary? := some v })
      (.choice Vocabulary.choices),
     .ofOption "context-width" (·.contextWidth?) (fun d n => { d with contextWidth? := some n })
      .natural]
  isOpen := false
  blank := {}
  finish d := .ok d.toOptions

def ofJson (text : String) : Except Failure Options := (Json.Reader.record form).load text

def toJson (o : Options) : Json.Value :=
  .object [("on-error", .string o.recovery.name),
    ("unterminated-strings", .string o.openStrings.name), ("keywords", .string o.vocabulary.name),
    ("context-width", .number o.contextWidth)]

end Options
end LineLexer
