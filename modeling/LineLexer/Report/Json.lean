import LineLexer.Json.Document
import LineLexer.Json.Record
import LineLexer.Json.Value
import LineLexer.Report.Basic

/-!
Tokens, diagnostics and reports as JSON, written and read. Reading asks for every field and passes
over members of other names.
-/

namespace LineLexer

/-! ### Tokens -/

def Token.Kind.choices : List (String × Token.Kind) := Token.Kind.all.map fun k => (k.name, k)

def Token.Kind.reader : Json.Reader Token.Kind := .choice Token.Kind.choices

namespace Token

structure Draft where
  kind? : Option Kind := none
  lexeme? : Option String := none
  line? : Option Nat := none

def form : Json.Record Draft Token where
  title := "struct Token"
  fields :=
    [.ofOption "kind" (·.kind?) (fun d k => { d with kind? := some k }) Kind.reader,
     .ofOption "lexeme" (·.lexeme?) (fun d s => { d with lexeme? := some s }) .string,
     .ofOption "line" (·.line?) (fun d n => { d with line? := some n }) .natural]
  isOpen := true
  blank := {}
  finish d := do
    let some kind := d.kind? | .error "kind"
    let some lexeme := d.lexeme? | .error "lexeme"
    let some line := d.line? | .error "line"
    return ⟨kind, lexeme, line⟩

def reader : Json.Reader Token := .record form

/-- A stream of tokens is written as a bare list. -/
def streamReader : Json.Reader (List Token) := .list reader

def toJson (t : Token) : Json.Value :=
  .object [("kind", .string t.kind.name), ("lexeme", .string t.lexeme), ("line", .number t.line)]

def streamToJson (tokens : List Token) : Json.Value := .list (tokens.map toJson)

end Token

/-! ### Diagnostics -/

namespace Diagnostic

def Cause.choices : List (String × Cause) :=
  [unrecognizedCharacter, unterminatedString].map fun c => (c.name, c)

structure Draft where
  cause? : Option Cause := none
  line? : Option Nat := none
  character? : Option Char := none
  context? : Option String := none

def form : Json.Record Draft Diagnostic where
  title := "struct Diagnostic"
  fields :=
    [.ofOption "kind" (·.cause?) (fun d c => { d with cause? := some c }) (.choice Cause.choices),
     .ofOption "line" (·.line?) (fun d n => { d with line? := some n }) .natural,
     .ofOption "character" (·.character?) (fun d c => { d with character? := some c }) .character,
     .ofOption "context" (·.context?) (fun d s => { d with context? := some s }) .string]
  isOpen := true
  blank := {}
  finish d := do
    let some cause := d.cause? | .error "kind"
    let some line := d.line? | .error "line"
    let some character := d.character? | .error "character"
    let some context := d.context? | .error "context"
    return ⟨cause, line, character, context⟩

def reader : Json.Reader Diagnostic := .record form

def toJson (d : Diagnostic) : Json.Value :=
  .object [("kind", .string d.cause.name), ("line", .number d.line),
    ("character", .string d.character.toString), ("context", .string d.context)]

end Diagnostic

/-! ### Reports -/

namespace Report

structure Draft where
  tokens? : Option (List Token) := none
  diagnostics? : Option (List Diagnostic) := none
  linesScanned? : Option Nat := none
  linesAbandoned? : Option Nat := none

def form : Json.Record Draft Report where
  title := "struct ScanReport"
  fields :=
    [.ofOption "tokens" (·.tokens?) (fun d ts => { d with tokens? := some ts })
      Token.streamReader,
     .ofOption "diagnostics" (·.diagnostics?) (fun d ds => { d with diagnostics? := some ds })
      (.list Diagnostic.reader),
     .ofOption "lines_scanned" (·.linesScanned?) (fun d n => { d with linesScanned? := some n })
      .natural,
     .ofOption "lines_abandoned" (·.linesAbandoned?)
      (fun d n => { d with linesAbandoned? := some n }) .natural]
  isOpen := true
  blank := {}
  finish d := do
    let some tokens := d.tokens? | .error "tokens"
    let some diagnostics := d.diagnostics? | .error "diagnostics"
    let some linesScanned := d.linesScanned? | .error "lines_scanned"
    let some linesAbandoned := d.linesAbandoned? | .error "lines_abandoned"
    return ⟨tokens, diagnostics, linesScanned, linesAbandoned⟩

def reader : Json.Reader Report := .record form

def toJson (r : Report) : Json.Value :=
  .object [("tokens", Token.streamToJson r.tokens),
    ("diagnostics", .list (r.diagnostics.map (·.toJson))),
    ("lines_scanned", .number r.linesScanned), ("lines_abandoned", .number r.linesAbandoned)]

def json (r : Report) : String := r.toJson.text

def ofJson (text : String) : Except Failure Report := reader.load text

end Report
end LineLexer
