import LineLexer.Diagnostic
import LineLexer.Token.Basic

/-!
What a scan has to tell while it runs. An event is data; how it is worded for a log, and with which
fields, is decided here once.
-/

namespace LineLexer

inductive Event
  | started (bytes : Nat)
  | token (token : Token)
  | dropped (line : Nat)
  | diagnosed (diagnostic : Diagnostic)
  | finished (lines tokens diagnostics : Nat)
  deriving DecidableEq, Repr

namespace Event

inductive Level
  | trace | debug | warn
  deriving DecidableEq, Repr

def Level.name : Level → String
  | trace => "TRACE"
  | debug => "DEBUG"
  | warn => "WARN"

inductive Field
  | number (n : Nat)
  | text (s : String)
  deriving DecidableEq, Repr

def level : Event → Level
  | token _ => .trace
  | diagnosed _ => .warn
  | started _ | dropped _ | finished .. => .debug

def message : Event → String
  | started _ => "scan started"
  | token _ => "token"
  | dropped _ => "line dropped silently"
  | diagnosed d => d.message
  | finished .. => "scan finished"

def fields : Event → List (String × Field)
  | started bytes => [("bytes", .number bytes)]
  | token t =>
    [("line", .number t.line), ("kind", .text t.kind.name), ("lexeme", .text t.lexeme)]
  | dropped line => [("line", .number line)]
  | diagnosed d => [("line", .number d.line), ("character", .text d.character.toString)]
  | finished lines tokens diagnostics =>
    [("lines", .number lines), ("tokens", .number tokens), ("diagnostics", .number diagnostics)]

end Event
end LineLexer
