import LineLexer.Command.Arguments
import LineLexer.Files
import LineLexer.Options.Json
import LineLexer.Report.Json
import LineLexer.Report.Table
import LineLexer.Scan

/-!
What a command does: it loads the options, then reads every source, and only then scans them one by
one. Nothing is printed unless all of them could be read.
-/

namespace LineLexer

def version : String := "0.3.0"

namespace Command

/-- What a finished command leaves behind. -/
structure Outcome where
  exitCode : Nat
  stdout : String
  stderr : String
  deriving DecidableEq, Repr

/-- What can be read while a command runs. -/
structure Supply where
  file : String → Except ReadFault String
  input : Except ReadFault String

def Supply.ofFiles (files : Files) (input : ByteArray) : Supply :=
  ⟨files.read, decodeText input⟩

/-- Why no source was scanned. -/
inductive Obstacle
  | unreadable (path : String) (fault : ReadFault)
  | badConfig (path : String) (failure : Failure)
  deriving DecidableEq, Repr

def Obstacle.message : Obstacle → String
  | unreadable path fault => (Failure.unreadable path fault.message).message
  | badConfig path failure => s!"in configuration file {path}: {failure.message}"

/-- A text to scan and the name it goes by. -/
structure Source where
  name : String
  text : String
  deriving DecidableEq, Repr

def inputName : String := "<stdin>"

namespace Settings

/-- The options of the configuration file, or the default ones without a file. -/
def baseOptions (s : Settings) (supply : Supply) : Except Obstacle Options :=
  match s.config? with
  | none => .ok {}
  | some path => do
    let text ← (supply.file path).mapError (.unreadable path)
    (Options.ofJson text).mapError (.badConfig path)

/-- What the command line changes in the options of the file. -/
def override (s : Settings) (o : Options) : Options where
  recovery := if s.failFast then .failFast else o.recovery
  openStrings := if s.silent then .silent else o.openStrings
  vocabulary := s.vocabulary?.getD o.vocabulary
  contextWidth := o.contextWidth

def options (s : Settings) (supply : Supply) : Except Obstacle Options :=
  (s.baseOptions supply).map s.override

def readSource (supply : Supply) (path : String) : Except Obstacle Source :=
  match supply.file path with
  | .ok text => .ok ⟨path, text⟩
  | .error fault => .error (.unreadable path fault)

/-- The sources in the order of the command line, or standard input if it names none. -/
def sources (s : Settings) (supply : Supply) : Except Obstacle (List Source) :=
  if s.files.isEmpty then
    match supply.input with
    | .ok text => .ok [⟨inputName, text⟩]
    | .error fault => .error (.unreadable inputName fault)
  else s.files.mapM (readSource supply)

def format (s : Settings) : Format := s.format?.getD .table

end Settings

def Format.render (format : Format) (r : Report) : String :=
  match format with
  | .table => Report.table r.tokens
  | .kinds => Report.kindList r.tokens
  | .json => r.json ++ "\n"

def onLines (messages : List String) : String := String.join (messages.map (· ++ "\n"))

/-- Scans sources in order up to the first that fails; `headed` asks for a line with the name of the
source in front of each report. -/
def scanSources (o : Options) (format : Format) (headed : Bool) : List Source → Outcome
  | [] => ⟨0, "", ""⟩
  | source :: rest =>
    match LineLexer.scan o source.text with
    | .error failure => ⟨1, "", onLines [failure.message]⟩
    | .ok report =>
      let later := scanSources o format headed rest
      let heading := if headed then onLines [s!"==> {source.name} <=="] else ""
      { exitCode := if report.isClean then later.exitCode else 1
        stdout := heading ++ format.render report ++ later.stdout
        stderr := onLines report.messages ++ later.stderr }

def prepare (s : Settings) (supply : Supply) : Except Obstacle (Options × List Source) := do
  let o ← s.options supply
  let sources ← s.sources supply
  return (o, sources)

def scan (s : Settings) (supply : Supply) : Outcome :=
  match prepare s supply with
  | .error obstacle => ⟨2, "", onLines [s!"Error: {obstacle.message}"]⟩
  | .ok (o, sources) => scanSources o s.format (sources.length > 1) sources

/-- What the command says of its arguments on request, in words of its own. No result depends on
them. -/
def usage : String :=
  onLines ["Usage: ember-lex [OPTIONS] [FILES]...", "", "Options:",
    "  -f, --format <FORMAT>      table, json or kinds",
    "      --fail-fast            stop at the first scan error",
    "      --silent-unterminated  drop unterminated strings without a diagnostic",
    "      --keywords <KEYWORDS>  initial, extended or current",
    "      --config <CONFIG>      JSON configuration file; flags override its values",
    "  -h, --help                 print this help",
    "  -V, --version              print the version"]

def perform (request : Request) (supply : Supply) : Outcome :=
  match request with
  | .version => ⟨0, onLines [s!"ember-lex {version}"], ""⟩
  | .help => ⟨0, usage, ""⟩
  | .scan s => scan s supply

/-- What a command line comes to. -/
def run (arguments : List String) (supply : Supply) : Outcome :=
  match parse arguments with
  | .error e => ⟨2, "", onLines [s!"error: {e.message}"]⟩
  | .ok request => perform request supply

end Command
end LineLexer
