import LineLexer.Vocabulary

/-!
The command line. Arguments are read from left to right; the first that cannot be accepted is the
error, and a request for the version or for help ends the reading.
-/

namespace LineLexer.Command

inductive Format
  | table | json | kinds
  deriving DecidableEq, Repr

def Format.choices : List (String × Format) := [("table", table), ("json", json), ("kinds", kinds)]

structure Settings where
  files : List String := []
  format? : Option Format := none
  vocabulary? : Option Vocabulary := none
  config? : Option String := none
  failFast : Bool := false
  silent : Bool := false
  deriving DecidableEq, Repr

inductive Request
  | scan (settings : Settings)
  | version
  | help
  deriving DecidableEq, Repr

/-- The options, whichever way they are spelled. -/
inductive Switch
  | format | keywords | config | failFast | silentUnterminated | version | help
  deriving DecidableEq, Repr

namespace Switch

def all : List Switch := [format, keywords, config, failFast, silentUnterminated, version, help]

def longName : Switch → String
  | format => "format"
  | keywords => "keywords"
  | config => "config"
  | failFast => "fail-fast"
  | silentUnterminated => "silent-unterminated"
  | version => "version"
  | help => "help"

def shortName? : Switch → Option Char
  | format => some 'f'
  | version => some 'V'
  | help => some 'h'
  | keywords | config | failFast | silentUnterminated => none

def takesValue : Switch → Bool
  | format | keywords | config => true
  | failFast | silentUnterminated | version | help => false

def ofLong? (name : String) : Option Switch := all.find? (·.longName == name)

def ofShort? (c : Char) : Option Switch := all.find? (·.shortName? == some c)

end Switch

inductive UsageError
  | unknown (argument : String)
  | missingValue (switch : Switch)
  | needlessValue (switch : Switch)
  | invalidValue (switch : Switch) (value : String)
  | repeated (switch : Switch)
  | emptyFile
  deriving DecidableEq, Repr

/-- What is wrong with the arguments, in words of its own; no result depends on them. -/
def UsageError.message : UsageError → String
  | unknown argument => s!"unexpected argument '{argument}'"
  | missingValue switch => s!"a value is required for '--{switch.longName}'"
  | needlessValue switch => s!"'--{switch.longName}' takes no value"
  | invalidValue switch value => s!"invalid value '{value}' for '--{switch.longName}'"
  | repeated switch => s!"'--{switch.longName}' cannot be used more than once"
  | emptyFile => "a file name cannot be empty"

inductive Argument
  | file
  | endOfOptions
  | option (switch : Switch) (attached? : Option String)
  | unknown
  deriving DecidableEq, Repr

/-- An argument that starts with two dashes, by what follows them. -/
def Argument.ofLong (body : List Char) : Argument :=
  let name := body.takeWhile (· != '=')
  let attached? :=
    match body.dropWhile (· != '=') with
    | [] => none
    | _ :: value => some (String.ofList value)
  match Switch.ofLong? (String.ofList name) with
  | some switch => .option switch attached?
  | none => .unknown

/-- An argument that starts with one dash, by what follows it. Only a value can be attached, with or
without an equals sign. -/
def Argument.ofShort (c : Char) (body : List Char) : Argument :=
  match Switch.ofShort? c with
  | none => .unknown
  | some switch =>
    if switch.takesValue then
      match body with
      | [] => .option switch none
      | '=' :: value => .option switch (some (String.ofList value))
      | value => .option switch (some (String.ofList value))
    else .option switch none

def Argument.classify (argument : String) : Argument :=
  match argument.toList with
  | ['-', '-'] => .endOfOptions
  | '-' :: '-' :: body => .ofLong body
  | '-' :: c :: body => .ofShort c body
  | _ => .file

namespace Settings

def addFile (s : Settings) (path : String) : Except UsageError Settings :=
  if path.isEmpty then .error .emptyFile else .ok { s with files := s.files ++ [path] }

def addFiles (s : Settings) (paths : List String) : Except UsageError Settings :=
  paths.foldlM addFile s

def setValue (s : Settings) (switch : Switch) (value : String) : Except UsageError Settings :=
  let once {β : Type} (old : Option β) (new : Option β) (set : β → Settings) :=
    if old.isSome then .error (.repeated switch)
    else
      match new with
      | some b => .ok (set b)
      | none => .error (.invalidValue switch value)
  match switch with
  | .format => once s.format? (Format.choices.lookup value) fun f => { s with format? := some f }
  | .keywords =>
    once s.vocabulary? (Vocabulary.choices.lookup value) fun v => { s with vocabulary? := some v }
  | .config =>
    once s.config? (if value.isEmpty then none else some value) fun c => { s with config? := some c }
  | .failFast | .silentUnterminated | .version | .help => .error (.needlessValue switch)

def setFlag (s : Settings) (switch : Switch) : Except UsageError Settings :=
  match switch with
  | .failFast => if s.failFast then .error (.repeated switch) else .ok { s with failFast := true }
  | .silentUnterminated =>
    if s.silent then .error (.repeated switch) else .ok { s with silent := true }
  | .version | .help => .ok s
  | .format | .keywords | .config => .error (.missingValue switch)

end Settings

/-- Whether an argument can be the value of the option in front of it. -/
def isValue (argument : String) : Bool := argument == "-" || !argument.startsWith "-"

/-- The request of the arguments that follow those in the settings. -/
def parseFrom (s : Settings) : List String → Except UsageError Request
  | [] => .ok (.scan s)
  | argument :: rest =>
    match Argument.classify argument with
    | .file =>
      match s.addFile argument with
      | .ok s => parseFrom s rest
      | .error e => .error e
    | .endOfOptions => (s.addFiles rest).map .scan
    | .unknown => .error (.unknown argument)
    | .option switch (some value) =>
      match s.setValue switch value with
      | .ok s => parseFrom s rest
      | .error e => .error e
    | .option .version none => .ok .version
    | .option .help none => .ok .help
    | .option switch none =>
      if switch.takesValue then
        match rest with
        | [] => .error (.missingValue switch)
        | value :: rest =>
          if isValue value then
            match s.setValue switch value with
            | .ok s => parseFrom s rest
            | .error e => .error e
          else .error (.missingValue switch)
      else
        match s.setFlag switch with
        | .ok s => parseFrom s rest
        | .error e => .error e

def parse (arguments : List String) : Except UsageError Request := parseFrom {} arguments

end LineLexer.Command
