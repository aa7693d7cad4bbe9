import LineLexer.Command.Run

/-!
The program: reads the files that the command line names, and standard input if it names none, and
prints what the command comes to.
-/

namespace LineLexer.Command

def faultOf : IO.Error → ReadFault
  | .noFileOrDirectory .. => .notFound
  | .noSuchThing .. => .notFound
  | .inappropriateType .. => .isDirectory
  | e => .other (toString e)

def bytesOf (read : IO ByteArray) : IO (Except ReadFault ByteArray) := do
  try
    return .ok (← read)
  catch e =>
    return .error (faultOf e)

def readFile (path : String) : IO (Except ReadFault String) := do
  return (← bytesOf (IO.FS.readBinFile path)) >>= decodeText

def readInput : IO (Except ReadFault String) := do
  let stdin ← IO.getStdin
  return (← bytesOf stdin.readBinToEnd) >>= decodeText

/-- Reads what a scan with these settings asks for; standard input only if it comes to that. -/
def supplyFor (s : Settings) : IO Supply := do
  let texts ← (s.config?.toList ++ s.files).mapM fun path => return (path, ← readFile path)
  let supply : Supply := ⟨fun path => (texts.lookup path).getD (.error .notFound), .ok ""⟩
  match s.files, s.options supply with
  | [], .ok _ => return { supply with input := ← readInput }
  | _, _ => return supply

end LineLexer.Command

def main (arguments : List String) : IO UInt32 := do
  let supply ←
    match LineLexer.Command.parse arguments with
    | .ok (.scan s) => LineLexer.Command.supplyFor s
    | _ => pure ⟨fun _ => .error .notFound, .ok ""⟩
  let outcome := LineLexer.Command.run arguments supply
  IO.print outcome.stdout
  IO.eprint outcome.stderr
  return outcome.exitCode.toUInt32
