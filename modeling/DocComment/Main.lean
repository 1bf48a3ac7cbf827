/-
The program.

It takes the files below the working folder, the standard input and the environment as they are,
runs the command line on them, and prints what comes of it.  Paths are relative to the working
folder.  The environment is read from where the system keeps it for the process.
-/
import DocComment.CommandLine.Run

open DocComment CommandLine

namespace DocComment.Program

/-- A variable as the system writes it, with an equals sign behind its name; none if it is no
text. -/
def readVariable? (bytes : List UInt8) : Option (String × String) := do
  let text ← String.fromUTF8? ⟨bytes.toArray⟩
  let (name, value) ← Text.cutAt? (· == '=') text.toList
  return (String.ofList name, String.ofList value)

/-- All variables of the process. -/
def environment : IO (List (String × String)) := do
  let bytes ← IO.FS.readBinFile "/proc/self/environ"
  return (bytes.toList.splitOn 0).filterMap readVariable?

/-- How deep folders are followed; links may lead in circles. -/
def depthLimit : Nat := 32

/-- What lies at an entry of a folder, and below it. -/
def itemsAt (depth : Nat) (names : List String) (entry : IO.FS.DirEntry) :
    IO (List (List String × FileItem)) := do
  let here := names ++ [entry.fileName]
  match depth with
  | 0 => return []
  | depth + 1 =>
    if ← entry.path.isDir then
      let mut items := []
      for inner in ← entry.path.readDir do
        items := items ++ (← itemsAt depth here inner)
      return if items.isEmpty then [(here, .folder)] else items
    else
      try return [(here, .text (← IO.FS.readFile entry.path))]
      catch _ => return [(here, .binary)]

/-- The files below the working folder. -/
def workingFolder : IO FileTree := do
  let mut items := []
  for entry in ← (← IO.FS.realPath ".").readDir do
    items := items ++ (← itemsAt depthLimit [] entry)
  return ⟨items⟩

def helpText : String :=
  "Extract JSDoc-style docblocks as structured data\n\nUsage: docblock [OPTIONS] <COMMAND>\n\n" ++
  "Commands:\n" ++
  "  parse       Parse docblocks from files, or from stdin when no file is given\n" ++
  "  namespaces  Index the first namespaced docblock of every file in a folder\n" ++
  "  help        Print this message\n\n" ++
  "Options:\n" ++
  "  -v, --verbose        Enable verbose logging\n" ++
  "  -q, --quiet          Suppress all output except errors\n" ++
  "      --no-color       Disable colored output\n" ++
  "  -c, --config <FILE>  Configuration file (JSON or TOML)\n" ++
  "  -h, --help           Print help\n" ++
  "  -V, --version        Print version\n\n" ++
  "Options of parse: -f, --format <json|text>, --filter-tag <TAG=VALUE>, --render-markdown, " ++
  "--strict\nOptions of namespaces: --exclude <GLOB>"

/-- What is wrong with the arguments, in words. -/
def usageText : Usage → String
  | .invalidValue => "error: a value is missing or not one of the possible values"
  | .unreadableValue => "error: a value cannot be read, expected TAG=VALUE"
  | .conflict => "error: an argument cannot be used with another one or several times"
  | .unknownArgument => "error: unexpected argument found"
  | .unknownCommand => "error: unrecognized subcommand"
  | .missingArgument => "error: a required argument was not provided"
  | .missingCommand => "error: a subcommand is required but was not provided"
  | .unexpectedValue => "error: unexpected value for an argument found; no more were expected"
  | .help | .noArguments => helpText
  | .version => "docblock"

/-- Prints a result; the exit code of the program. -/
def finish : Except Failure Outcome → IO UInt32
  | .ok outcome => do
    IO.println outcome.output
    return 0
  | .error (.usage cause) => do
    if cause = .help || cause = .version then
      IO.println (usageText cause)
      return 0
    IO.eprintln (usageText cause)
    return 2
  | .error failure => do
    IO.eprintln ("Error: " ++ failure.report)
    return 1

/-- The bytes of a stream up to its end. -/
partial def readFrom (stream : IO.FS.Stream) (done : ByteArray) : IO ByteArray := do
  let bytes ← stream.read 65536
  if bytes.isEmpty then return done else readFrom stream (done ++ bytes)

/-- The standard input, if the arguments ask for it. -/
def standardInput (args : List String) : IO StandardInput := do
  match (Arguments.parse args).map Arguments.command with
  | .ok (.parse [] _ _ _ _) =>
    let bytes? ← try pure (some (← readFrom (← IO.getStdin) .empty)) catch _ => pure none
    match bytes?.bind String.fromUTF8? with
    | some text => return .ok text
    | none => return .error (.document (.unreadableSource .standardInput))
  | _ => return .ok ""

end DocComment.Program

def main (args : List String) : IO UInt32 := do
  let stdin ← Program.standardInput args
  Program.finish (run args (← Program.workingFolder) stdin (← Program.environment))
