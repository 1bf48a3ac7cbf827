/-
Running the command line.

`run` is all that the program does apart from reading and writing: from the arguments, the files,
the standard input and the environment to the text that is printed, or to a `Failure`.  How patterns
are read and markdown is rendered is up to the libraries that it is given (`Libraries`).

* `parse` prints the records of one source as an array and those of several under their paths, or
  the comments as text;
* `namespaces` prints the index of a folder as an object;
* in strict mode any tag that could not be interpreted is a failure, which is told once all sources
  are read.
-/
import DocComment.CommandLine.Arguments
import DocComment.Configuration.Layers
import DocComment.NamespaceIndex

namespace DocComment.CommandLine

inductive Failure where
  | usage (cause : Usage)
  | configuration (cause : Configuration.Problem)
  | document (cause : Error)
  /-- So many tags could not be interpreted. -/
  | tags (count : Nat)
deriving DecidableEq, Repr

namespace Failure

def message : Failure → String
  | .usage _ => "invalid arguments"
  | .configuration cause => cause.message
  | .document cause => cause.message
  | .tags count => toString count ++ " tag(s) could not be interpreted"

/-- What to do about it. -/
def hint? : Failure → Option String
  | .usage _ => none
  | .configuration (.fileNotFound _) =>
    some "Create docblock.config.json or docblock.config.toml, or drop --config"
  | .configuration (.unsupportedFormat _) => some "Use a .json or .toml file"
  | .configuration .invalid => some "Check the config file and DOCBLOCK_* environment variables"
  | .document (.sourceNotFound _) => some "Check the path, or pipe the source through stdin"
  | .document (.unreadableSource _) | .document (.notParsed _) => none
  | .document _ => some ("filterByTag values must be strings, \x7b \"regex\": \"...\" \x7d " ++
      "objects or lists of those")
  | .tags _ => some "Run with --verbose to see every failing tag"

/-- The message with the hint. -/
def report (f : Failure) : String :=
  match f.hint? with
  | some hint => f.message ++ "\n\nHint: " ++ hint
  | none => f.message

end Failure

/-- The standard input, or why it cannot be read. -/
abbrev StandardInput := Except Failure String

instance : Coe String StandardInput := ⟨.ok⟩

/-- A parsed source and where it comes from. -/
structure Source where
  origin : Origin
  document : Document

/-- Opens the sources one after the other and parses each; the failures of all. -/
def parseAll (opened : List (Origin × Except Failure Document)) :
    Except Failure (List Source × List TagFailure) :=
  opened.foldlM (fun (sources, failures) (origin, opened) => do
    let (document, more) ← (← opened).parse.mapError .document
    return (sources ++ [⟨origin, document⟩], failures ++ more)) ([], [])

/-- The files as sources, or the standard input if there are none. -/
def open_ (o : Options) (files : List Path) (stdin : StandardInput) :
    List (Origin × Except Failure Document) :=
  if files.isEmpty then [(.standardInput, stdin.map fun text => ⟨text, o, none⟩)]
  else files.map fun p => (.file p, (Document.ofPath p o).mapError .document)

/-- What is printed for the sources. -/
def render (format : OutputFormat) (sources : List Source) : Except Error String :=
  match format with
  | .text => do
    let texts ← sources.mapM fun s => s.document.toText
    return "\n".intercalate texts
  | .json =>
    match sources with
    | [s] => s.document.toJson.map Json.pretty
    | sources => do
      let members ← sources.mapM fun s => do return (s.origin.label, ← s.document.toJson)
      return Json.pretty (.object (Keyed.ofList members))

def runParse (o : Options) (files : List Path) (stdin : StandardInput) (format : OutputFormat)
    (strict : Bool) : Except Failure String := do
  let (sources, failures) ← parseAll (open_ o files stdin)
  let output ← (render format sources).mapError .document
  if strict && !failures.isEmpty then throw (.tags failures.length)
  return output

def runNamespaces (o : Options) (folder : Path) (exclude : List String) :
    Except Failure String := do
  let (index, _) ← (o.namespaceIndex folder exclude).mapError .document
  return Json.pretty (.object (index.map fun (key, r) => (key, (Value.record r).toJson)))

/-- What the command says about the configuration. -/
def Command.flags : Command → Configuration.Flags
  | .parse _ _ filterTags renderMarkdown _ => { renderMarkdown, filterTags }
  | .namespaces _ exclude => { exclude }

/-- What is printed, and how the program shall talk. -/
structure Outcome where
  output : String
  verbose : Bool
  quiet : Bool
  noColor : Bool
deriving DecidableEq, Repr

/-- What the program leaves to others. -/
structure Libraries where
  patterns : PatternLanguage := .basic
  renderer : Renderer := .html

def run (args : List String) (files : FileTree) (stdin : StandardInput)
    (environment : List (String × String)) (libraries : Libraries := {}) :
    Except Failure Outcome := do
  let a ← (Arguments.parse args).mapError .usage
  let c ← (Configuration.load files a.config environment a.command.flags).mapError .configuration
  let o : Options :=
    { settings := c.settings, files
      patterns := libraries.patterns, renderer := libraries.renderer }
  let output ← match a.command with
    | .parse sources format _ _ strict => runParse o sources stdin format strict
    | .namespaces folder _ => runNamespaces o folder c.exclude
  return ⟨output, a.verbose, a.quiet, a.noColor⟩

end DocComment.CommandLine
