/-
Errors: why a document cannot be had.

What goes wrong with one tag of a comment is no error (see `Fault`); an error concerns the
configuration, a file, or asking for results before there are any.  `message` is its wording.
-/
import DocComment.Tag.Interpreter

namespace DocComment

/-- What has results only once it is parsed. -/
inductive Parsed where
  | comment
  | document
deriving DecidableEq, Repr

/-- Where a text is read from. -/
inductive Origin where
  | standardInput
  | file (path : Path)
deriving DecidableEq, Repr

def Origin.label : Origin → String
  | .standardInput => "<stdin>"
  | .file path => path.text

inductive Error where
  /-- A matcher of the tag is neither a text nor a pattern. -/
  | unsupportedMatcher (tag : String)
  | invalidPattern (pattern : String)
  | unknownTarget (cause : UnknownTarget)
  | invalidGlob (glob : String)
  | sourceNotFound (file : Path)
  | unreadableSource (origin : Origin)
  | notParsed (what : Parsed)
deriving DecidableEq, Repr

namespace Error

def Parsed.name : Parsed → String
  | .comment => "docblock block"
  | .document => "docblock document"

/-- What is wrong with a configuration. -/
def configuration? : Error → Option String
  | .unsupportedMatcher tag =>
    some ("the filterByTag filter for '" ++ tag ++ "' must be a string, a regex or a predicate")
  | .invalidPattern pattern => some ("invalid filter regex '" ++ pattern ++ "'")
  | .unknownTarget cause =>
    some ("cannot alias tag '" ++ cause.tag ++ "' to '" ++ cause.target ++
      "': no interpreter is registered under that name")
  | .invalidGlob glob => some ("invalid exclude glob '" ++ glob ++ "'")
  | .sourceNotFound _ | .unreadableSource _ | .notParsed _ => none

def message (e : Error) : String :=
  match e with
  | .sourceNotFound file => "source path '" ++ file.text ++ "' does not exist on the filesystem"
  | .unreadableSource (.file path) => "failed to read source '" ++ path.text ++ "'"
  | .unreadableSource .standardInput => "Failed to read " ++ Origin.standardInput.label
  | .notParsed what =>
    Parsed.name what ++ " has not been parsed yet, call \x60parse().await\x60 first"
  | e => "invalid configuration: " ++ e.configuration?.getD ""

end Error

end DocComment
