/-
Faults: why a tag could not be interpreted or a text not rendered.

A fault is a cause under any number of contexts.  `chain` lists their wordings, outermost first, and
`message` joins them.
-/
import DocComment.Files.Path

namespace DocComment

inductive Fault where
  /-- The brackets of a type expression are not properly nested. -/
  | unbalancedType (expr : String)
  /-- The type of a parameter cannot be read. -/
  | parameterType (name : String) (cause : Fault)
  /-- The type of an interface field cannot be read. -/
  | fieldType (field : String) (cause : Fault)
  /-- A file with interfaces has none under the name. -/
  | noExport (file : Path) (export_ : String)
  | unreadableFile (file : Path)
  /-- A file is no JSON document, or not one of the shape asked for. -/
  | malformedJson (file : Path)
  /-- Rendering markdown failed. -/
  | rendering (cause : Fault)
  /-- A fault in words of its own, outermost first. -/
  | worded (chain : List String)
deriving DecidableEq, Repr, Inhabited

namespace Fault

def chain : Fault → List String
  | .unbalancedType expr => ["unbalanced type expression `" ++ expr ++ "`"]
  | .parameterType name cause =>
    ("cannot resolve the type of parameter '" ++ name ++ "'") :: cause.chain
  | .fieldType field cause => ("invalid type for interface field '" ++ field ++ "'") :: cause.chain
  | .noExport file name => ["'" ++ file.text ++ "' has no interface export '" ++ name ++ "'"]
  | .unreadableFile file => ["cannot read '" ++ file.text ++ "'"]
  | .malformedJson file => ["'" ++ file.text ++ "' is no such JSON document"]
  | .rendering cause => "markdown rendering failed" :: cause.chain
  | .worded chain => chain

def message (f : Fault) : String := ": ".intercalate f.chain

end Fault

/-- A tag of a comment that could not be interpreted, or a value that could not be rendered. -/
structure TagFailure where
  tag : String
  /-- The comment in normal form. -/
  raw : String
  fault : Fault
deriving DecidableEq, Repr, Inhabited

end DocComment
