/-
The registry that comments are interpreted with by default.
-/
import DocComment.Tag.Interface
import DocComment.Tag.Listing
import DocComment.Tag.Plain
import DocComment.Tag.Prose

namespace DocComment.Tag

/-- The tags that mean their inline text. -/
def simpleTags : List String :=
  ["abstract", "final", "async", "generator", "global", "constructor", "hideconstructor",
   "ignore", "inheritdoc", "inner", "instance", "mixin", "override", "access", "category",
   "copyright", "deprecated", "alias", "augments", "callback", "class", "classdesc", "constant",
   "constructs", "default", "exports", "external", "host", "file", "function", "func", "method",
   "implements", "kind", "lends", "license", "memberof", "mixes", "module", "name", "as",
   "package", "private", "protected", "public", "readonly", "requires", "since", "static",
   "summary", "this", "tutorial", "variation", "version", "enum", "src", "import"]

/-- The tags with interpreters of their own. -/
def ownInterpreters : List (String × Interpreter) :=
  [("author", author), ("contributor", contributor), ("install", simple),
   ("feature", repeatable), ("description", description), ("desc", description), ("see", see),
   ("interface", interface_), ("return", return_), ("type", type_), ("platform", platform),
   ("namespace", namespace_), ("menu", menu), ("cssClass", cssClass), ("support", support),
   ("snippet", snippet), ("example", example_), ("todo", todo), ("event", event),
   ("param", param), ("property", param), ("prop", param), ("setting", param)]

end DocComment.Tag

namespace DocComment.Registry

def builtin : Registry :=
  Tag.ownInterpreters.foldl (fun r (tag, i) => r.register tag i)
    (registerAll [] Tag.simpleTags Tag.simple)

end DocComment.Registry
