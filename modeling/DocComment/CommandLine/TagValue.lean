/-
Tags with the values they have to have, as the command line gives them: `TAG=VALUE`.
-/
import DocComment.Text.Cut

namespace DocComment

/-- A tag and the text it has to have. -/
structure TagValue where
  tag : String
  value : String
deriving DecidableEq, Repr

namespace TagValue

inductive Problem where
  | noEqualsSign (raw : String)
  | noTag (raw : String)
deriving DecidableEq, Repr

def Problem.message : Problem → String
  | .noEqualsSign raw => "expected TAG=VALUE, got '" ++ raw ++ "'"
  | .noTag raw => "missing tag name in '" ++ raw ++ "'"

/-- Cuts at the first equals sign; blanks around both parts and signs `@` before the tag do not
count. -/
def parse (raw : String) : Except Problem TagValue :=
  match Text.cutAt? (· == '=') raw.toList with
  | none => .error (.noEqualsSign raw)
  | some (tag, value) =>
    let tag := (Text.trim tag).dropWhile (· = '@')
    if tag.isEmpty then .error (.noTag raw)
    else .ok ⟨String.ofList tag, String.ofList (Text.trim value)⟩

end TagValue

end DocComment
