/-
Filters: which comments are worth interpreting, by the texts of their tags.

A filter has rules, each for one tag.  A comment passes a rule if the tag occurs in it with a text
that one of the rule's matchers accepts, and it passes the filter if it passes all rules.

* `textAfter?` finds the text that a rule looks at, in the comment as it stands;
* `TagFilter.ofMembers` reads rules; a matcher is a text, or an object with a pattern under `regex`,
  or there is a list of those.  What is a pattern is up to the language of patterns;
* `TagFilter.merge` puts the matchers of two filters together, tag by tag.

Design notes: a list without matchers adds no rule, so every rule has a matcher.
-/
import DocComment.Error
import DocComment.Pattern.Reader

namespace DocComment

inductive Matcher where
  /-- The text itself. -/
  | exact (s : String)
  /-- A text that a pattern of some language matches. -/
  | pattern (p : String → Bool)
  | predicate (p : String → Bool)

namespace Matcher

def accepts : Matcher → String → Bool
  | .exact expected, s => s == expected
  | .pattern p, s => p s
  | .predicate p, s => p s

/-- The matcher for a pattern as written. -/
def ofPattern (s : String) (patterns : PatternLanguage := .basic) : Except Error Matcher :=
  match patterns.compile? s with
  | some p => .ok (.pattern p)
  | none => .error (.invalidPattern s)

def ofJson (patterns : PatternLanguage) (tag : String) : Json → Except Error Matcher
  | .string s => .ok (.exact s)
  | j =>
    match (j.get? "regex").bind Json.string? with
    | some s => ofPattern s patterns
    | none => .error (.unsupportedMatcher tag)

end Matcher

/-- The matchers for each tag. -/
abbrev TagFilter := Keyed (List Matcher)

namespace TagFilter

/-- What stands on the line after the first occurrence of the word `w` that has something after it
on its line. -/
def lineAfter? (w : Text) : Text → Option Text
  | [] => none
  | c :: t =>
    let line := ((Text.after? w (c :: t)).getD []).takeWhile (· ≠ '\n')
    if line.isEmpty then lineAfter? w t else some line

/-- The text of a tag in a comment; none if it is missing or blank. -/
def textAfter? (tag : String) (comment : Text) : Option String := do
  let text := Text.trim (← lineAfter? ('@' :: tag.toList) comment)
  if text.isEmpty then none else some (String.ofList text)

def passes (comment : Text) (rule : String × List Matcher) : Bool :=
  (textAfter? rule.1 comment).any fun text => rule.2.any (·.accepts text)

/-- The comment passes every rule. -/
def accepts (f : TagFilter) (comment : String) : Bool := f.all (passes comment.toList)

/-- Adds matchers to the rule of a tag. -/
def add (f : TagFilter) (tag : String) (matchers : List Matcher) : TagFilter :=
  if matchers.isEmpty then f else Keyed.alter f tag fun old => old.getD [] ++ matchers

/-- The rules of both. -/
def merge (f g : TagFilter) : TagFilter := g.foldl (fun f (tag, matchers) => f.add tag matchers) f

def ofList (rules : List (String × Matcher)) : TagFilter :=
  rules.foldl (fun f (tag, m) => f.add tag [m]) []

/-- The matchers given for a tag. -/
def matchersOf (patterns : PatternLanguage) (tag : String) : Json → Except Error (List Matcher)
  | .array items => items.mapM (Matcher.ofJson patterns tag)
  | j => (Matcher.ofJson patterns tag j).map ([·])

/-- The filter that a configuration describes. -/
def ofMembers (config : Keyed Json) (patterns : PatternLanguage := .basic) :
    Except Error TagFilter :=
  config.foldlM (fun f (tag, j) => (matchersOf patterns tag j).map (f.add tag)) []

end TagFilter

end DocComment
