/-
Slugs: restricted spellings of a name.

* `Slug.dotted` — words over `[a-z0-9_@]` joined by single dots and hyphens, the spelling of
  namespaces and of identifiers built from them;
* `Slug.identifier` — words over `[a-z0-9_]` joined by single hyphens, the spelling of a style
  class as a key;
* `Slug.url` — small letters and digits of any script joined by single hyphens, the spelling of one
  segment of an address.

Design notes: each slug reads the trimmed name from left to right and keeps what it has written so
far with the last character first, because a separator is judged by the character before it.
-/
import DocComment.Text.Alphanumeric
import DocComment.Text.Cut
import DocComment.Text.Lowercase

namespace DocComment.Slug

/-- The two separators of a dotted slug. -/
def isSeparator (c : Char) : Bool := c == '-' || c == '.'

/-- The spelling of one character; what is not allowed becomes a hyphen. -/
def dottedChar (c : Char) : Char :=
  if c.isAlphanum || c == '.' || c == '_' || c == '@' || c == '-' then c.toLower else '-'

/-- Writes one more character.  Separators merge, and between a dot and a hyphen the dot stays. -/
def pushDotted : Text → Char → Text
  | '-' :: done, '-' => '-' :: done
  | '.' :: done, '.' => '.' :: done
  | '.' :: done, '-' => '.' :: done
  | '-' :: done, '.' => '.' :: done
  | done, c => c :: done

/-- The dotted slug of a text. -/
def dottedOf (t : Text) : Text :=
  Text.strip isSeparator (((Text.trim t).map dottedChar).foldl pushDotted []).reverse

/-- Writes a hyphen unless one was just written. -/
def pushHyphen : Text → Text
  | '-' :: done => '-' :: done
  | done => '-' :: done

def pushIdentifier (done : Text) (c : Char) : Text :=
  if c.isAlphanum || c == '_' then c.toLower :: done else pushHyphen done

/-- The identifier slug of a text. -/
def identifierOf (t : Text) : Text :=
  Text.strip (· == '-') ((Text.trim t).foldl pushIdentifier []).reverse

def pushUrl (done : Text) (c : Char) : Text :=
  if isAlphanumeric c then (lowercase c).reverse ++ done
  else if isBlank c || c == '-' || c == '_' || c == '.' then pushHyphen done
  else done

/-- The address slug of a text. -/
def urlOf (t : Text) : Text := Text.strip (· == '-') ((Text.trim t).foldl pushUrl []).reverse

def dotted (s : String) : String := String.ofList (dottedOf s.toList)

def identifier (s : String) : String := String.ofList (identifierOf s.toList)

def url (s : String) : String := String.ofList (urlOf s.toList)

end DocComment.Slug
