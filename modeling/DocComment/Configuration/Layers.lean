/-
Configuration in layers.

The layers are, from the lowest to the highest: defaults, a file, environment variables, flags.  A
layer is an object; a higher one is put over a lower one key by key (`Json.overlay`), so that objects
merge and everything else is replaced.

* `Configuration.load` finds the file, `ofLayers` merges the layers and reads the result;
* `get?_overlayMembers_of_notMem` — a key that the higher layer does not have keeps its value.

Design notes: the keys of the merged objects are sorted, so their order does not tell which layer a
key came from.  All variables make up one layer (`environmentLayer`), put over the file as a whole.
-/
import DocComment.CommandLine.TagValue
import DocComment.Configuration.Environment
import DocComment.Files.Tree
import DocComment.Settings
import DocComment.Toml.Reader

namespace DocComment

namespace Json

mutual

/-- The first document put over the second. -/
def overlay : Json → Json → Json
  | .object members, .object low => .object (overlayMembers members low)
  | .object members, _ => .object members
  | .null, _ => .null
  | .bool b, _ => .bool b
  | .number n, _ => .number n
  | .string s, _ => .string s
  | .array items, _ => .array items

def overlayMembers : List (String × Json) → Keyed Json → Keyed Json
  | [], low => low
  | (k, v) :: ms, low =>
    overlayMembers ms (Keyed.insert low k (match Keyed.get? low k with
      | some old => overlay v old
      | none => v))

end

mutual

/-- The document with the keys of all objects in order. -/
def sorted : Json → Json
  | .object members =>
    .object ((sortedMembers members).mergeSort fun a b => !decide (b.1 < a.1))
  | .array items => .array (sortedItems items)
  | .null => .null
  | .bool b => .bool b
  | .number n => .number n
  | .string s => .string s

def sortedItems : List Json → List Json
  | [] => []
  | v :: vs => sorted v :: sortedItems vs

def sortedMembers : List (String × Json) → List (String × Json)
  | [] => []
  | (k, v) :: ms => (k, sorted v) :: sortedMembers ms

end

theorem get?_overlayMembers_of_notMem (ms : List (String × Json)) (low : Keyed Json) (key : String)
    (h : key ∉ ms.map Prod.fst) : Keyed.get? (overlayMembers ms low) key = Keyed.get? low key := by
  induction ms generalizing low with
  | nil => simp [overlayMembers]
  | cons p ms ih =>
    obtain ⟨k, v⟩ := p
    simp only [List.map_cons, List.mem_cons, not_or] at h
    rw [overlayMembers, ih _ h.2]
    simp [h.1]

end Json

structure Configuration where
  settings : Settings := {}
  /-- The globs of files that an index leaves out. -/
  exclude : List String := []
deriving Inhabited

namespace Configuration

inductive Problem where
  | fileNotFound (file : Path)
  | unsupportedFormat (file : Path)
  /-- A layer cannot be read, or the merged layers have members of the wrong type. -/
  | invalid
deriving DecidableEq, Repr

def Problem.message : Problem → String
  | .fileNotFound file => "Configuration error: Config file not found: " ++ file.text
  | .unsupportedFormat file => "Configuration error: Unsupported config format: " ++ file.text
  | .invalid => "Configuration error: Invalid configuration"

/-- What the command line says about the configuration. -/
structure Flags where
  renderMarkdown : Bool := false
  filterTags : List TagValue := []
  exclude : List String := []
deriving Repr

/-- The flags that were given. -/
def Flags.layer (f : Flags) : Json :=
  .object
    ((if f.renderMarkdown then [("renderMarkdown", .bool true)] else []) ++
      (if f.filterTags.isEmpty then []
        else [("filterByTag",
          .object (Keyed.ofList (f.filterTags.map fun t => (t.tag, .string t.value))))]) ++
      (if f.exclude.isEmpty then [] else [("exclude", .array (f.exclude.map .string))]))

def defaults : Json := .object (((Settings.toJson {}).object?).getD [] ++ [("exclude", .array [])])

/-- The files that are looked for when none is asked for. -/
def defaultFiles : List Path := [⟨"docblock.config.json"⟩, ⟨"docblock.config.toml"⟩]

/-- The file of a configuration, if there is one. -/
def file? (tree : FileTree) (asked : Option Path) : Except Problem (Option Path) :=
  match asked with
  | some p => if tree.isFile p then .ok (some p) else .error (.fileNotFound p)
  | none => .ok (defaultFiles.find? tree.isFile)

/-- The layer that a file describes. -/
def fileLayer (tree : FileTree) (p : Path) : Except Problem Json :=
  let format? : Option (String → Option (Keyed Json)) :=
    match p.extension? with
    | some "json" => some fun s => (Json.parse? s).bind Json.object?
    | some "toml" => some Toml.parse?
    | _ => none
  match format? with
  | none => .error (.unsupportedFormat p)
  | some read =>
    match (tree.read? p).bind read with
    | some members => .ok (.object members)
    | none => .error .invalid

/-- Reads the merged layers; members that mean nothing are ignored. -/
def ofJson? (j : Json) : Option Configuration := do
  let members ← j.object?
  return ⟨← Settings.ofMembers? members,
    ← Json.member? members "exclude" Json.strings? []⟩

/-- The layers put over each other, the lowest first. -/
def stack (layers : List Json) : Json :=
  layers.foldl (fun low high => Json.overlay high low) (Json.object [])

def merge (layers : List Json) : Json := (stack layers).sorted

/-- What the environment sets; later variables are put over earlier ones. -/
def environmentLayer (environment : List (String × String)) : Json :=
  stack (environment.filterMap fun (name, value) => Environment.layerOf? name value)

/-- What the file of a configuration sets, if there is one. -/
def fileLayer? (tree : FileTree) (asked : Option Path) : Except Problem (Option Json) := do
  match ← file? tree asked with
  | some p => return some (← fileLayer tree p)
  | none => return none

/-- The configuration that the layer of a file, the environment and the flags make up. -/
def ofLayers (file : Option Json) (environment : List (String × String)) (flags : Flags) :
    Except Problem Configuration :=
  match ofJson? (merge (defaults :: file.toList ++
      [environmentLayer environment, flags.layer])) with
  | some c => .ok c
  | none => .error .invalid

/-- Finds the file and reads all layers. -/
def load (tree : FileTree) (asked : Option Path) (environment : List (String × String))
    (flags : Flags) : Except Problem Configuration := do
  ofLayers (← fileLayer? tree asked) environment flags

end Configuration

end DocComment
