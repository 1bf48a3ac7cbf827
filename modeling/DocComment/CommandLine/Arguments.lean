/-
The arguments of the command line.

There are two commands, each with options of its own: `parse` reads files, `namespaces` indexes a
folder.  Some options go before or after the command.  The arguments of a level, before the command
or after it, are read from left to right (`Reading`):

* an option takes its value from the same argument, after an equals sign or right after its letter,
  or else from the next one;
* a value is checked when the next option or positional argument is taken in, or at the end;
* two hyphens alone make positional arguments of all that follows.

The level of the command is finished before the level before it.  What is wrong is a `Usage`, and so
is a request for help.

Design notes: an option that waits for its value, and positional arguments that are still collected,
are the one `pending` part of a reading.  `resolve` takes it in, so the order of complaints is the
order in which `resolve` is called.
-/
import DocComment.CommandLine.TagValue
import DocComment.Files.Path

namespace DocComment.CommandLine

/-- Why the arguments ask for no run. -/
inductive Usage where
  /-- The value of an option is missing or not one of its values. -/
  | invalidValue
  /-- The value of an option cannot be read. -/
  | unreadableValue
  /-- Two options exclude each other, or one is given twice. -/
  | conflict
  | unknownArgument
  | unknownCommand
  | missingArgument
  | missingCommand
  /-- A value for an option without one. -/
  | unexpectedValue
  | help
  | version
  | noArguments
deriving DecidableEq, Repr

/-- Where an argument stands: before the command, or after one of the two. -/
inductive Level where
  | top
  | parse
  | namespaces
deriving DecidableEq, Repr

inductive Switch where
  | verbose
  | quiet
  | noColor
  | renderMarkdown
  | strict
deriving DecidableEq, Repr

/-- Options with a value. -/
inductive Valued where
  | config
  | format
  | filterTag
  | exclude
deriving DecidableEq, Repr

inductive Known where
  | switch (s : Switch)
  | valued (v : Valued)
  | help
  | version
deriving DecidableEq, Repr

inductive OutputFormat where
  | json
  | text
deriving DecidableEq, Repr

/-- The option of a level with a long name. -/
def Level.long? (level : Level) (name : Text) : Option Known :=
  match String.ofList name, level with
  | "verbose", _ => some (.switch .verbose)
  | "quiet", _ => some (.switch .quiet)
  | "no-color", _ => some (.switch .noColor)
  | "config", _ => some (.valued .config)
  | "help", _ => some .help
  | "version", .top => some .version
  | "format", .parse => some (.valued .format)
  | "filter-tag", .parse => some (.valued .filterTag)
  | "render-markdown", .parse => some (.switch .renderMarkdown)
  | "strict", .parse => some (.switch .strict)
  | "exclude", .namespaces => some (.valued .exclude)
  | _, _ => none

/-- The option of a level with a letter. -/
def Level.short? (level : Level) (letter : Char) : Option Known :=
  match letter, level with
  | 'v', _ => some (.switch .verbose)
  | 'q', _ => some (.switch .quiet)
  | 'c', _ => some (.valued .config)
  | 'h', _ => some .help
  | 'V', .top => some .version
  | 'f', .parse => some (.valued .format)
  | _, _ => none

/-- The level of a command. -/
def Level.ofCommand? : String → Option Level
  | "parse" => some .parse
  | "namespaces" => some .namespaces
  | _ => none

/-- The command that explains the others. -/
def helpCommand : String := "help"

/-- What waits to be taken in. -/
inductive Pending where
  /-- An option, with its value once it is there. -/
  | option (v : Valued) (value : Option String)
  | positional (values : List String)
deriving DecidableEq, Repr

/-- What has been read of a level. -/
structure Reading where
  switches : List Switch := []
  config : Option Path := none
  format : Option OutputFormat := none
  filterTags : List TagValue := []
  excludes : List String := []
  positional : List String := []
  pending : Option Pending := none
  /-- All that follows is positional. -/
  trailing : Bool := false
deriving Repr

namespace Reading

/-- Takes in the value of an option. -/
def store (r : Reading) (v : Valued) (value : String) : Except Usage Reading :=
  match v with
  | .config =>
    if r.config.isSome then .error .conflict
    else if value.isEmpty then .error .invalidValue
    else .ok { r with config := some ⟨value⟩ }
  | .format =>
    if r.format.isSome then .error .conflict
    else match value with
      | "json" => .ok { r with format := some .json }
      | "text" => .ok { r with format := some .text }
      | _ => .error .invalidValue
  | .filterTag =>
    match TagValue.parse value with
    | .ok t => .ok { r with filterTags := r.filterTags ++ [t] }
    | .error _ => .error .unreadableValue
  | .exclude => .ok { r with excludes := r.excludes ++ [value] }

/-- Takes in what is pending. -/
def resolve (r : Reading) : Except Usage Reading :=
  match r.pending with
  | none => .ok r
  | some (.option _ none) => .error .invalidValue
  | some (.option v (some value)) => { r with pending := none }.store v value
  | some (.positional values) =>
    if values.any String.isEmpty then .error .invalidValue
    else .ok { r with positional := r.positional ++ values, pending := none }

/-- Takes in an option without a value. -/
def addSwitch (r : Reading) (s : Switch) : Except Usage Reading := do
  let r ← r.resolve
  if s ∈ r.switches then throw .conflict
  return { r with switches := r.switches ++ [s] }

/-- Takes in an option with a value that stands in its own argument, or waits for the value. -/
def addValued (r : Reading) (v : Valued) (attached : Option Text) : Except Usage Reading := do
  let r ← r.resolve
  match attached with
  | some value => r.store v (String.ofList value)
  | none => return { r with pending := some (.option v none) }

/-- Takes in a request for a text. -/
def addRequest (r : Reading) (u : Usage) : Except Usage Reading := do
  let _ ← r.resolve
  throw u

/-- A long option, without its hyphens. -/
def addLong (level : Level) (r : Reading) (t : Text) : Except Usage Reading :=
  let (name, attached) := match Text.cutAt? (· == '=') t with
    | some (name, value) => (name, some value)
    | none => (t, none)
  match level.long? name, attached with
  | none, _ => .error .unknownArgument
  | some (.valued v), value => r.addValued v value
  | some _, some _ => .error .unexpectedValue
  | some (.switch s), none => r.addSwitch s
  | some .help, none => r.addRequest .help
  | some .version, none => r.addRequest .version

/-- A row of letters after a hyphen.  The first letter whose option has a value takes the letters
after it for this value. -/
def addLetters (level : Level) (r : Reading) : Text → Except Usage Reading
  | [] => .ok r
  | c :: t =>
    match level.short? c with
    | none => .error .unknownArgument
    | some (.switch s) =>
      match r.addSwitch s with
      | .ok r => addLetters level r t
      | .error u => .error u
    | some (.valued v) =>
      r.addValued v (if t.isEmpty then none else some ((Text.after? ['='] t).getD t))
    | some .help => r.addRequest .help
    | some .version => r.addRequest .version

/-- Whether the level takes one more positional argument. -/
def takesPositional (level : Level) (r : Reading) : Bool :=
  match level with
  | .top => false
  | .parse => true
  | .namespaces => r.positional.isEmpty && !(r.pending matches some (.positional _))

/-- The complaint about a positional argument that the level does not take. -/
def surplus (level : Level) (r : Reading) (arg : String) : Usage :=
  let isCommand := (Level.ofCommand? arg).isSome || arg == helpCommand
  if level = .top && !(r.trailing && isCommand) then .unknownCommand else .unknownArgument

def addPositional (level : Level) (r : Reading) (arg : String) : Except Usage Reading :=
  if !r.takesPositional level then .error (r.surplus level arg)
  else match r.pending with
    | some (.positional values) => .ok { r with pending := some (.positional (values ++ [arg])) }
    | _ => do
      let r ← r.resolve
      return { r with pending := some (.positional [arg]) }

/-- The option that waits for its value. -/
def waiting? (r : Reading) : Option Valued :=
  match r.pending with
  | some (.option v none) => some v
  | _ => none

/-- Reads one argument that is no command. -/
def addArgument (level : Level) (r : Reading) (arg : String) : Except Usage Reading :=
  if r.trailing then r.addPositional level arg
  else match arg.toList with
    | ['-', '-'] => .ok { r with trailing := true }
    | '-' :: '-' :: t => r.addLong level t
    | '-' :: c :: t => r.addLetters level (c :: t)
    | _ =>
      match r.waiting? with
      | some v => .ok { r with pending := some (.option v (some arg)) }
      | none => r.addPositional level arg

/-- Whether an argument may name a command here. -/
def mayBeCommand (level : Level) (r : Reading) : Bool :=
  level = .top && !r.trailing && r.waiting?.isNone

def isUntouched (r : Reading) : Bool :=
  r.switches.isEmpty && r.config.isNone

/-- The checks at the end of a level; `hasCommand` tells whether a command was read. -/
def finish (level : Level) (hasCommand : Bool) (r : Reading) : Except Usage Reading := do
  let r ← r.resolve
  if level = .top && !hasCommand then
    throw (if r.isUntouched then .noArguments else .missingCommand)
  if .verbose ∈ r.switches ∧ .quiet ∈ r.switches then throw .conflict
  if level = .namespaces && r.positional.isEmpty then throw .missingArgument
  return r

/-- Reads the arguments of a level, up to the command if there is one; its level and the arguments
after it. -/
def readLevel (level : Level) (r : Reading) :
    List String → Except Usage (Reading × Option (Level × List String))
  | [] => .ok (r, none)
  | arg :: args =>
    if r.mayBeCommand level && arg == helpCommand then
      .error (match args with
        | [] => .help
        | [name] => if (Level.ofCommand? name).isSome || name == helpCommand then .help
          else .unknownCommand
        | _ => .unknownCommand)
    else match (if r.mayBeCommand level then Level.ofCommand? arg else none) with
      | some command => .ok (r, some (command, args))
      | none =>
        match r.addArgument level arg with
        | .ok r => readLevel level r args
        | .error u => .error u

end Reading

/-- What the arguments ask for. -/
inductive Command where
  | parse (files : List Path) (format : OutputFormat) (filterTags : List TagValue)
      (renderMarkdown strict : Bool)
  | namespaces (folder : Path) (exclude : List String)
deriving Repr

structure Arguments where
  verbose : Bool
  quiet : Bool
  noColor : Bool
  config : Option Path
  command : Command
deriving Repr

namespace Arguments

def commandOf (level : Level) (r : Reading) : Command :=
  match level with
  | .namespaces => .namespaces ⟨r.positional.headD ""⟩ r.excludes
  | _ => .parse (r.positional.map Path.mk) (r.format.getD .json) r.filterTags
      (.renderMarkdown ∈ r.switches) (.strict ∈ r.switches)

/-- Reads the arguments.  Options that go with both levels count on either; of two files with a
configuration the one after the command counts. -/
def parse (args : List String) : Except Usage Arguments := do
  let (top, command?) ← Reading.readLevel .top {} args
  match command? with
  | none =>
    let _ ← top.finish .top false
    throw .missingCommand
  | some (level, args) =>
    let (inner, _) ← Reading.readLevel level {} args
    let inner ← inner.finish level true
    let top ← top.finish .top true
    let has (s : Switch) : Bool := s ∈ top.switches ++ inner.switches
    return ⟨has .verbose, has .quiet, has .noColor, inner.config.or top.config,
      commandOf level inner⟩

end Arguments

end DocComment.CommandLine
