/-
Rendering the markdown in a value.

The leaves that are rendered are chosen by kind and by place: markdown always is, a plain text is if
the path to it is selected.  A path is the list of keys from the top of the record; lists add
nothing to it.

* `selects` — a selector is a dotted row of keys, a star stands for any key, and it selects every
  path that begins with it;
* `renderAt` — rendering a value keeps its shape; the first leaf that cannot be rendered fails the
  whole value;
* `renderOn` — the same with one path for the whole value: a key is put on it for as long as what
  stands under the key is rendered.
-/
import DocComment.Tag.Interpreter

namespace DocComment

namespace Selector

/-- The keys of a selector. -/
def keys (selector : String) : List String := (selector.toList.splitOn '.').map String.ofList

/-- The keys agree with the path as far as they go. -/
def matchesKeys : List String → List String → Bool
  | [], _ => true
  | _ :: _, [] => false
  | k :: ks, p :: path => (k == "*" || k == p) && matchesKeys ks path

def selects (selector : String) (path : List String) : Bool := matchesKeys (keys selector) path

/-- One of the selectors selects the path. -/
def anySelects (selectors : List String) (path : List String) : Bool :=
  selectors.any (selects · path)

end Selector

/-- Renders a text, on one line without the paragraph around it. -/
def Context.renderText (ctx : Context) (s : String) : Except Fault Value :=
  let rendered :=
    if Value.isSingleLine s then ctx.renderer.inline ctx.markdown s
    else ctx.renderer.block ctx.markdown s
  rendered.map .text

namespace Value

mutual

/-- Renders the leaves of a value that stands at a path. -/
def renderAt (ctx : Context) (path : List String) : Value → Except Fault Value
  | .markdown s => ctx.renderText s
  | .text s =>
    if Selector.anySelects ctx.renderMarkdownProps path then ctx.renderText s else .ok (.text s)
  | .list items => (renderItems ctx path items).map .list
  | .record fields => (renderFields ctx path fields).map .record
  | .null => .ok .null
  | .bool b => .ok (.bool b)
  | .number n => .ok (.number n)

def renderItems (ctx : Context) (path : List String) : List Value → Except Fault (List Value)
  | [] => .ok []
  | v :: vs => do return (← renderAt ctx path v) :: (← renderItems ctx path vs)

def renderFields (ctx : Context) (path : List String) :
    List (String × Value) → Except Fault (List (String × Value))
  | [] => .ok []
  | (k, v) :: fs => do
    return (k, ← renderAt ctx (path ++ [k]) v) :: (← renderFields ctx path fs)

end

mutual

/-- Renders the leaves of a value that stands at a path, and hands the path back. -/
def renderOn (ctx : Context) : Value → List String → Except Fault Value × List String
  | .markdown s, path => (ctx.renderText s, path)
  | .text s, path =>
    if Selector.anySelects ctx.renderMarkdownProps path then (ctx.renderText s, path)
    else (.ok (.text s), path)
  | .list items, path =>
    let (rendered, path) := renderItemsOn ctx items path
    (rendered.map .list, path)
  | .record fields, path =>
    let (rendered, path) := renderFieldsOn ctx fields path
    (rendered.map .record, path)
  | .null, path => (.ok .null, path)
  | .bool b, path => (.ok (.bool b), path)
  | .number n, path => (.ok (.number n), path)

def renderItemsOn (ctx : Context) :
    List Value → List String → Except Fault (List Value) × List String
  | [], path => (.ok [], path)
  | v :: vs, path =>
    match renderOn ctx v path with
    | (.error fault, path) => (.error fault, path)
    | (.ok rendered, path) =>
      let (rest, path) := renderItemsOn ctx vs path
      (rest.map (rendered :: ·), path)

/-- The key comes off the path before a fault is passed on. -/
def renderFieldsOn (ctx : Context) :
    List (String × Value) → List String → Except Fault (List (String × Value)) × List String
  | [], path => (.ok [], path)
  | (k, v) :: fs, path =>
    let (rendered, path) := renderOn ctx v (path ++ [k])
    let path := path.dropLast
    match rendered with
    | .error fault => (.error fault, path)
    | .ok rendered =>
      let (rest, path) := renderFieldsOn ctx fs path
      (rest.map ((k, rendered) :: ·), path)

end

end Value

end DocComment
