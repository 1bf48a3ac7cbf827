/-
What an interpretation takes from its context.

Rendering looks at four things in a context (`Context.RendersAlike`), and everything else is for the
interpreters.  So a comment means the same in two contexts that render alike, and fails in the same
way, if the interpreters of its tags do not tell the two apart (`ofComment_congr`).
-/
import DocComment.Document
import Mathlib.Data.List.Basic

namespace DocComment

/-- The contexts agree in all that rendering looks at. -/
structure Context.RendersAlike (ctx ctx' : Context) : Prop where
  renderMarkdown : ctx.renderMarkdown = ctx'.renderMarkdown
  renderMarkdownProps : ctx.renderMarkdownProps = ctx'.renderMarkdownProps
  markdown : ctx.markdown = ctx'.markdown
  renderer : ctx.renderer = ctx'.renderer

theorem Context.renderText_congr {ctx ctx' : Context} (h : ctx.RendersAlike ctx') (s : String) :
    ctx.renderText s = ctx'.renderText s := by
  rw [renderText, renderText, h.renderer, h.markdown]

namespace Value

variable {ctx ctx' : Context}

mutual

theorem renderAt_congr (h : ctx.RendersAlike ctx') (path : List String) :
    ∀ v : Value, v.renderAt ctx path = v.renderAt ctx' path
  | .markdown s => by rw [renderAt, renderAt, ctx.renderText_congr h]
  | .text s => by rw [renderAt, renderAt, ctx.renderText_congr h, h.renderMarkdownProps]
  | .null | .bool _ | .number _ => rfl
  | .list items => by rw [renderAt, renderAt, renderItems_congr h path items]
  | .record fields => by rw [renderAt, renderAt, renderFields_congr h path fields]

theorem renderItems_congr (h : ctx.RendersAlike ctx') (path : List String) :
    ∀ items : List Value, renderItems ctx path items = renderItems ctx' path items
  | [] => rfl
  | v :: vs => by
    rw [renderItems, renderItems, renderAt_congr h path v, renderItems_congr h path vs]

theorem renderFields_congr (h : ctx.RendersAlike ctx') (path : List String) :
    ∀ fields : List (String × Value), renderFields ctx path fields = renderFields ctx' path fields
  | [] => rfl
  | (k, v) :: fs => by
    rw [renderFields, renderFields, renderAt_congr h (path ++ [k]) v,
      renderFields_congr h path fs]

end

end Value

namespace Interpretation

variable {ctx ctx' : Context} (h : ctx.RendersAlike ctx') {registry : Registry}

include h

theorem addKey_congr (raw : String) : addKey ctx raw = addKey ctx' raw := by
  funext i p
  obtain ⟨key, value⟩ := p
  rw [addKey, addKey, h.renderMarkdown, Value.renderAt_congr h]

/-- A tag adds the same if its interpreter does not tell the contexts apart. -/
theorem addTag_congr {p : String × List Entry}
    (hp : interpreterOf registry p.1 ctx p.2 = interpreterOf registry p.1 ctx' p.2) (raw : String)
    (i : Interpretation) : addTag registry ctx raw i p = addTag registry ctx' raw i p := by
  obtain ⟨tag, es⟩ := p
  rw [addTag, addTag, hp, addKey_congr h]

theorem ofEntries_congr {es : Entries}
    (hes : ∀ p ∈ es, interpreterOf registry p.1 ctx p.2 = interpreterOf registry p.1 ctx' p.2)
    (raw : String) : ofEntries registry ctx raw es = ofEntries registry ctx' raw es :=
  List.foldl_ext _ _ _ fun i p hp => addTag_congr h (hes p hp) raw i

/-- A comment means the same in both contexts, and fails in the same way. -/
theorem ofComment_congr {comment : String}
    (hes : ∀ p ∈ Comment.entries comment,
      interpreterOf registry p.1 ctx p.2 = interpreterOf registry p.1 ctx' p.2) :
    Block.ofComment registry ctx comment = Block.ofComment registry ctx' comment := by
  have hsame := ofEntries_congr h hes (Comment.normalize comment)
  rw [Comment.entries] at hsame
  rw [Block.ofComment, Block.ofComment, Entries.interpret, Entries.interpret, hsame]

end Interpretation

end DocComment
