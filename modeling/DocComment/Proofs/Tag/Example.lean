/-
Code in examples.

The escapes of at signs are resolved twice in the code of an example: where the lines of the comment
are read, and once more where the example is made of them.  So code that is written with a backslash
before each at sign (`exampleComment`) comes back as it was, except that it has lost a backslash of
its own before an at sign.

* `codeOf_eq` — the code of an example, line by line;
* `ofComment_exampleComment` — the one example that is read from the comment.

`example_code` says this of all code, and that the code survives just if it has no escaped at sign.
-/
import DocComment.Document
import DocComment.Proofs.Comment.Draft
import DocComment.Proofs.Interpretation.Run
import DocComment.Proofs.Text.Escape

namespace DocComment.Tag

open Comment Text

/-! ### Code -/

/-- Lines of code as a comment can hold them: plain ones, the first of which is not indented and the
last of which is not empty. -/
structure IsCode (ls : List String) : Prop where
  isPlain_of_mem : ∀ l ∈ ls, IsPlain l.toList
  first : ∃ l c, ls.head? = some l ∧ l.toList.head? = some c ∧ DocComment.isBlank c = false
  getLast?_ne : ls.getLast? ≠ some ""

/-- A comment with one example: each line of code behind a star, with a backslash before each at
sign, an empty line as a star alone. -/
def exampleComment (ls : List String) : String :=
  String.ofList (unlines (["/**".toList, " * @example js".toList] ++
    ls.map (fun l => starred (escape l.toList)) ++ [" */".toList]))

/-- The entry that the comment holds. -/
def exampleEntry (ls : List String) : Entry := ⟨"example", some "js", ls⟩

/-- The record of an example without a title and a description. -/
def exampleRecord (code : String) : Value :=
  .record [("language", .text "js"), ("title", .null), ("description", .null), ("code", .text code)]

/-- The texts of examples are not among those that are rendered. -/
def LeavesExamples (ctx : Context) : Prop :=
  ctx.renderMarkdown = true →
    ∀ key ∈ ["language", "code"],
      Selector.anySelects ctx.renderMarkdownProps ["example", key] = false

theorem renderAt_exampleRecord {ctx : Context}
    (h : ∀ key ∈ ["language", "code"],
      Selector.anySelects ctx.renderMarkdownProps ["example", key] = false) (code : String) :
    (Value.list [exampleRecord code]).renderAt ctx ["example"] =
      .ok (.list [exampleRecord code]) := by
  have hlanguage := h "language" (by simp)
  have hcode := h "code" (by simp)
  simp only [exampleRecord, Value.renderAt, Value.renderItems, Value.renderFields,
    List.singleton_append, hlanguage, hcode]
  rfl

section Code

variable {ls : List String} (h : IsCode ls)
include h

theorem IsCode.ne_nil : ls ≠ [] := by
  rintro rfl
  obtain ⟨l, c, hl, -⟩ := h.first
  cases hl

theorem IsCode.isWritable : IsWritable (exampleEntry ls) where
  tag_ne_nil := show "example".toList ≠ [] by decide
  isAlphanum_of_mem_tag := List.all_eq_true.mp (show "example".toList.all Char.isAlphanum by decide)
  isInline := by
    rintro s ⟨⟩
    decide
  isContent := by
    refine ⟨?_, h.isPlain_of_mem⟩
    obtain ⟨l, c, hl, hc, -⟩ := h.first
    show ls.head? ≠ some ""
    rw [hl]
    rintro ⟨⟩
    cases hc

/-- The comment as a draft. -/
def exampleDraft : Draft where
  free := []
  entries := [exampleEntry ls]
  isContent_free := by decide
  isWritable_of_mem := by
    rintro e he
    rw [List.mem_singleton.mp he]
    exact h.isWritable

theorem block_exampleDraft : (exampleDraft h).block = exampleComment ls := by
  have hrows : (exampleDraft h).rows.map starred =
      " * @example js".toList :: ls.map fun l => starred (escape l.toList) := by
    simp [Draft.rows, exampleDraft, exampleEntry, entryRows, textRows, headline,
      starred.eq_def ('@' :: _)]
  rw [Draft.block, hrows]
  rfl

theorem segment_exampleComment :
    Comment.segment (Comment.normalize (exampleComment ls)) = [("example", [exampleEntry ls])] := by
  rw [Comment.segment, Comment.normalize, String.toList_ofList, ← block_exampleDraft h,
    Draft.sectionsOf_block]
  rfl

/-- Trimming takes nothing from the code. -/
theorem trim_unlines_code :
    trim (unlines (ls.map String.toList)) = unlines (ls.map String.toList) := by
  have hstart : trimStart (unlines (ls.map String.toList)) = unlines (ls.map String.toList) := by
    obtain ⟨l, c, hl, hc, hblank⟩ := h.first
    obtain ⟨rest, rfl⟩ := List.head?_eq_some_iff.mp hl
    have hne : l.toList ≠ [] := by
      intro hnil
      rw [hnil] at hc
      cases hc
    rw [trimStart_eq_self_iff, List.map_cons, head?_unlines_cons hne, hc]
    rintro d ⟨⟩
    exact hblank
  have hend : trimEnd (unlines (ls.map String.toList)) = unlines (ls.map String.toList) := by
    obtain ⟨init, l, rfl⟩ := (List.eq_nil_or_concat' ls).resolve_left h.ne_nil
    have hl : l ≠ "" := by simpa using h.getLast?_ne
    have hplain := h.isPlain_of_mem l (by simp)
    rw [trimEnd_eq_self_iff, List.map_append, List.map_singleton,
      getLast?_unlines_concat (by simpa using hl), ← trimEnd_eq_self_iff]
    exact hplain.trimEnd_eq
  rw [trim, hstart, hend]

/-- The code of the example, line by line. -/
theorem codeOf_eq : codeOf (exampleEntry ls) =
    String.ofList (unlines (ls.map fun l => unescape '@' l.toList)) := by
  have hjoined : (exampleEntry ls).joined.toList = unlines (ls.map String.toList) := by
    show (joinContent ls).toList = _
    rw [joinContent, dropTrailingBreak, if_neg h.getLast?_ne, String.toList_ofList]
  rw [codeOf, hjoined, trim_unlines_code h, unescape_unlines (by decide), List.map_map]
  rfl

theorem example_exampleEntry (ctx : Context) :
    example_ ctx [exampleEntry ls] =
      .ok (some (.list [exampleRecord (codeOf (exampleEntry ls))])) := by
  have hbody : (exampleEntry ls).body = ls := if_neg h.getLast?_ne
  have hcolumns : columns "js" = ["js"] := by
    rw [columns, columnsOf, show trim "js".toList = ['j', 's'] by decide,
      columnsFrom_of_forall (by simp [DocComment.isBlank])]
    rfl
  have hrecord : exampleOf (exampleEntry ls) = exampleRecord (codeOf (exampleEntry ls)) := by
    have hfields : ((exampleEntry ls).inline.map columns).getD [] = ["js"] := hcolumns
    rw [exampleOf, hfields]
    rfl
  rw [example_, List.filter_cons_of_pos (by simpa [hbody] using h.ne_nil), List.filter_nil,
    List.map_singleton, hrecord]

/-- What is read from the comment: one example, and nothing is reported. -/
theorem ofComment_exampleComment {ctx : Context} (hctx : LeavesExamples ctx) :
    (Block.ofComment .builtin ctx (exampleComment ls)).2 = [] ∧
      Keyed.get? (Block.ofComment .builtin ctx (exampleComment ls)).1.record "example" =
        some (.list [exampleRecord (codeOf (exampleEntry ls))]) := by
  have hrun : ∀ raw, Interpretation.ofEntries .builtin ctx raw [("example", [exampleEntry ls])] =
      ⟨[("example", .list [exampleRecord (codeOf (exampleEntry ls))])], []⟩ := fun raw =>
    Interpretation.ofEntries_singleton .builtin ctx raw (by decide) (example_exampleEntry h ctx) rfl
      fun hrender => renderAt_exampleRecord (hctx hrender) _
  rw [Block.ofComment, segment_exampleComment h]
  dsimp only
  rw [Entries.interpret, hrun]
  exact ⟨rfl, rfl⟩

/-- The code survives if it has no escaped at sign. -/
theorem unlines_map_unescape_eq_iff :
    unlines (ls.map fun l => unescape '@' l.toList) = unlines (ls.map String.toList) ↔
      ∀ l ∈ ls, ¬"\\@".toList <:+: l.toList := by
  have hnewline : ∀ l ∈ ls, '\n' ∉ l.toList := fun l hl => (h.isPlain_of_mem l hl).newline_notMem
  rw [unlines_inj _ _ (by simpa using h.ne_nil) (by simpa using h.ne_nil), List.map_inj_left]
  · exact forall₂_congr fun l _ => unescape_eq_self_iff
  · rintro k hk
    obtain ⟨l, hl, rfl⟩ := List.mem_map.mp hk
    exact newline_notMem_unescape (hnewline l hl)
  · rintro k hk
    obtain ⟨l, hl, rfl⟩ := List.mem_map.mp hk
    exact hnewline l hl

end Code

/-- What becomes of code: there is one example, nothing is reported, and a line has lost a backslash
before each at sign that still had one.  So the code survives if it has no escaped at sign. -/
theorem example_code {ctx : Context} (hctx : LeavesExamples ctx) {ls : List String}
    (h : IsCode ls) :
    (Block.ofComment .builtin ctx (exampleComment ls)).2 = [] ∧
      ∃ code, Keyed.get? (Block.ofComment .builtin ctx (exampleComment ls)).1.record "example" =
          some (.list [exampleRecord code]) ∧
        code.toList = unlines (ls.map fun l => unescape '@' l.toList) ∧
        (code.toList = unlines (ls.map String.toList) ↔
          ∀ l ∈ ls, ¬"\\@".toList <:+: l.toList) := by
  obtain ⟨hreported, hexample⟩ := ofComment_exampleComment h hctx
  have hcode : (codeOf (exampleEntry ls)).toList =
      unlines (ls.map fun l => unescape '@' l.toList) := by
    rw [codeOf_eq h, String.toList_ofList]
  refine ⟨hreported, codeOf (exampleEntry ls), hexample, hcode, ?_⟩
  rw [hcode]
  exact unlines_map_unescape_eq_iff h

/-- A first line that begins with an escaped at sign, an empty line and an indented one. -/
theorem example_code_sample :
    LeavesExamples { renderer := .plain } ∧ IsCode ["\\@media screen", "", "  @x"] ∧
      Keyed.get? (Block.ofComment .builtin { renderer := .plain }
          "/**\n * @example js\n * \\\\@media screen\n *\n *   \\@x\n */").1.record "example" =
        some (.list [exampleRecord "@media screen\n\n  @x"]) := by
  have hctx : LeavesExamples { renderer := .plain } := fun h => nomatch h
  have hlines : IsCode ["\\@media screen", "", "  @x"] :=
    ⟨by decide, ⟨_, '\\', rfl, by decide, by decide⟩, by decide⟩
  obtain ⟨-, code, hexample, htext, -⟩ := example_code hctx hlines
  have hcode : code = "@media screen\n\n  @x" := String.toList_inj.mp (htext.trans (by decide))
  exact ⟨hctx, hlines, hcode ▸ hexample⟩

/-- A line with an escaped at sign is not read as it was written. -/
theorem not_forall_example_code :
    ¬∀ ls, IsCode ls → ∃ r,
      Keyed.get? (Block.ofComment .builtin { renderer := .plain } (exampleComment ls)).1.record
          "example" = some (.list [.record r]) ∧
        Keyed.get? r "code" = some (.text (String.ofList (unlines (ls.map String.toList)))) := by
  intro hall
  have hctx : LeavesExamples { renderer := .plain } := fun h => nomatch h
  have hlines : IsCode ["a\\@b"] := ⟨by decide, ⟨_, 'a', rfl, by decide, by decide⟩, by decide⟩
  obtain ⟨r, hr, htext⟩ := hall _ hlines
  obtain ⟨-, hexample⟩ := ofComment_exampleComment hlines hctx
  rw [hr, codeOf_eq hlines, Option.some_inj, Value.list.injEq, List.cons.injEq] at hexample
  obtain rfl := Value.record.inj hexample.1
  have hread : Value.text "a@b" = .text "a\\@b" := Option.some.inj htext
  exact absurd (Value.text.inj hread) (by decide)

end DocComment.Tag
