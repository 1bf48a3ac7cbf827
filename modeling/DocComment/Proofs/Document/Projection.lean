/-
The text of a document as a source.

`toText` puts the comments of a document one below the other, in normal form.  Where each of them
closed at its end alone, the scan finds the same comments in that text again, in the same order,
whatever the order is (`comments_toText`).
-/
import DocComment.Proofs.Comment.NormalComment
import DocComment.Proofs.Document

namespace DocComment.Document

open Comment

/-- The block was read from a comment of the text that closes at its end alone. -/
def HasSource (source : String) (b : Block) : Prop :=
  ∃ comment ∈ comments source, b.raw = normalize comment ∧ ClosesOnlyAtEnd comment.toList

theorem HasSource.isComment {source : String} {b : Block} (h : HasSource source b) :
    IsComment b.raw.toList ∧ isCommentedOut b.raw.toList = false := by
  obtain ⟨comment, hmem, hraw, hcloses⟩ := h
  rw [hraw]
  exact isComment_normalize hmem hcloses

/-- Every block was read from a comment of the text. -/
theorem exists_comment_of_mem_keptBlocks {o : Options} {filter : TagFilter} {registry : Registry}
    {source : String} {b : Block} (h : b ∈ keptBlocks o filter registry source) :
    ∃ comment ∈ comments source, b.raw = normalize comment := by
  obtain ⟨r, hr, rfl⟩ := List.mem_map.mp (List.mem_filter.mp h).1
  obtain ⟨comment, hcomment, rfl⟩ := List.mem_map.mp hr
  exact ⟨comment, (List.mem_filter.mp hcomment).1, rfl⟩

/-- Texts one below the other, on characters. -/
theorem toList_intercalate_newline (ts : List String) :
    ("\n".intercalate ts).toList = Text.unlines (ts.map String.toList) := by
  rw [String.toList_intercalate]
  rfl

theorem comments_intercalate {source : String} {bs : List Block}
    (h : ∀ b ∈ bs, HasSource source b) :
    comments ("\n".intercalate (bs.map Block.raw)) = bs.map Block.raw := by
  have hcomments : ∀ m ∈ (bs.map Block.raw).map String.toList,
      IsComment m ∧ isCommentedOut m = false := by
    intro m hm
    rw [List.map_map] at hm
    obtain ⟨b, hb, rfl⟩ := List.mem_map.mp hm
    exact (h b hb).isComment
  rw [comments, toList_intercalate_newline, commentsOf_unlines hcomments, List.map_map]
  simp

/-- **The text of a document can be read again.**  If every block that parsing gave was read from a
comment that closes at its end alone, then whatever is done with the document, the comments of its
text are the comments of its blocks, in their order. -/
theorem comments_toText {d d₁ : Document} {failures : List TagFailure} {bs₁ : List Block}
    (hparse : d.parse = .ok (d₁, failures)) (hblocks : d₁.blocks = .ok bs₁)
    (hsource : ∀ b ∈ bs₁, HasSource d.source b) (as : List Action) :
    ∃ d₂ reports bs₂ text, d₁.run as = .ok (d₂, reports) ∧ d₂.blocks = .ok bs₂ ∧ bs₂.Perm bs₁ ∧
      d₂.toText = .ok text ∧ comments text = bs₂.map Block.raw := by
  obtain ⟨filter, registry, hfilter, hregistry, rfl, -⟩ := exists_of_parse_eq_ok hparse
  have hsettled := isSettled_parsed d filter registry
  obtain ⟨bs, hbs, hperm⟩ := hsettled.exists_blocks
  obtain rfl : bs = bs₁ := Except.ok.inj ((shows_of_blocks? hbs).blocks_eq.symm.trans hblocks)
  obtain ⟨d₂, hrun, h₂⟩ := hsettled.run hfilter hregistry as
  obtain ⟨bs₂, hbs₂, hperm₂⟩ := h₂.exists_blocks
  have hshows := shows_of_blocks? hbs₂
  have hsame : bs₂.Perm bs := hperm₂.trans hperm.symm
  refine ⟨d₂, _, bs₂, _, hrun, hshows.blocks_eq, hsame, hshows.toText_eq, ?_⟩
  exact comments_intercalate fun b hb => hsource b (hsame.mem_iff.mp hb)

/-- A comment on one line that has a break and slashes in it, and one on three lines. -/
def textSample : Document where
  source := "/** @name b // c * @since 1 */\n/**\n * @name a\n **/"
  options := { registry := [], order := fun _ _ => .gt }

theorem comments_toText_textSample :
    ∃ d₁ failures bs₁, textSample.parse = .ok (d₁, failures) ∧ d₁.blocks = .ok bs₁ ∧
      (∀ b ∈ bs₁, HasSource textSample.source b) ∧
      ∀ as : List Action, ∃ d₂ reports bs₂ text,
        d₁.run as = .ok (d₂, reports) ∧ d₂.blocks = .ok bs₂ ∧ bs₂.Perm bs₁ ∧
        d₂.toText = .ok text ∧ comments text = bs₂.map Block.raw := by
  have hparse : textSample.parse = .ok (textSample.parsed [] [], _) := parse_eq rfl rfl
  have hcomments : comments textSample.source =
      ["/** @name b // c * @since 1 */", "/**\n * @name a\n **/"] := by decide +kernel
  have hcloses : ∀ comment ∈ comments textSample.source, ClosesOnlyAtEnd comment.toList := by
    intro comment hmem
    refine (isComment_of_mem_comments hmem).closesOnlyAtEnd_iff.mpr ?_
    simp only [hcomments, List.mem_cons, List.not_mem_nil, or_false] at hmem
    rcases hmem with rfl | rfl <;> decide
  have hsource : ∀ b ∈ insertionSort (fun a b => textSample.options.order a.record b.record)
      (keptBlocks textSample.options [] [] textSample.source), HasSource textSample.source b := by
    intro b hb
    obtain ⟨comment, hmem, hraw⟩ :=
      exists_comment_of_mem_keptBlocks ((insertionSort_perm _ _).mem_iff.mp hb)
    exact ⟨comment, hmem, hraw, hcloses comment hmem⟩
  exact ⟨_, _, _, hparse, rfl, hsource, comments_toText hparse rfl hsource⟩

end DocComment.Document
