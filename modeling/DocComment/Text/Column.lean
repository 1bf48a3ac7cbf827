/-
Columns: the fields of a tag's text.

A tag's text is laid out in columns that wide gaps separate: two or more blanks, or a single tab.
A single blank that is no tab belongs to the column it stands in, so a column may be a phrase.

* `columnsOf` always has at least one column;
* `hyphenate` closes every gap with one hyphen.
-/
import DocComment.Text.Cut

namespace DocComment.Text

/-- The columns of a text that has no blank at either end. -/
def columnsFrom : Text → List Text
  | [] => [[]]
  | c :: t =>
    if DocComment.isBlank c && (c == '\t' || (t.head?.any DocComment.isBlank)) then
      [] :: columnsFrom (t.dropWhile DocComment.isBlank)
    else (columnsFrom t).modifyHead (c :: ·)
termination_by t => t.length
decreasing_by
  · have := (List.dropWhile_sublist DocComment.isBlank (l := t)).length_le
    simp only [List.length_cons]
    omega
  · simp

/-- The columns of a text. -/
def columnsOf (t : Text) : List Text := columnsFrom (trim t)

theorem columnsFrom_ne_nil (t : Text) : columnsFrom t ≠ [] := by
  fun_induction columnsFrom t with
  | case1 => simp
  | case2 => simp
  | case3 c t _ ih =>
    cases h : columnsFrom t with
    | nil => exact absurd h ih
    | cons => simp

theorem columnsOf_ne_nil (t : Text) : columnsOf t ≠ [] := columnsFrom_ne_nil _

/-- A text without blanks is one column. -/
theorem columnsFrom_of_forall {t : Text} (h : ∀ c ∈ t, DocComment.isBlank c = false) :
    columnsFrom t = [t] := by
  fun_induction columnsFrom t with
  | case1 => rfl
  | case2 c t hgap _ => simp [h c List.mem_cons_self] at hgap
  | case3 c t _ ih =>
    rw [ih fun d hd => h d (List.mem_cons_of_mem c hd), List.modifyHead_cons]

/-- One hyphen for each run of blanks; `inGap` tells whether a run is being read. -/
def hyphenateFrom (inGap : Bool) : Text → Text
  | [] => []
  | c :: t =>
    if DocComment.isBlank c then
      if inGap then hyphenateFrom true t else '-' :: hyphenateFrom true t
    else c :: hyphenateFrom false t

/-- The text, trimmed, with one hyphen in place of each gap. -/
def hyphenate (t : Text) : Text := hyphenateFrom false (trim t)

end DocComment.Text

namespace DocComment

/-- The columns of a text. -/
def columns (s : String) : List String := (Text.columnsOf s.toList).map String.ofList

theorem columns_ne_nil (s : String) : columns s ≠ [] := by
  simpa [columns] using Text.columnsOf_ne_nil _

end DocComment
