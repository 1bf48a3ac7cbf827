/-
Regions: a line that starts a tag with the lines under it, up to the next one.

A line that starts a tag closes whatever is open, so the reader comes to it as it comes to the first
line of a comment (`sections_append`).  Each region is therefore read by itself, and what becomes of
its lines is decided by the first of them that counts, a text or a lone star:

* a text belongs to the tag, and so do all texts after it, with an empty line for each star between;
* a star closes the tag, and the texts after it are a description of their own.

`exists_regions` says so of all regions of a comment and of the lines before the first of them.
`segment_append` says that two comments, one written under the other, are read one by one if the
second begins with a tag.
-/
import DocComment.Proofs.Comment.Sections

namespace DocComment.Comment

open Text

/-! ### Tags reset the reader -/

/-- A line that starts a tag leaves nothing open, so the lines from there on are read as if they were
all there are. -/
theorem sections_append (cursor : Cursor) (ls : List Line) {ls' : List Line}
    (h : ∀ l ∈ ls'.head?, l.start? ≠ none) :
    sections cursor (ls ++ ls') = sections cursor ls ++ sections (.between false) ls' := by
  fun_induction sections cursor ls with
  | case1 cursor =>
    -- the second list is all that is left, and it is empty or begins with the tag
    cases ls' with
    | nil => cases cursor <;> rfl
    | cons l ls' =>
      cases l with
      | tag name inline => cases cursor <;> rfl
      | gap => exact absurd rfl (h .gap rfl)
      | words t closes => exact absurd rfl (h (.words t closes) rfl)
  | case2 afterGap ls ih => exact ih
  | case3 e ls hempty ih =>
    rw [List.cons_append, sections, if_pos hempty, ih]
    rfl
  | case4 e ls hne ih =>
    rw [List.cons_append, sections, if_neg hne, ih]
  | case5 cursor name inline ls ih =>
    rw [List.cons_append, sections, ih, List.append_assoc]
  | case6 afterGap t closes ls hopens ih =>
    rw [List.cons_append, sections, if_pos hopens, ih]
  | case7 afterGap t closes ls hblank ih =>
    rw [List.cons_append, sections, if_neg hblank, ih]
  | case8 e t closes ls hblank ih =>
    rw [List.cons_append, sections, if_pos hblank, ih]
  | case9 e t closes ls hblank ih =>
    rw [List.cons_append, sections, if_neg hblank, ih]

/-! ### What the lines of a region say -/

/-- The line says something once its markers are removed. -/
def isText (l : Text) : Bool := !Text.isBlank (stripMarkers l)

/-- The lines that count: texts and lone stars. -/
def counting (ls : List Text) : List Text := ls.filter fun l => isText l || l = "*".toList

/-- What a line that counts adds to an entry: a text its words, a star an empty line. -/
def added (l : Text) : String := if isText l then String.ofList (stripMarkers l) else ""

/-- What the lines say, from the first text on. -/
def passage (ls : List Text) : List String :=
  ((counting ls).dropWhile fun l => !isText l).map added

/-- A text comes before any star. -/
def beginsWithText (ls : List Text) : Bool := (counting ls).head?.any isText

/-- The description that the lines make up under no tag, if they say anything. -/
def descriptionOf (ls : List Text) : List Entry :=
  if passage ls = [] then [] else [⟨descriptionTag, none, passage ls⟩]

theorem counting_cons (l : Text) (ls : List Text) :
    counting (l :: ls) = if isText l || l = "*".toList then l :: counting ls else counting ls :=
  List.filter_cons

/-- What a line under a tag is read as: a lone star, a text, or the marker that closes the
comment. -/
inductive ReadAs : Text → Line → Prop
  | star : ReadAs "*".toList .gap
  | text {l : Text} (h : isText l = true) (closes : Bool) : ReadAs l (.words (stripMarkers l) closes)
  | closing : ReadAs "*/".toList (.words [] true)

section Lines

variable {l : Text} {ls : List Text} {lines : List Line}

theorem isBlank_of_isText (h : isText l = true) : Text.isBlank (stripMarkers l) = false := by
  simpa [isText] using h

theorem counting_cons_of_isText (h : isText l = true) : counting (l :: ls) = l :: counting ls := by
  rw [counting_cons, h, Bool.true_or, if_pos rfl]

theorem passage_cons_of_isText (h : isText l = true) :
    passage (l :: ls) = String.ofList (stripMarkers l) :: (counting ls).map added := by
  rw [passage, counting_cons_of_isText h, List.dropWhile_cons_of_neg (by simp [h]), List.map_cons,
    added, if_pos h]

theorem beginsWithText_cons_of_isText (h : isText l = true) : beginsWithText (l :: ls) = true := by
  rw [beginsWithText, counting_cons_of_isText h]
  exact h

theorem counting_star : counting ("*".toList :: ls) = "*".toList :: counting ls :=
  counting_cons _ ls

theorem passage_star : passage ("*".toList :: ls) = passage ls := by
  rw [passage, counting_star, List.dropWhile_cons_of_pos (by decide), passage]

theorem beginsWithText_star : beginsWithText ("*".toList :: ls) = false := by
  rw [beginsWithText, counting_star]
  rfl

/-- A line that says nothing and is no star does not count. -/
theorem counting_cons_of_not (h : isText l = false) (hstar : l ≠ "*".toList) :
    counting (l :: ls) = counting ls := by
  rw [counting_cons, h, if_neg (by simpa using hstar)]

theorem passage_cons_of_not (h : isText l = false) (hstar : l ≠ "*".toList) :
    passage (l :: ls) = passage ls := by
  rw [passage, counting_cons_of_not h hstar, passage]

/-! ### Reading the lines of a region -/

/-- Once an entry has content, each line that counts goes into it. -/
theorem sections_within_of_content (h : List.Forall₂ ReadAs ls lines) (e : Entry)
    (he : e.content ≠ []) :
    sections (.within e) lines = [{ e with content := e.content ++ (counting ls).map added }] := by
  induction h generalizing e with
  | nil =>
    show [e] = _
    rw [counting, List.filter_nil, List.map_nil, List.append_nil]
  | cons hline _ ih =>
    cases hline with
    | star =>
      have hadded : added "*".toList = "" := rfl
      rw [sections, if_neg (by simpa using he), ih _ (by simp [Entry.addLine]), counting_star,
        List.map_cons, hadded]
      simp [Entry.addLine]
    | text htext closes =>
      rw [sections, isBlank_of_isText htext, if_neg Bool.false_ne_true,
        ih _ (by simp [Entry.addLine]), counting_cons_of_isText htext, List.map_cons, added,
        if_pos htext]
      simp [Entry.addLine]
    | closing =>
      have hblank : Text.isBlank ([] : Text) = true := rfl
      rw [sections, if_pos hblank, ih e he, counting_cons_of_not (by decide) (by decide)]

/-- Under no tag, the lines make up a description. -/
theorem sections_between (h : List.Forall₂ ReadAs ls lines) (afterGap : Bool) :
    sections (.between afterGap) lines = descriptionOf ls := by
  induction h generalizing afterGap with
  | nil => rfl
  | cons hline hlines ih =>
    cases hline with
    | star =>
      rw [sections, ih, descriptionOf, descriptionOf, passage_star]
    | text htext closes =>
      rw [sections, isBlank_of_isText htext, Bool.not_false, Bool.or_true, if_pos rfl,
        sections_within_of_content hlines _ (by simp), descriptionOf, passage_cons_of_isText htext,
        if_neg (by simp)]
      rfl
    | closing =>
      -- the marker opens no description, not even after a star
      have hnothing : ¬((afterGap && !true) || !Text.isBlank ([] : Text)) = true := by
        cases afterGap <;> decide
      rw [sections, if_neg hnothing, ih, descriptionOf, descriptionOf,
        passage_cons_of_not (by decide) (by decide)]

/-- Under a tag, the first line that counts decides. -/
theorem sections_within (h : List.Forall₂ ReadAs ls lines) (tag : String) (inline : Option String) :
    sections (.within ⟨tag, inline, []⟩) lines =
      if beginsWithText ls then [⟨tag, inline, passage ls⟩]
      else ⟨tag, inline, []⟩ :: descriptionOf ls := by
  induction h with
  | nil => rfl
  | cons hline hlines ih =>
    cases hline with
    | star =>
      show (⟨tag, inline, []⟩ : Entry) :: sections (.between true) _ = _
      rw [sections_between hlines, beginsWithText_star, if_neg Bool.false_ne_true, descriptionOf,
        descriptionOf, passage_star]
    | text htext closes =>
      rw [sections, isBlank_of_isText htext, if_neg Bool.false_ne_true,
        sections_within_of_content hlines _ (by simp [Entry.addLine]),
        beginsWithText_cons_of_isText htext, if_pos rfl, passage_cons_of_isText htext]
      rfl
    | closing =>
      have hblank : Text.isBlank ([] : Text) = true := rfl
      rw [sections, if_pos hblank, ih, beginsWithText, beginsWithText, descriptionOf,
        descriptionOf, passage_cons_of_not (by decide) (by decide),
        counting_cons_of_not (by decide) (by decide)]

end Lines

/-! ### The regions of a comment -/

/-- A line that starts a tag, with what it starts and the lines under it. -/
structure Region where
  head : Text
  tag : String
  inline : Option String
  body : List Text

namespace Region

def lines (r : Region) : List Text := r.head :: r.body

/-- The head starts the tag, and no line under it starts another one. -/
structure IsCut (r : Region) : Prop where
  starts : Starts r.head (r.tag, r.inline)
  not_startsTag : ∀ l ∈ r.body, ¬StartsTag l

/-- The entries that a region makes up: a text before any star belongs to the tag with all that
follows it; after a star the tag has no content, and the texts are a description. -/
def entries (r : Region) : List Entry :=
  if beginsWithText r.body then [⟨r.tag, r.inline, passage r.body⟩]
  else ⟨r.tag, r.inline, []⟩ :: descriptionOf r.body

/-- The head is read as the start of the tag, and each line under it is one that may stand there. -/
structure IsRead (r : Region) : Prop extends r.IsCut where
  start?_head : (Line.ofText r.head).start? = some (r.tag, r.inline)
  body : List.Forall₂ ReadAs r.body (r.body.map Line.ofText)

theorem sections_lines {r : Region} (h : r.IsRead) :
    sections (.between false) (r.lines.map Line.ofText) = r.entries := by
  have hhead := h.start?_head
  rw [lines, List.map_cons]
  cases hline : Line.ofText r.head with
  | tag name inline =>
    rw [hline] at hhead
    obtain ⟨htag, hinline⟩ := Prod.mk.inj (Option.some.inj hhead)
    rw [sections, htag, hinline]
    exact sections_within h.body r.tag r.inline
  | gap => rw [hline] at hhead; cases hhead
  | words t closes => rw [hline] at hhead; cases hhead

/-- Regions are read one by one. -/
theorem sections_flatMap_lines {regions : List Region} (h : ∀ r ∈ regions, r.IsRead)
    (cursor : Cursor) (before : List Line) :
    sections cursor (before ++ (regions.flatMap lines).map Line.ofText) =
      sections cursor before ++ regions.flatMap entries := by
  induction regions generalizing cursor before with
  | nil => simp
  | cons r regions ih =>
    have hr : r.IsRead := h r List.mem_cons_self
    have hhead : ∀ l ∈ ((r :: regions).flatMap lines).map Line.ofText |>.head?,
        l.start? ≠ none := by
      rintro l hl
      obtain rfl : Line.ofText r.head = l := Option.some.inj hl
      rw [hr.start?_head]
      exact Option.some_ne_none _
    rw [sections_append cursor before hhead, List.flatMap_cons, List.map_append,
      ih (fun r' hr' => h r' (List.mem_cons_of_mem r hr')) (.between false) _, sections_lines hr,
      List.flatMap_cons]

end Region

/-- A line that says something, a lone star, or the marker that closes the comment. -/
def IsOrdinary (l : Text) : Prop := isText l = true ∨ l = "*".toList ∨ l = "*/".toList

/-- What an ordinary line without a tag is read as. -/
theorem readAs_ofText {t l : Text} (h : l ∈ trimmedLines t) (htag : ¬StartsTag l)
    (hl : IsOrdinary l) : ReadAs l (Line.ofText l) := by
  rw [ofText_of_not_startsTag h htag]
  rcases hl with hl | rfl | rfl
  · have hstar : l ≠ "*".toList := by
      rintro rfl
      exact absurd hl (by decide)
    rw [if_neg hstar]
    exact .text hl _
  · exact .star
  · exact .closing

/-- All lines can be cut into regions behind the lines before the first tag. -/
theorem exists_cut {t : Text} {ls : List Text} (hmem : ∀ l ∈ ls, l ∈ trimmedLines t)
    (hordinary : ∀ l ∈ ls, StartsTag l ∨ IsOrdinary l) :
    ∃ (before : List Text) (regions : List Region),
      ls = before ++ regions.flatMap Region.lines ∧ (∀ l ∈ before, ¬StartsTag l) ∧
      List.Forall₂ ReadAs before (before.map Line.ofText) ∧ ∀ r ∈ regions, r.IsRead := by
  induction ls with
  | nil => exact ⟨[], [], rfl, by simp, .nil, by simp⟩
  | cons l ls ih =>
    obtain ⟨before, regions, rfl, hbefore, hread, hregions⟩ :=
      ih (fun l' h => hmem l' (List.mem_cons_of_mem l h))
        fun l' h => hordinary l' (List.mem_cons_of_mem l h)
    by_cases htag : StartsTag l
    · -- the lines before the next tag are those under this one
      obtain ⟨⟨tag, inline⟩, hstart, -, hstarts⟩ :=
        exists_start?_of_startsTag (hmem l List.mem_cons_self) htag
      have hr : Region.IsRead ⟨l, tag, inline, before⟩ := ⟨⟨hstarts, hbefore⟩, hstart, hread⟩
      exact ⟨[], ⟨l, tag, inline, before⟩ :: regions, rfl, by simp, .nil,
        List.forall_mem_cons.mpr ⟨hr, hregions⟩⟩
    · have hl : IsOrdinary l := (hordinary l List.mem_cons_self).resolve_left htag
      exact ⟨l :: before, regions, rfl, List.forall_mem_cons.mpr ⟨htag, hbefore⟩,
        .cons (readAs_ofText (hmem l List.mem_cons_self) htag hl) hread, hregions⟩

theorem linesOf_eq (t : Text) : linesOf t = (trimmedLines t).map Line.ofText := by
  rw [linesOf, trimmedLines_trim]

/-- The marker that opens a comment is passed over where it comes first. -/
theorem sections_opening (ls : List Line) :
    sections (.between false) (Line.ofText "/**".toList :: ls) = sections (.between false) ls := by
  have hopening : Line.ofText "/**".toList = .words [] false := by decide
  rw [hopening]
  rfl

/-- Lines that are cut are read stretch by stretch. -/
theorem sections_of_cut {before : List Text} {regions : List Region}
    (hread : List.Forall₂ ReadAs before (before.map Line.ofText))
    (hregions : ∀ r ∈ regions, r.IsRead) :
    sections (.between false) ((before ++ regions.flatMap Region.lines).map Line.ofText) =
      descriptionOf before ++ regions.flatMap Region.entries := by
  rw [List.map_append, Region.sections_flatMap_lines hregions, sections_between hread]

/-- **A region is attributed by its first line that counts.**  Let each line of a comment be the
start of a tag, a lone star, a line that says something, the closing marker or, in the first place,
the opening one.  The lines are cut at those that start tags.  The lines before the first tag make up
a description if they say anything, and each region makes up its entries, one region after the
other. -/
theorem exists_regions (comment : String)
    (h : ∀ pre l post, trimmedLines comment.toList = pre ++ l :: post →
      StartsTag l ∨ IsOrdinary l ∨ pre = [] ∧ l = "/**".toList) :
    ∃ (before : List Text) (regions : List Region),
      trimmedLines comment.toList = before ++ regions.flatMap Region.lines ∧
      (∀ l ∈ before, ¬StartsTag l) ∧ (∀ r ∈ regions, r.IsCut) ∧
      segment comment =
        Entries.ofList (descriptionOf before ++ regions.flatMap Region.entries) := by
  rw [segment, sectionsOf, linesOf_eq]
  by_cases hopening : (trimmedLines comment.toList).head? = some "/**".toList
  · obtain ⟨ls, hls⟩ := List.head?_eq_some_iff.mp hopening
    have hmem : ∀ l ∈ ls, l ∈ trimmedLines comment.toList := by
      intro l hl
      rw [hls]
      exact List.mem_cons_of_mem _ hl
    have hordinary : ∀ l ∈ ls, StartsTag l ∨ IsOrdinary l := by
      intro l hl
      obtain ⟨pre, post, rfl⟩ := List.append_of_mem hl
      rcases h ("/**".toList :: pre) l post hls with htag | hord | ⟨hpre, -⟩
      · exact Or.inl htag
      · exact Or.inr hord
      · cases hpre
    obtain ⟨before, regions, rfl, hbefore, hread, hregions⟩ := exists_cut hmem hordinary
    -- the opening marker stands in front and says nothing
    have hsilent : descriptionOf ("/**".toList :: before) = descriptionOf before := by
      rw [descriptionOf, passage_cons_of_not (by decide) (by decide), descriptionOf]
    refine ⟨"/**".toList :: before, regions, hls, List.forall_mem_cons.mpr ⟨by decide, hbefore⟩,
      fun r hr => (hregions r hr).toIsCut, ?_⟩
    rw [hls, List.map_cons, sections_opening, sections_of_cut hread hregions, hsilent]
  · have hordinary : ∀ l ∈ trimmedLines comment.toList, StartsTag l ∨ IsOrdinary l := by
      intro l hl
      obtain ⟨pre, post, hls⟩ := List.append_of_mem hl
      rcases h pre l post hls with htag | hord | ⟨rfl, rfl⟩
      · exact Or.inl htag
      · exact Or.inr hord
      · exact absurd (by rw [hls]; rfl) hopening
    obtain ⟨before, regions, hls, hbefore, hread, hregions⟩ :=
      exists_cut (fun _ hl => hl) hordinary
    refine ⟨before, regions, hls, hbefore, fun r hr => (hregions r hr).toIsCut, ?_⟩
    rw [hls, sections_of_cut hread hregions]

/-- A tag with text under it, a tag that a star closes before the closing marker and a text come,
and a bare tag. -/
def regionSample : String :=
  "/**\n* Intro.\n*\n* More.\n* @name Button\n* words\n*\n* more words\n* @status beta\n*\n*/\n* Loose." ++
    "\n*\n*\n* @async"

instance (l : Text) : Decidable (IsOrdinary l) := by
  unfold IsOrdinary
  infer_instance

theorem exists_regions_sample :
    (∀ pre l post, trimmedLines regionSample.toList = pre ++ l :: post →
      StartsTag l ∨ IsOrdinary l ∨ pre = [] ∧ l = "/**".toList) ∧
    ∃ (before : List Text) (regions : List Region),
      trimmedLines regionSample.toList = before ++ regions.flatMap Region.lines ∧
      (∀ l ∈ before, ¬StartsTag l) ∧ (∀ r ∈ regions, r.IsCut) ∧
      segment regionSample =
        Entries.ofList (descriptionOf before ++ regions.flatMap Region.entries) := by
  have hlines : ∀ pre l post, trimmedLines regionSample.toList = pre ++ l :: post →
      StartsTag l ∨ IsOrdinary l ∨ pre = [] ∧ l = "/**".toList := by
    intro pre l post hls
    have hhead : (trimmedLines regionSample.toList).head? = some "/**".toList := by decide
    have htail : ∀ l ∈ (trimmedLines regionSample.toList).tail, StartsTag l ∨ IsOrdinary l := by
      decide
    rw [hls] at hhead htail
    cases pre with
    | nil => exact Or.inr (Or.inr ⟨rfl, Option.some.inj hhead⟩)
    | cons l' pre => exact (htail l (by simp)).imp_right Or.inl
  exact ⟨hlines, exists_regions regionSample hlines⟩

example : segment regionSample =
    [("description", [⟨"description", none, ["Intro.", "", "More."]⟩,
        ⟨"description", none, ["Loose.", "", ""]⟩]),
      ("name", [⟨"name", some "Button", ["words", "", "more words"]⟩]),
      ("status", [⟨"status", some "beta", []⟩]), ("async", [⟨"async", none, []⟩])] := by
  decide

/-! ### Comments one under the other -/

/-- **Nothing leaks over the start of a tag.**  If the first line of a text that is not blank starts
a tag, that text is read under another one as it is read alone: its new tags come behind the tags of
the other, and under each tag its entries come behind those of the other. -/
theorem segment_append (a b : String)
    (h : ∃ l, (trimmedLines b.toList).head? = some l ∧ StartsTag l) :
    (segment (a ++ "\n" ++ b)).tags =
      (segment a).tags ++ (segment b).tags.filter (fun tag => tag ∉ (segment a).tags) ∧
    ∀ tag, (Keyed.get? (segment (a ++ "\n" ++ b)) tag).getD [] =
      (Keyed.get? (segment a) tag).getD [] ++ (Keyed.get? (segment b) tag).getD [] := by
  obtain ⟨l, hl, htag⟩ := h
  have hmem : l ∈ trimmedLines b.toList := List.mem_of_mem_head? hl
  obtain ⟨start, hstart, -, -⟩ := exists_start?_of_startsTag hmem htag
  have hhead : ∀ l' ∈ (linesOf b.toList).head?, l'.start? ≠ none := by
    intro l' hl'
    rw [linesOf_eq, List.head?_map, hl] at hl'
    obtain rfl : Line.ofText l = l' := Option.some.inj hl'
    rw [hstart]
    exact Option.some_ne_none start
  have hlines : linesOf (a ++ "\n" ++ b).toList = linesOf a.toList ++ linesOf b.toList := by
    have htext : (a ++ "\n" ++ b).toList = a.toList ++ '\n' :: b.toList := by simp
    rw [htext, linesOf_eq, linesOf_eq, linesOf_eq, trimmedLines_append, List.map_append]
  have hsections : sectionsOf (a ++ "\n" ++ b).toList =
      sectionsOf a.toList ++ sectionsOf b.toList := by
    rw [sectionsOf, hlines, sections_append _ _ hhead]
    rfl
  rw [segment, segment, segment, hsections]
  exact ⟨Entries.tags_ofList_append _ _, Entries.getD_get?_ofList_append _ _⟩

/-- A description that is open at a star, and a tag that both texts have. -/
theorem segment_append_sample :
    let a := "* @name x\n*\n* loose\n*"
    let b := "\n\n * @since 1\n * @name y"
    (∃ l, (trimmedLines b.toList).head? = some l ∧ StartsTag l) ∧
    (segment (a ++ "\n" ++ b)).tags = ["name", "description", "since"] ∧
    (Keyed.get? (segment (a ++ "\n" ++ b)) "name").getD [] =
      [⟨"name", some "x", []⟩, ⟨"name", some "y", []⟩] := by
  intro a b
  have h : ∃ l, (trimmedLines b.toList).head? = some l ∧ StartsTag l :=
    ⟨"* @since 1".toList, by decide, by decide⟩
  obtain ⟨htags, hentries⟩ := segment_append a b h
  exact ⟨h, htags.trans (by decide), (hentries "name").trans (by decide)⟩

end DocComment.Comment
