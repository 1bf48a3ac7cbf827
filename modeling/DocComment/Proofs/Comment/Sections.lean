/-
Where the sections of a comment come from.

A `Section` is an entry together with what opened it, a tag of the comment or free text.  Every run
of the reader accounts for its lines (`Accounts`): the sections that tags opened are the tags of the
lines in their order, the others are plain descriptions, and the words of the sections are the words
of the lines.

* `exists_accounts` is the run itself, from any state of the reader, by induction on `sections`;
* `exists_sections` says the same of a text, with the lines as they stand in it: nothing of a
  comment is lost, doubled or moved;
* `map_first?_entries` finds the first entry of a tag among the lines of a comment.
-/
import DocComment.Proofs.Comment.Entries
import DocComment.Proofs.Comment.Marker
import DocComment.Proofs.Comment.Normal
import Mathlib.Data.List.Find
import Mathlib.Data.List.Forall2

namespace DocComment.Comment

open Text

/-- An entry and what opened it: a tag of the comment, or free text. -/
structure Section where
  entry : Entry
  tagged : Bool

/-- The lines that are not blank. -/
def solid (ls : List String) : List String := ls.filter fun l => !Text.isBlank l.toList

theorem solid_append (ls ls' : List String) : solid (ls ++ ls') = solid ls ++ solid ls' :=
  List.filter_append ..

namespace Section

/-- The name and the inline text with which a section starts. -/
def start (s : Section) : String × Option String := (s.entry.tag, s.entry.inline)

/-- Free text goes under its own tag and has no inline text. -/
def IsOpenedWell (s : Section) : Prop :=
  s.tagged = false → s.entry.tag = descriptionTag ∧ s.entry.inline = none

/-- The words of a section. -/
def words (s : Section) : List String := solid s.entry.content

def addLine (s : Section) (line : String) : Section := { s with entry := s.entry.addLine line }

theorem words_addLine (s : Section) (line : String) :
    (s.addLine line).words = s.words ++ solid [line] :=
  solid_append ..

theorem IsOpenedWell.addLine {s : Section} (h : s.IsOpenedWell) (line : String) :
    (s.addLine line).IsOpenedWell := h

end Section

namespace Line

/-- The section that a line starts. -/
def start? : Line → Option (String × Option String)
  | .tag name inline => some (String.ofList name, inline.map String.ofList)
  | _ => none

/-- What a line says. -/
def text : Line → List String
  | .words t _ => [String.ofList t]
  | _ => []

end Line

/-! ### The run of the reader -/

/-- The sections `ss` are what the lines `ls` add to the sections that are open before them. -/
structure Accounts (opened : List Section) (ls : List Line) (ss : List Section) : Prop where
  starts_eq : (ss.filter Section.tagged).map Section.start =
    (opened.filter Section.tagged).map Section.start ++ ls.filterMap Line.start?
  isOpenedWell : ∀ s ∈ ss, s.IsOpenedWell
  words_eq : ss.flatMap Section.words =
    opened.flatMap Section.words ++ solid (ls.flatMap Line.text)

namespace Accounts

variable {opened opened' ss : List Section} {l : Line} {ls : List Line}

/-- At the end the open section is all there is. -/
theorem nil (h : ∀ s ∈ opened, s.IsOpenedWell) : Accounts opened [] opened :=
  ⟨by simp, h, by simp [solid]⟩

/-- One line more.  What it starts and says shows in the sections that are open after it. -/
theorem cons (h : Accounts opened' ls ss)
    (hstart : (opened'.filter Section.tagged).map Section.start =
      (opened.filter Section.tagged).map Section.start ++ l.start?.toList)
    (hwords : opened'.flatMap Section.words = opened.flatMap Section.words ++ solid l.text) :
    Accounts opened (l :: ls) ss := by
  refine ⟨?_, h.isOpenedWell, ?_⟩
  · rw [h.starts_eq, hstart, List.append_assoc]
    cases hl : l.start? <;> simp [hl]
  · rw [h.words_eq, hwords, List.append_assoc, List.flatMap_cons, solid_append]

/-- A line that starts nothing and says nothing. -/
theorem cons_quiet (h : Accounts opened ls ss) (hstart : l.start? = none)
    (htext : solid l.text = []) : Accounts opened (l :: ls) ss :=
  h.cons (by simp [hstart]) (by simp [htext])

/-- A line that joins the open section. -/
theorem cons_addLine {s : Section} {line : String} (h : Accounts [s.addLine line] ls ss)
    (hstart : l.start? = none) (htext : solid l.text = solid [line]) :
    Accounts [s] (l :: ls) ss := by
  refine h.cons ?_ ?_
  · cases htagged : s.tagged <;>
      simp [htagged, hstart, Section.start, Section.addLine, Entry.addLine]
  · rw [List.flatMap_singleton, List.flatMap_singleton, Section.words_addLine, htext]

/-- Sections that are closed for good stand in front. -/
theorem close (h : Accounts [] ls ss) (hopened : ∀ s ∈ opened, s.IsOpenedWell) :
    Accounts opened ls (opened ++ ss) := by
  refine ⟨?_, ?_, ?_⟩
  · rw [List.filter_append, List.map_append, h.starts_eq]
    rfl
  · intro s hs
    rcases List.mem_append.mp hs with hs | hs
    · exact hopened s hs
    · exact h.isOpenedWell s hs
  · rw [List.flatMap_append, h.words_eq]
    rfl

end Accounts

/-- Every run accounts for its lines, whatever section is open when it starts. -/
theorem exists_accounts (cursor : Cursor) (ls : List Line) (opened : List Section)
    (hcursor : opened.map Section.entry = cursor.finish)
    (hopened : ∀ s ∈ opened, s.IsOpenedWell) :
    ∃ ss, ss.map Section.entry = sections cursor ls ∧ Accounts opened ls ss := by
  fun_induction sections cursor ls generalizing opened with
  | case1 cursor => exact ⟨opened, hcursor, Accounts.nil hopened⟩
  | case2 afterGap ls ih =>
    obtain ⟨ss, hss, h⟩ := ih opened hcursor hopened
    exact ⟨ss, hss, h.cons_quiet rfl rfl⟩
  | case3 e ls hempty ih =>
    -- the gap closes the tag
    obtain ⟨ss, hss, h⟩ := ih [] rfl (by simp)
    refine ⟨opened ++ ss, ?_, (h.cons_quiet rfl rfl).close hopened⟩
    rw [List.map_append, hcursor, hss]
    rfl
  | case4 e ls hne ih =>
    -- the gap is a paragraph break, an empty line of the open section
    obtain ⟨s, rfl, rfl⟩ := List.map_eq_singleton_iff.mp hcursor
    obtain ⟨ss, hss, h⟩ := ih [s.addLine ""] rfl
      (by simpa using (hopened s (by simp)).addLine "")
    exact ⟨ss, hss, h.cons_addLine rfl rfl⟩
  | case5 cursor name inline ls ih =>
    -- the tag closes what was open
    obtain ⟨ss, hss, h⟩ := ih [⟨⟨String.ofList name, inline.map String.ofList, []⟩, true⟩] rfl
      (by simp [Section.IsOpenedWell])
    refine ⟨opened ++ ss, ?_, (h.cons ?_ ?_).close hopened⟩
    · rw [List.map_append, hcursor, hss]
    · rfl
    · rfl
  | case6 afterGap t closes ls hopens ih =>
    -- under no tag, so that the words open a description
    obtain rfl : opened = [] := List.map_eq_nil_iff.mp hcursor
    obtain ⟨ss, hss, h⟩ := ih [⟨⟨descriptionTag, none, [String.ofList t]⟩, false⟩] rfl
      (by simp [Section.IsOpenedWell])
    exact ⟨ss, hss, h.cons rfl (by simp [Section.words, Line.text])⟩
  | case7 afterGap t closes ls hblank ih =>
    obtain ⟨ss, hss, h⟩ := ih opened hcursor hopened
    refine ⟨ss, hss, h.cons_quiet rfl ?_⟩
    rw [Bool.or_eq_true, not_or] at hblank
    simpa [Line.text, solid] using hblank.2
  | case8 e t closes ls hblank ih =>
    obtain ⟨ss, hss, h⟩ := ih opened hcursor hopened
    exact ⟨ss, hss, h.cons_quiet rfl (by simpa [Line.text, solid] using hblank)⟩
  | case9 e t closes ls hblank ih =>
    obtain ⟨s, rfl, rfl⟩ := List.map_eq_singleton_iff.mp hcursor
    obtain ⟨ss, hss, h⟩ := ih [s.addLine (String.ofList t)] rfl
      (by simpa using (hopened s (by simp)).addLine (String.ofList t))
    exact ⟨ss, hss, h.cons_addLine rfl rfl⟩

/-- The first entry of a tag, free text apart, is what the first line that starts it says. -/
theorem find?_sections {tag : String} (htag : tag ≠ descriptionTag) (ls : List Line) :
    ((sections (.between false) ls).find? fun e => e.tag = tag).map (fun e => (e.tag, e.inline)) =
      (ls.filterMap Line.start?).find? fun start => start.1 = tag := by
  obtain ⟨ss, hss, h⟩ := exists_accounts (.between false) ls [] rfl (by simp)
  have hstarts : (ss.filter Section.tagged).map Section.start = ls.filterMap Line.start? :=
    h.starts_eq
  -- free text goes under another tag, so that the sections that tags opened are all that count
  have htagged : ∀ s ∈ ss, (s.entry.tag = tag ↔ s.tagged = true ∧ s.entry.tag = tag) := by
    refine fun s hs => ⟨fun hst => ⟨?_, hst⟩, And.right⟩
    rw [← Bool.not_eq_false]
    exact fun hfree => htag (hst.symm.trans (h.isOpenedWell s hs hfree).1)
  rw [← hss, ← hstarts, List.find?_map, List.find?_map, List.find?_filter, Option.map_map]
  refine congrArg _ (List.find?_congr fun s hs => decide_eq_decide.mpr ?_)
  rw [htagged s hs, Function.comp_apply, decide_eq_true_iff]
  rfl

/-- The inline text of a section is that of the line that opened it, so it is what such a line can
have. -/
theorem inline_of_mem_sections {Q : Text → Prop} {cursor : Cursor} {ls : List Line}
    (hls : ∀ name t, Line.tag name (some t) ∈ ls → Q t)
    (hcursor : ∀ e ∈ cursor.finish, ∀ s, e.inline = some s → Q s.toList) :
    ∀ e ∈ sections cursor ls, ∀ s, e.inline = some s → Q s.toList := by
  fun_induction sections cursor ls with
  | case1 cursor => exact hcursor
  | case2 afterGap ls ih =>
    exact ih (fun name t h => hls name t (List.mem_cons_of_mem _ h)) hcursor
  | case3 e ls hempty ih =>
    intro e' he'
    rcases List.mem_cons.mp he' with rfl | he'
    · exact hcursor e' (List.mem_singleton_self e')
    · exact ih (fun name t h => hls name t (List.mem_cons_of_mem _ h)) (by simp [Cursor.finish])
        e' he'
  | case4 e ls hne ih =>
    refine ih (fun name t h => hls name t (List.mem_cons_of_mem _ h)) ?_
    simpa [Cursor.finish, Entry.addLine] using hcursor
  | case5 cursor name inline ls ih =>
    intro e' he'
    rcases List.mem_append.mp he' with he' | he'
    · exact hcursor e' he'
    · refine ih (fun name t h => hls name t (List.mem_cons_of_mem _ h)) ?_ e' he'
      intro e he s hs
      obtain rfl := List.mem_singleton.mp he
      obtain ⟨t, rfl, rfl⟩ := Option.map_eq_some_iff.mp hs
      rw [String.toList_ofList]
      exact hls name t List.mem_cons_self
  | case6 afterGap t closes ls hopens ih =>
    refine ih (fun name t h => hls name t (List.mem_cons_of_mem _ h)) ?_
    simp [Cursor.finish]
  | case7 afterGap t closes ls hblank ih =>
    exact ih (fun name t h => hls name t (List.mem_cons_of_mem _ h)) hcursor
  | case8 e t closes ls hblank ih =>
    exact ih (fun name t h => hls name t (List.mem_cons_of_mem _ h)) hcursor
  | case9 e t closes ls hblank ih =>
    refine ih (fun name t h => hls name t (List.mem_cons_of_mem _ h)) ?_
    simpa [Cursor.finish, Entry.addLine] using hcursor

/-! ### The lines of a text -/

/-- The line starts a section with this name and this inline text: the name is that of its leftmost
marker, the inline text is what stands beside the marker, if anything does. -/
def Starts (line : Text) (start : String × Option String) : Prop :=
  ∃ (m : Marker) (before after : Text), m.IsFirstIn line before after ∧
    start.1 = String.ofList m.name ∧
    start.2 = if Text.isBlank (before ++ after) then none
      else some (String.ofList (trim (before ++ after)))

/-- Among the lines of a text, only the lone star has nothing but its star. -/
theorem isBlank_erase_star_iff {t l : Text} (h : l ∈ trimmedLines t) :
    Text.isBlank (l.erase '*') = true ↔ l = "*".toList := by
  constructor
  · intro hblank
    by_cases hstar : '*' ∈ l
    · -- blanks around the star would have been trimmed away
      have htrim := trim_of_mem h
      obtain ⟨a, b, rfl, ha⟩ := List.eq_append_cons_of_mem hstar
      rw [List.erase_append_right _ ha, List.erase_cons_head, isBlank_append, Bool.and_eq_true]
        at hblank
      rw [← htrim, trim_of_blank_append hblank.1, trim_cons_of_not_blank rfl,
        trimEnd_eq_nil_iff.mpr hblank.2]
      rfl
    · rw [List.erase_of_not_mem hstar, isBlank_of_mem h] at hblank
      cases hblank
  · rintro rfl
    rfl

/-- What a line with a marker is. -/
theorem exists_start?_of_startsTag {t l : Text} (h : l ∈ trimmedLines t) (htag : StartsTag l) :
    ∃ start, (Line.ofText l).start? = some start ∧ (Line.ofText l).text = [] ∧ Starts l start := by
  have hstar : ¬Text.isBlank (l.erase '*') = true := by
    rw [isBlank_erase_star_iff h]
    rintro rfl
    exact absurd htag (by decide)
  obtain ⟨⟨before, name, after⟩, hfind⟩ :=
    Option.isSome_iff_exists.mp (isSome_findTag?_iff.mpr htag)
  obtain ⟨m, rfl, hm⟩ := findTag?_eq_some_iff.mp hfind
  rw [Line.ofText, if_neg hstar, hfind]
  refine ⟨_, rfl, rfl, m, before, after, hm, rfl, ?_⟩
  by_cases hblank : Text.isBlank (before ++ after) = true
  · rw [if_pos hblank, trim_eq_nil_iff.mpr hblank]
    rfl
  · rw [if_neg hblank, inlineOf, if_neg]
    · rfl
    · rw [List.isEmpty_iff, trim_eq_nil_iff]
      exact hblank

/-- What a line without a marker is. -/
theorem ofText_of_not_startsTag {t l : Text} (h : l ∈ trimmedLines t) (htag : ¬StartsTag l) :
    Line.ofText l = if l = "*".toList then .gap
      else .words (stripMarkers l) (l = "*/".toList) := by
  rw [Line.ofText, findTag?_eq_none_iff.mpr htag]
  by_cases hstar : l = "*".toList
  · rw [if_pos hstar, if_pos ((isBlank_erase_star_iff h).mpr hstar)]
  · rw [if_neg hstar, if_neg (mt (isBlank_erase_star_iff h).mp hstar)]

theorem isBlank_of_ofText_eq_tag {l name t : Text} (h : Line.ofText l = .tag name (some t)) :
    Text.isBlank t = false := by
  unfold Line.ofText at h
  split at h
  · cases h
  · split at h
    · next before n rest _ =>
      have hinline := (Line.tag.inj h).2
      rw [inlineOf] at hinline
      split at hinline
      · cases hinline
      · next hne =>
        rw [Option.some.inj hinline, List.isEmpty_iff, ← Option.some.inj hinline, trim_eq_nil_iff]
          at hne
        rw [← Option.some.inj hinline, ← Bool.not_eq_true, ← trim_eq_nil_iff, trim_trim,
          trim_eq_nil_iff]
        exact hne
    · cases h

/-- The inline text of an entry is not blank. -/
theorem isBlank_inline_of_mem_sectionsOf {t : Text} {e : Entry} (he : e ∈ sectionsOf t)
    {s : String} (hs : e.inline = some s) : Text.isBlank s.toList = false := by
  refine inline_of_mem_sections (Q := fun t => Text.isBlank t = false) ?_ (by simp [Cursor.finish])
    e he s hs
  intro name t hmem
  obtain ⟨l, -, hl⟩ := List.mem_map.mp hmem
  exact isBlank_of_ofText_eq_tag hl

/-- The words of a text, line by line: what its lines say beside tags and lone stars. -/
def saidBy (ls : List Text) : List String :=
  (ls.filter fun l => ¬StartsTag l ∧ l ≠ "*".toList).map fun l => String.ofList (stripMarkers l)

theorem forall₂_starts {t : Text} {ls : List Text} (h : ∀ l ∈ ls, l ∈ trimmedLines t) :
    List.Forall₂ Starts (ls.filter StartsTag) ((ls.map Line.ofText).filterMap Line.start?) := by
  induction ls with
  | nil => exact List.Forall₂.nil
  | cons l ls ih =>
    have hl := h l List.mem_cons_self
    have hls := ih fun l' hl' => h l' (List.mem_cons_of_mem l hl')
    by_cases htag : StartsTag l
    · obtain ⟨start, hstart, -, hstarts⟩ := exists_start?_of_startsTag hl htag
      rw [List.filter_cons_of_pos (by simpa using htag), List.map_cons,
        List.filterMap_cons_some hstart]
      exact List.Forall₂.cons hstarts hls
    · have hnone : (Line.ofText l).start? = none := by
        rw [ofText_of_not_startsTag hl htag]
        split <;> rfl
      rw [List.filter_cons_of_neg (by simpa using htag), List.map_cons,
        List.filterMap_cons_none hnone]
      exact hls

theorem flatMap_text {t : Text} {ls : List Text} (h : ∀ l ∈ ls, l ∈ trimmedLines t) :
    (ls.map Line.ofText).flatMap Line.text = saidBy ls := by
  induction ls with
  | nil => rfl
  | cons l ls ih =>
    have hl := h l List.mem_cons_self
    have hls := ih fun l' hl' => h l' (List.mem_cons_of_mem l hl')
    rw [List.map_cons, List.flatMap_cons, hls, saidBy, saidBy]
    by_cases htag : StartsTag l
    · obtain ⟨-, -, htext, -⟩ := exists_start?_of_startsTag hl htag
      rw [htext, List.filter_cons_of_neg (by simp [htag])]
      rfl
    · rw [ofText_of_not_startsTag hl htag]
      by_cases hstar : l = "*".toList
      · rw [if_pos hstar, List.filter_cons_of_neg (by simp [hstar])]
        rfl
      · rw [if_neg hstar, List.filter_cons_of_pos (by simpa [htag] using hstar)]
        rfl

/-- **Nothing is lost, doubled or moved.**  The entries of a comment are the grouping of a list of
sections.  Those opened by tags are, one by one and in order, the lines that start a tag; the others
are plain descriptions; and the words of all are the words of the other lines. -/
theorem exists_sections (comment : String) : ∃ ss : List Section,
    segment comment = Entries.grouped (ss.map Section.entry) ∧
    List.Forall₂ Starts ((trimmedLines comment.toList).filter StartsTag)
      ((ss.filter Section.tagged).map Section.start) ∧
    (∀ s ∈ ss, s.tagged = false → s.entry.tag = descriptionTag ∧ s.entry.inline = none) ∧
    ss.flatMap Section.words = solid (saidBy (trimmedLines comment.toList)) := by
  obtain ⟨ss, hss, h⟩ := exists_accounts (.between false) (linesOf comment.toList) [] rfl (by simp)
  have hlines : linesOf comment.toList = (trimmedLines comment.toList).map Line.ofText := by
    rw [linesOf, trimmedLines_trim]
  refine ⟨ss, ?_, ?_, h.isOpenedWell, ?_⟩
  · rw [segment, sectionsOf, ← hss, Entries.ofList_eq_grouped]
  · rw [h.starts_eq, hlines]
    exact forall₂_starts fun _ hl => hl
  · rw [h.words_eq, hlines, flatMap_text fun _ hl => hl]
    rfl

/-- What the first entry of a tag in a comment says, free text apart: what the first line between
the markers that starts the tag says. -/
theorem map_first?_entries {comment tag : String} {b : Text}
    (hcomment : comment.toList = "/**".toList ++ b ++ "*/".toList) (htag : tag ≠ descriptionTag) :
    ((entries comment).first? tag).map (fun e => (e.tag, e.inline)) =
      (((trimmedLines ('*' :: breakStars b)).map Line.ofText).filterMap Line.start?).find?
        fun start => start.1 = tag := by
  rw [entries, segment, normalize, String.toList_ofList, hcomment, sectionsOf_normalForm,
    Entries.first?_ofList, find?_sections htag, List.filterMap_append]
  simp [Line.start?]

end DocComment.Comment
