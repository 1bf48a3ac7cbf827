/-
Writing comments, and reading back what was written.

A `Draft` is free text and entries that a comment can hold: tags are words of letters and digits,
inline texts are trimmed, and no text has a star or a newline that would be taken for the comment's
own.  A draft is laid out as rows, one for each line of text and one for each tag, with a backslash
before each at sign of the text, and there are two ways to put the rows into a comment:

* `Draft.block` — each row on a line of its own, behind a star;
* `Draft.oneLine` — all rows on one line, stars between.

`Draft.segment_normalize` says that either way the entries of the comment are those of the draft.
Both layouts meet in `trimmedLines_broken`: once the stars are broken, the two texts differ only in
newlines after the rows, and the lines do not depend on them.
-/
import DocComment.Comment.Section
import DocComment.Proofs.Comment.Marker
import DocComment.Proofs.Comment.Normal
import DocComment.Proofs.Text.Escape

namespace DocComment.Comment

open Text

/-! ### Texts that a comment can hold -/

/-- A line of text: empty or ending in a character that is no blank, without newlines and stars. -/
structure IsPlain (l : Text) : Prop where
  trimEnd_eq : trimEnd l = l
  newline_notMem : '\n' ∉ l
  star_notMem : '*' ∉ l

/-- Lines of text that do not begin with a break. -/
structure IsContent (ls : List String) : Prop where
  head?_ne : ls.head? ≠ some ""
  isPlain_of_mem : ∀ l ∈ ls, IsPlain l.toList

/-- An inline text: trimmed, not empty, without newlines and stars. -/
structure IsInline (s : Text) : Prop where
  ne_nil : s ≠ []
  trim_eq : trim s = s
  newline_notMem : '\n' ∉ s
  star_notMem : '*' ∉ s

/-- An entry that can be written. -/
structure IsWritable (e : Entry) : Prop where
  tag_ne_nil : e.tag.toList ≠ []
  isAlphanum_of_mem_tag : ∀ c ∈ e.tag.toList, c.isAlphanum = true
  isInline : ∀ s ∈ e.inline, IsInline s.toList
  isContent : IsContent e.content

instance (l : Text) : Decidable (IsPlain l) :=
  decidable_of_iff (trimEnd l = l ∧ '\n' ∉ l ∧ '*' ∉ l)
    ⟨fun ⟨h₁, h₂, h₃⟩ => ⟨h₁, h₂, h₃⟩, fun ⟨h₁, h₂, h₃⟩ => ⟨h₁, h₂, h₃⟩⟩

instance (ls : List String) : Decidable (IsContent ls) :=
  decidable_of_iff (ls.head? ≠ some "" ∧ ∀ l ∈ ls, IsPlain l.toList)
    ⟨fun ⟨h₁, h₂⟩ => ⟨h₁, h₂⟩, fun ⟨h₁, h₂⟩ => ⟨h₁, h₂⟩⟩

instance (s : Text) : Decidable (IsInline s) :=
  decidable_of_iff (s ≠ [] ∧ trim s = s ∧ '\n' ∉ s ∧ '*' ∉ s)
    ⟨fun ⟨h₁, h₂, h₃, h₄⟩ => ⟨h₁, h₂, h₃, h₄⟩, fun ⟨h₁, h₂, h₃, h₄⟩ => ⟨h₁, h₂, h₃, h₄⟩⟩

instance (e : Entry) : Decidable (IsWritable e) :=
  decidable_of_iff (e.tag.toList ≠ [] ∧ e.tag.toList.all Char.isAlphanum = true ∧
      (∀ s ∈ e.inline, IsInline s.toList) ∧ IsContent e.content)
    ⟨fun ⟨h₁, h₂, h₃, h₄⟩ => ⟨h₁, List.all_eq_true.mp h₂, h₃, h₄⟩,
      fun ⟨h₁, h₂, h₃, h₄⟩ => ⟨h₁, List.all_eq_true.mpr h₂, h₃, h₄⟩⟩

/-- What a comment is to say. -/
structure Draft where
  free : List String
  entries : List Entry
  isContent_free : IsContent free
  isWritable_of_mem : ∀ e ∈ entries, IsWritable e

/-! ### Rows and layouts -/

/-- Every at sign with a backslash before it. -/
def escape (t : Text) : Text := t.flatMap fun c => if c = '@' then ['\\', '@'] else [c]

/-- The row that starts an entry. -/
def headline (e : Entry) : Text :=
  '@' :: e.tag.toList ++ (match e.inline with
    | some s => ' ' :: s.toList
    | none => [])

/-- The rows of lines of text. -/
def textRows (ls : List String) : List Text := ls.map fun l => escape l.toList

def entryRows (e : Entry) : List Text := headline e :: textRows e.content

/-- A row behind its star; an empty row is a star alone. -/
def starred (row : Text) : Text := if row = [] then " *".toList else " * ".toList ++ row

namespace Draft

def rows (d : Draft) : List Text := textRows d.free ++ d.entries.flatMap entryRows

/-- Each row on a line of its own. -/
def block (d : Draft) : String :=
  String.ofList (unlines ("/**".toList :: d.rows.map starred ++ [" */".toList]))

/-- All rows on one line. -/
def oneLine (d : Draft) : String :=
  String.ofList ("/**".toList ++ " *".toList.intercalate (d.rows.map (' ' :: ·)) ++ " */".toList)

/-- The sections of a draft: its free text, if there is any, as a description, then its entries. -/
def sections (d : Draft) : List Entry :=
  (if d.free = [] then [] else [⟨descriptionTag, none, d.free⟩]) ++ d.entries

end Draft

/-! ### Plain lines -/

theorem IsPlain.isBlank_eq_false {l : Text} (h : IsPlain l) (hne : l ≠ []) :
    Text.isBlank l = false := by
  rw [← Bool.not_eq_true, ← trimEnd_eq_nil_iff, h.trimEnd_eq]
  exact hne

theorem IsPlain.isBlank_toList {l : String} (h : IsPlain l.toList) (hne : l ≠ "") :
    Text.isBlank l.toList = false :=
  h.isBlank_eq_false fun hnil => hne (String.toList_eq_nil_iff.mp hnil)

theorem mem_escape {c : Char} {t : Text} (h : c ∈ escape t) : c = '\\' ∨ c ∈ t := by
  obtain ⟨d, hd, hc⟩ := List.mem_flatMap.mp h
  by_cases hat : d = '@'
  · rw [if_pos hat, List.mem_cons, List.mem_singleton] at hc
    rcases hc with hc | hc
    · exact Or.inl hc
    · rw [hc, ← hat]
      exact Or.inr hd
  · rw [if_neg hat, List.mem_singleton] at hc
    exact Or.inr (hc ▸ hd)

theorem head?_escape_ne (t : Text) : (escape t).head? ≠ some '@' :=
  head?_escaped_ne (by decide) t

theorem getLast?_escape (t : Text) : (escape t).getLast? = t.getLast? := by
  obtain rfl | ⟨a, c, rfl⟩ := List.eq_nil_or_concat t
  · rfl
  · rw [List.concat_eq_append, escape, List.flatMap_append, List.flatMap_singleton,
      List.getLast?_concat]
    by_cases hc : c = '@' <;> simp [hc]

theorem isPlain_escape {l : Text} (h : IsPlain l) : IsPlain (escape l) where
  trimEnd_eq := by
    rw [trimEnd_eq_self_iff, getLast?_escape, ← trimEnd_eq_self_iff]
    exact h.trimEnd_eq
  newline_notMem := fun hmem => by
    rcases mem_escape hmem with hc | hc
    · exact absurd hc (by decide)
    · exact h.newline_notMem hc
  star_notMem := fun hmem => by
    rcases mem_escape hmem with hc | hc
    · exact absurd hc (by decide)
    · exact h.star_notMem hc

theorem unescape_escape (t : Text) : unescape '@' (escape t) = t :=
  unescape_escaped (by decide) t

theorem isPlain_headline {e : Entry} (h : IsWritable e) : IsPlain (headline e) := by
  have htag : ∀ c ∈ e.tag.toList, DocComment.isBlank c = false ∧ c ≠ '*' := by
    intro c hc
    have halnum := h.isAlphanum_of_mem_tag c hc
    refine ⟨not_isBlank_of_isAlphanum halnum, ?_⟩
    rintro rfl
    exact absurd halnum (by decide)
  have hstar : '*' ∉ e.tag.toList := fun hc => (htag _ hc).2 rfl
  have hline : '\n' ∉ e.tag.toList := fun hc => absurd (htag _ hc).1 (by decide)
  cases hs : e.inline with
  | none =>
    refine ⟨?_, by simp [headline, hs, hline], by simp [headline, hs, hstar]⟩
    rw [trimEnd_eq_self_iff, headline, hs, List.append_nil,
      List.getLast?_cons_of_ne_nil h.tag_ne_nil]
    exact fun c hc => (htag c (List.mem_of_getLast? hc)).1
  | some s =>
    have hin := h.isInline s hs
    have hblank : Text.isBlank s.toList = false := by
      rw [← Bool.not_eq_true, ← trim_eq_nil_iff, hin.trim_eq]
      exact hin.ne_nil
    refine ⟨?_, ?_, ?_⟩
    · rw [headline, hs, show '@' :: e.tag.toList ++ ' ' :: s.toList =
        '@' :: e.tag.toList ++ [' '] ++ s.toList by simp, trimEnd_append hblank,
        trimEnd_of_trim_eq hin.trim_eq]
    · simp [headline, hs, hline, hin.newline_notMem]
    · simp [headline, hs, hstar, hin.star_notMem]

/-! ### The lines of a layout -/

/-- The line that a row becomes: its star, a space and the row, trimmed. -/
def rowLine (row : Text) : Text := trim ('*' :: ' ' :: row)

theorem rowLine_of_isPlain {row : Text} (h : IsPlain row) (hne : row ≠ []) :
    rowLine row = '*' :: ' ' :: row := by
  rw [rowLine, trim_cons_of_not_blank rfl, show ' ' :: row = [' '] ++ row from rfl,
    trimEnd_append (h.isBlank_eq_false hne), h.trimEnd_eq]

theorem trimmedLines_row {row : Text} (h : '\n' ∉ row) :
    trimmedLines ('*' :: ' ' :: row) = [rowLine row] := by
  rw [trimmedLines_of_notMem (by simpa using h), if_neg, rowLine]
  simp [Text.isBlank, DocComment.isBlank]

/-- A text that adds no characters to the line it follows. -/
def EndsLine (t : Text) : Prop := Text.isBlank t = true ∨ ∃ u, t = '\n' :: u

theorem trimmedLines_append_of_endsLine {t : Text} (h : EndsLine t) (a : Text) :
    trimmedLines (a ++ t) = trimmedLines a ++ trimmedLines t := by
  obtain ht | ⟨u, rfl⟩ := h
  · rw [trimmedLines_append_of_blank ht, trimmedLines_of_blank ht, List.append_nil]
  · rw [trimmedLines_append, trimmedLines_newline_cons]

/-- Rows as they stand once the stars are broken, each followed by nothing or by a newline. -/
def broken (sep : Text → Text) (rows : List Text) : Text :=
  rows.flatMap (fun row => "\n * ".toList ++ row ++ sep row) ++ " ".toList

theorem broken_cons (sep : Text → Text) (row : Text) (rows : List Text) :
    broken sep (row :: rows) = "\n * ".toList ++ row ++ sep row ++ broken sep rows := by
  simp [broken]

theorem endsLine_broken (sep : Text → Text) (rows : List Text) : EndsLine (broken sep rows) := by
  cases rows with
  | nil => exact Or.inl rfl
  | cons row rows => exact Or.inr ⟨_, broken_cons sep row rows⟩

/-- Whether newlines follow the rows or not, the lines are the rows. -/
theorem trimmedLines_broken {sep : Text → Text} (hsep : ∀ row, sep row = [] ∨ sep row = ['\n'])
    {rows : List Text} (hrows : ∀ row ∈ rows, '\n' ∉ row) :
    trimmedLines (broken sep rows) = rows.map rowLine := by
  induction rows with
  | nil =>
    show trimmedLines " ".toList = []
    decide
  | cons row rows ih =>
    have hends : EndsLine (sep row ++ broken sep rows) := by
      rcases hsep row with h | h
      · rw [h]
        exact endsLine_broken sep rows
      · rw [h]
        exact Or.inr ⟨_, rfl⟩
    have hblank : Text.isBlank (sep row) = true := by
      rcases hsep row with h | h <;> rw [h] <;> decide
    -- the newline before the star ends the line of the row before, and is blank here
    rw [broken_cons, show "\n * ".toList ++ row ++ sep row ++ broken sep rows =
        "\n ".toList ++ ('*' :: ' ' :: row ++ (sep row ++ broken sep rows)) by simp,
      trimmedLines_of_blank_append (by decide), trimmedLines_append_of_endsLine hends,
      trimmedLines_row (hrows row List.mem_cons_self), trimmedLines_of_blank_append hblank,
      ih fun r hr => hrows r (List.mem_cons_of_mem row hr)]
    rfl

/-- The rows of a block, each with the newline that ends its line. -/
def blockBody (rows : List Text) : Text :=
  rows.flatMap (fun row => starred row ++ ['\n']) ++ " ".toList

theorem blockBody_cons (row : Text) (rows : List Text) :
    blockBody (row :: rows) = starred row ++ '\n' :: blockBody rows := by
  simp [blockBody]

theorem unlines_starred (rows : List Text) :
    unlines (rows.map starred ++ [" */".toList]) = blockBody rows ++ "*/".toList := by
  induction rows with
  | nil => decide
  | cons row rows ih =>
    rw [List.map_cons, List.cons_append, unlines_cons (by simp), ih, blockBody_cons]
    simp

theorem head?_blockBody (rows : List Text) : (blockBody rows).head? = some ' ' := by
  cases rows with
  | nil => rfl
  | cons row rows =>
    rw [blockBody_cons, starred]
    split <;> rfl

/-- An empty row loses its newline to the star before it, any other row keeps it. -/
theorem breakStars_blockBody {rows : List Text} (hrows : ∀ row ∈ rows, '*' ∉ row) :
    breakStars (blockBody rows) = broken (fun row => if row = [] then [] else ['\n']) rows := by
  induction rows with
  | nil => decide
  | cons row rows ih =>
    have hbody := ih fun r hr => hrows r (List.mem_cons_of_mem row hr)
    rw [blockBody_cons, broken_cons, ← hbody]
    by_cases hrow : row = []
    · -- the newline is the blank after the star, so it is part of the break
      rw [starred, if_pos hrow, if_pos hrow, hrow]
      show breakStars (' ' :: '*' :: '\n' :: blockBody rows) = _
      rw [breakStars_star rfl rfl]
      simp
    · have hnl : breakStars ('\n' :: blockBody rows) = '\n' :: breakStars (blockBody rows) :=
        breakStars_cons_of_head (by simp [head?_blockBody]) '\n'
      rw [starred, if_neg hrow, if_neg hrow]
      show breakStars (' ' :: '*' :: ' ' :: (row ++ '\n' :: blockBody rows)) = _
      rw [breakStars_star rfl rfl,
        breakStars_append_of_notMem (hrows row List.mem_cons_self) (by simp), hnl]
      simp

/-- The rows after the first on one line. -/
def lineBody (rows : List Text) : Text :=
  rows.flatMap (fun row => " * ".toList ++ row) ++ " ".toList

theorem lineBody_cons (row : Text) (rows : List Text) :
    lineBody (row :: rows) = " * ".toList ++ row ++ lineBody rows := by
  simp [lineBody]

theorem intercalate_append_lineBody (row : Text) (rows : List Text) :
    " *".toList.intercalate ((row :: rows).map (' ' :: ·)) ++ " ".toList =
      ' ' :: row ++ lineBody rows := by
  induction rows generalizing row with
  | nil => simp [lineBody]
  | cons r rows ih =>
    rw [List.map_cons, List.map_cons, List.intercalate_cons_cons, List.append_assoc,
      ← List.map_cons (f := (' ' :: ·)), ih, lineBody_cons]
    simp

theorem head?_lineBody (rows : List Text) : (lineBody rows).head? = some ' ' := by
  cases rows with
  | nil => rfl
  | cons row rows => rw [lineBody_cons]; rfl

theorem breakStars_lineBody {rows : List Text} (hrows : ∀ row ∈ rows, '*' ∉ row) :
    breakStars (lineBody rows) = broken (fun _ => []) rows := by
  induction rows with
  | nil => decide
  | cons row rows ih =>
    rw [lineBody_cons, broken_cons, ← ih fun r hr => hrows r (List.mem_cons_of_mem row hr)]
    show breakStars (' ' :: '*' :: ' ' :: (row ++ lineBody rows)) = _
    rw [breakStars_star rfl rfl, breakStars_append_of_notMem (hrows row List.mem_cons_self)
      (by simp [head?_lineBody])]
    simp

/-! ### Reading the lines -/

/-- What a line of text reads as. -/
def textLine (l : String) : Line := if l = "" then .gap else .words l.toList false

/-- What an entry reads as. -/
def entryLines (e : Entry) : List Line :=
  .tag e.tag.toList (e.inline.map String.toList) :: e.content.map textLine

theorem findTag?_star {row : Text} (hstar : '*' ∉ row) (hat : row.head? ≠ some '@') :
    findTag? ('*' :: ' ' :: row) = none := by
  -- the only star is the first character, and neither way to the at sign leads from it
  have hhere : tagHere? ('*' :: ' ' :: row) = none := by
    refine tagHere?_eq_none_iff.mpr fun m rest hm => ?_
    have heq := hm.eq
    have hlen := m.length_gap_le
    match hgap : m.gap with
    | [] => simp [Marker.text, hgap] at heq
    | [b] =>
      rw [Marker.text, hgap] at heq
      have hrow := (List.cons.inj (List.cons.inj heq).2).2
      exact hat (by rw [hrow]; rfl)
    | _ :: _ :: _ => simp [hgap] at hlen
  have hrest : findTag? (' ' :: row) = none := findTag?_of_notMem (by simpa using hstar)
  rw [findTag?, hhere]
  simp only [hrest, Option.map_none]

theorem stripMarkers_star {row : Text} (hstar : '*' ∉ row) :
    stripMarkers ('*' :: ' ' :: row) = unescape '@' row := by
  have hopen : after? "/**".toList ('*' :: ' ' :: row) = none := rfl
  have hclose : before? "*/".toList ('*' :: ' ' :: row) = none := by
    rw [Option.eq_none_iff_forall_ne_some]
    intro r hr
    rw [before?_eq_some_iff] at hr
    match r with
    | [] => cases hr
    | c :: r =>
      have hmem : '*' ∈ ' ' :: row := by
        rw [(List.cons.inj hr).2]
        simp
      exact absurd hmem (by simpa using hstar)
  simp only [stripMarkers, hopen, hclose, Option.getD_none]

theorem not_isBlank_erase_star {row : Text} (h : Text.isBlank row = false) :
    ¬Text.isBlank (('*' :: ' ' :: row).erase '*') = true := by
  rw [List.erase_cons_head, show ' ' :: row = [' '] ++ row from rfl, isBlank_append, h,
    Bool.and_false]
  exact Bool.false_ne_true

theorem ofText_rowLine_escape {l : String} (h : IsPlain l.toList) :
    Line.ofText (rowLine (escape l.toList)) = textLine l := by
  by_cases hl : l = ""
  · rw [hl]
    decide
  · have hne : escape l.toList ≠ [] := by
      intro hnil
      have hback := unescape_escape l.toList
      rw [hnil] at hback
      exact hl (String.toList_eq_nil_iff.mp hback.symm)
    have hrow := isPlain_escape h
    rw [rowLine_of_isPlain hrow hne, Line.ofText,
      if_neg (not_isBlank_erase_star (hrow.isBlank_eq_false hne)),
      findTag?_star hrow.star_notMem (head?_escape_ne l.toList),
      stripMarkers_star hrow.star_notMem, unescape_escape, textLine, if_neg hl]
    simp

/-- A headline behind its star starts a tag, with nothing before the marker. -/
theorem findTag?_headline {e : Entry} (h : IsWritable e) :
    findTag? ('*' :: ' ' :: headline e) =
      some ([], e.tag.toList, (e.inline.map String.toList).getD []) := by
  refine findTag?_eq_some_iff.mpr ?_
  cases hs : e.inline with
  | none =>
    exact ⟨⟨[' '], e.tag.toList, [], by simp, rfl, h.tag_ne_nil, h.isAlphanum_of_mem_tag, rfl⟩, rfl,
      ⟨⟨by simp [Marker.text, headline, hs], rfl, fun _ => rfl⟩, fun _ _ _ _ => Nat.zero_le _⟩⟩
  | some s =>
    exact ⟨⟨[' '], e.tag.toList, [' '], by simp, rfl, h.tag_ne_nil, h.isAlphanum_of_mem_tag, rfl⟩,
      rfl, ⟨⟨by simp [Marker.text, headline, hs], trimStart_of_trim_eq (h.isInline s hs).trim_eq,
      fun hpad => by cases hpad⟩, fun _ _ _ _ => Nat.zero_le _⟩⟩

theorem ofText_rowLine_headline {e : Entry} (h : IsWritable e) :
    Line.ofText (rowLine (headline e)) = .tag e.tag.toList (e.inline.map String.toList) := by
  have hrow := isPlain_headline h
  have hne : headline e ≠ [] := by simp [headline]
  rw [rowLine_of_isPlain hrow hne, Line.ofText,
    if_neg (not_isBlank_erase_star (hrow.isBlank_eq_false hne)), findTag?_headline h]
  cases hs : e.inline with
  | none => rfl
  | some s =>
    have hin := h.isInline s hs
    simp [hin.trim_eq, inlineOf, hin.ne_nil]

theorem map_ofText_textRows {ls : List String} (h : ∀ l ∈ ls, IsPlain l.toList) :
    ((textRows ls).map rowLine).map Line.ofText = ls.map textLine := by
  rw [textRows, List.map_map, List.map_map]
  refine List.map_congr_left fun l hl => ?_
  rw [Function.comp_apply, Function.comp_apply, ofText_rowLine_escape (h l hl)]

theorem map_ofText_rows (d : Draft) :
    (d.rows.map rowLine).map Line.ofText =
      d.free.map textLine ++ d.entries.flatMap entryLines := by
  have hentries : ∀ es : List Entry, (∀ e ∈ es, IsWritable e) →
      ((es.flatMap entryRows).map rowLine).map Line.ofText = es.flatMap entryLines := by
    intro es
    induction es with
    | nil => intro _; rfl
    | cons e es ih =>
      intro h
      have he := h e List.mem_cons_self
      rw [List.flatMap_cons, List.map_append, List.map_append, List.flatMap_cons,
        ih fun e' he' => h e' (List.mem_cons_of_mem e he'), entryRows, List.map_cons, List.map_cons,
        ofText_rowLine_headline he, map_ofText_textRows he.isContent.isPlain_of_mem, entryLines]
  rw [Draft.rows, List.map_append, List.map_append,
    map_ofText_textRows d.isContent_free.isPlain_of_mem, hentries _ d.isWritable_of_mem]

/-! ### Sections of what was written -/

/-- Lines of text that follow words, or begin with some, all go to the entry that is open. -/
theorem sections_textLines {ls : List String} (hls : ∀ l ∈ ls, IsPlain l.toList) (rest : List Line)
    (e : Entry) (hopen : e.content = [] → ls.head? ≠ some "") :
    sections (.within e) (ls.map textLine ++ rest) =
      sections (.within { e with content := e.content ++ ls }) rest := by
  induction ls generalizing e with
  | nil => simp
  | cons l ls ih =>
    have hmore : ∀ line : String, (e.addLine line).content = [] → ls.head? ≠ some "" := by
      intro line hnil
      simp [Entry.addLine] at hnil
    have hadd : ∀ line : String, { e.addLine line with content := (e.addLine line).content ++ ls } =
        { e with content := e.content ++ line :: ls } := by
      intro line
      simp [Entry.addLine]
    have ih := fun line => ih (fun k hk => hls k (List.mem_cons_of_mem l hk)) (e.addLine line)
      (hmore line)
    rw [List.map_cons, List.cons_append, textLine]
    by_cases hl : l = ""
    · have hne : e.content.isEmpty = false := by
        rw [List.isEmpty_eq_false_iff]
        exact fun hnil => hopen hnil (by rw [hl]; rfl)
      rw [if_pos hl, sections, hne, if_neg (by simp), ih, hadd, hl]
    · have hwords := (hls l List.mem_cons_self).isBlank_toList hl
      rw [if_neg hl, sections, hwords, if_neg (by simp), String.ofList_toList, ih, hadd]

theorem sections_entryLines {es : List Entry} (hes : ∀ e ∈ es, IsWritable e) (cursor : Cursor) :
    sections cursor (es.flatMap entryLines ++ [Line.words [] true]) = cursor.finish ++ es := by
  induction es generalizing cursor with
  | nil =>
    cases cursor with
    | between afterGap => simp [sections, Cursor.finish, Text.isBlank]
    | within e => simp [sections, Cursor.finish, Text.isBlank]
  | cons e es ih =>
    -- the headline closes what was open, and the content of `e` goes to `e`
    have hcontent := (hes e List.mem_cons_self).isContent
    have hinline : (e.inline.map String.toList).map String.ofList = e.inline := by
      cases e.inline <;> simp
    rw [List.flatMap_cons, entryLines, List.append_assoc, List.cons_append, sections,
      sections_textLines hcontent.isPlain_of_mem _ _ fun _ => hcontent.head?_ne,
      ih fun e' he' => hes e' (List.mem_cons_of_mem e he'), hinline]
    simp [Cursor.finish]

theorem sections_draft (d : Draft) (afterGap : Bool) :
    sections (.between afterGap)
        (d.free.map textLine ++ d.entries.flatMap entryLines ++ [Line.words [] true]) = d.sections := by
  rw [Draft.sections, List.append_assoc]
  cases hfree : d.free with
  | nil => exact sections_entryLines d.isWritable_of_mem _
  | cons l ls =>
    have hd := d.isContent_free
    rw [hfree] at hd
    have hl : l ≠ "" := by simpa using hd.head?_ne
    have hwords := (hd.isPlain_of_mem l List.mem_cons_self).isBlank_toList hl
    -- the first line opens the description, and the others join it
    rw [List.map_cons, List.cons_append, textLine, if_neg hl, sections, hwords, if_pos (by simp),
      sections_textLines fun k hk => hd.isPlain_of_mem k (List.mem_cons_of_mem l hk),
      sections_entryLines d.isWritable_of_mem]
    · simp [Cursor.finish]
    · simp

namespace Draft

theorem isPlain_of_mem_rows {d : Draft} {row : Text} (h : row ∈ d.rows) : IsPlain row := by
  have htext : ∀ ls : List String, IsContent ls → row ∈ textRows ls → IsPlain row := by
    intro ls hls hrow
    obtain ⟨l, hl, rfl⟩ := List.mem_map.mp hrow
    exact isPlain_escape (hls.isPlain_of_mem l hl)
  rw [rows, List.mem_append, List.mem_flatMap] at h
  rcases h with h | ⟨e, he, h⟩
  · exact htext d.free d.isContent_free h
  · have hwritable := d.isWritable_of_mem e he
    rw [entryRows, List.mem_cons] at h
    rcases h with rfl | h
    · exact isPlain_headline hwritable
    · exact htext e.content hwritable.isContent h

theorem toList_block (d : Draft) :
    d.block.toList = unlines ("/**".toList :: d.rows.map starred ++ [" */".toList]) :=
  String.toList_ofList

theorem toList_oneLine (d : Draft) :
    d.oneLine.toList = "/**".toList ++ " *".toList.intercalate (d.rows.map (' ' :: ·)) ++
      " */".toList :=
  String.toList_ofList

theorem sectionsOf_block (d : Draft) : sectionsOf (normalForm d.block.toList) = d.sections := by
  have hblock : d.block.toList = "/**".toList ++ '\n' :: blockBody d.rows ++ "*/".toList := by
    rw [toList_block, List.cons_append, unlines_cons (by simp), unlines_starred]
    simp
  have hbreak : breakStars ('\n' :: blockBody d.rows) = '\n' :: breakStars (blockBody d.rows) :=
    breakStars_cons_of_head (by simp [head?_blockBody]) '\n'
  have hsep : ∀ row : Text, (if row = [] then [] else ['\n']) = [] ∨
      (if row = [] then [] else ['\n']) = ['\n'] := by
    intro row
    by_cases hrow : row = [] <;> simp [hrow]
  have hlines : trimmedLines ('*' :: '\n' :: breakStars (blockBody d.rows)) =
      ['*'] :: d.rows.map rowLine := by
    rw [show '*' :: '\n' :: breakStars (blockBody d.rows) =
        ['*'] ++ '\n' :: breakStars (blockBody d.rows) from rfl, trimmedLines_append,
      breakStars_blockBody fun row hrow => (isPlain_of_mem_rows hrow).star_notMem,
      trimmedLines_broken hsep fun row hrow => (isPlain_of_mem_rows hrow).newline_notMem]
    rfl
  have hgap : Line.ofText ['*'] = .gap := by decide
  rw [hblock, sectionsOf_normalForm, hbreak, hlines, List.map_cons, hgap, map_ofText_rows,
    List.cons_append, Comment.sections]
  exact sections_draft d true

theorem sectionsOf_oneLine (d : Draft) :
    sectionsOf (normalForm d.oneLine.toList) = d.sections := by
  cases hrows : d.rows with
  | nil =>
    have hline : d.oneLine.toList = "/**".toList ++ " ".toList ++ "*/".toList := by
      rw [toList_oneLine, hrows]
      decide
    have hmiddle : (trimmedLines ('*' :: breakStars " ".toList)).map Line.ofText = [.gap] := by
      decide
    have hread := map_ofText_rows d
    rw [hrows] at hread
    rw [hline, sectionsOf_normalForm, hmiddle, ← sections_draft d true, ← hread]
    rfl
  | cons row rest =>
    have hplain : ∀ r ∈ row :: rest, IsPlain r := fun r hr => isPlain_of_mem_rows (hrows ▸ hr)
    have hrest : ∀ r ∈ rest, IsPlain r := fun r hr => hplain r (List.mem_cons_of_mem row hr)
    have hrow := hplain row List.mem_cons_self
    have hline : d.oneLine.toList =
        "/**".toList ++ (' ' :: row ++ lineBody rest) ++ "*/".toList := by
      rw [toList_oneLine, hrows, ← intercalate_append_lineBody]
      simp
    have hbreak : breakStars (' ' :: row ++ lineBody rest) =
        ' ' :: row ++ broken (fun _ => []) rest := by
      rw [breakStars_append_of_notMem (by simpa using hrow.star_notMem) (by simp [head?_lineBody]),
        breakStars_lineBody fun r hr => (hrest r hr).star_notMem]
    have hlines : trimmedLines ('*' :: (' ' :: row ++ broken (fun _ => []) rest)) =
        (row :: rest).map rowLine := by
      rw [show '*' :: (' ' :: row ++ broken (fun _ => []) rest) =
          '*' :: ' ' :: row ++ broken (fun _ => []) rest from rfl,
        trimmedLines_append_of_endsLine (endsLine_broken _ rest),
        trimmedLines_row hrow.newline_notMem,
        trimmedLines_broken (fun _ => Or.inl rfl) fun r hr => (hrest r hr).newline_notMem]
      rfl
    rw [hline, sectionsOf_normalForm, hbreak, hlines, ← hrows, map_ofText_rows]
    exact sections_draft d false

/-- **Reading undoes writing**: in either layout, the entries of a written draft are its free text,
as a description, and its entries, in order. -/
theorem segment_normalize (d : Draft) :
    segment (normalize d.block) = Entries.ofList d.sections ∧
      segment (normalize d.oneLine) = Entries.ofList d.sections := by
  constructor
  · rw [segment, normalize, String.toList_ofList, sectionsOf_block]
  · rw [segment, normalize, String.toList_ofList, sectionsOf_oneLine]

/-- A draft with at signs, a paragraph break, an indented line and a tag that comes twice. -/
def sample : Draft where
  free := ["\\me@home", "", "  more"]
  entries := [⟨"see", some "a  b", []⟩, ⟨"static", none, ["@x/y", ""]⟩, ⟨"see", some "@c", []⟩]
  isContent_free := by decide
  isWritable_of_mem := by decide

theorem segment_normalize_sample :
    segment (normalize
      "/**\n * \\me\\@home\n *\n *   more\n * @see a  b\n * @static\n * \\@x/y\n *\n * @see @c\n */") =
    [("description", [⟨"description", none, ["\\me@home", "", "  more"]⟩]),
      ("see", [⟨"see", some "a  b", []⟩, ⟨"see", some "@c", []⟩]),
      ("static", [⟨"static", none, ["@x/y", ""]⟩])] :=
  (segment_normalize sample).1

end Draft

end DocComment.Comment
