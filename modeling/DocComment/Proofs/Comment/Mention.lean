/-
Mentions of a tag, and the lines they start.

A comment mentions a tag wherever an at sign and its name stand in it.  A reader of the raw text
sees mentions; a reader of sections sees the lines that start the tag.

* `start?_of_not_mention` — a line that starts a tag mentions it;
* `ofText_trim_mention` — a mention behind the star of a line starts the tag, and the rest of the
  line is the text beside it;
* `exists_lines_of_opensLine` — what `OpensLine` says of the raw text before a mention puts the
  mention behind the star of a line, and the lines before it mention no more than that text.

`StartsFirst` puts a tag's first mention behind the star of a line, and `StartsFirst.find?_start?`
says that this line is the first one that starts the tag.
-/
import DocComment.Proofs.Comment.Normal
import DocComment.Proofs.Comment.Sections

namespace DocComment.Comment

open Text

/-- How a tag is written wherever a comment speaks of it. -/
def mention (name : Text) : Text := '@' :: name

structure IsTagName (name : Text) : Prop where
  ne_nil : name ≠ []
  isAlphanum_of_mem : ∀ c ∈ name, c.isAlphanum = true

theorem IsTagName.notMem {name : Text} (h : IsTagName name) {c : Char}
    (hc : c.isAlphanum = false) : c ∉ name := by
  intro hmem
  rw [h.isAlphanum_of_mem c hmem] at hc
  cases hc

theorem IsTagName.isWord_mention {name : Text} (h : IsTagName name) : IsWord (mention name) := by
  intro c hc
  rcases List.mem_cons.mp hc with rfl | hc
  · decide
  · refine ⟨?_, not_isBlank_of_isAlphanum (h.isAlphanum_of_mem c hc)⟩
    rintro rfl
    exact h.notMem rfl hc

/-- What stands between the star of a line and a mention in it. -/
structure IsGap (gap : Text) : Prop where
  length_le : gap.length ≤ 1
  isBlank : Text.isBlank gap = true
  newline_notMem : '\n' ∉ gap

theorem isGap_space : IsGap [' '] := ⟨by simp, rfl, by simp⟩

/-- The text that stands between the opening marker and a mention ends in a star that starts a line
of the normal form, with at most one blank behind it. -/
inductive OpensLine : Text → Prop where
  /-- The star is the last one of the opening marker. -/
  | opening {gap : Text} (hgap : IsGap gap) : OpensLine gap
  /-- The star is the first character of a line. -/
  | newline {a indent gap : Text} (ha : ¬EndsInStar a) (hindent : ∀ c ∈ indent, isIndent c = true)
    (hgap : IsGap gap) : OpensLine (a ++ '\n' :: (indent ++ '*' :: gap))
  /-- The star breaks a line. -/
  | broken {a : Text} {x b : Char} (ha : ¬EndsInStar a) (hx : isIndent x = true)
    (hb : DocComment.isBlank b = true) : OpensLine (a ++ [x, '*', b])

/-! ### A line with a mention -/

/-- A mention behind the star of a line is a tag marker, with all the blanks that follow it. -/
theorem findTag?_mention {name gap rest : Text} (hname : IsTagName name) (hgap : IsGap gap)
    (hrest : ∀ c ∈ rest.head?, DocComment.isBlank c = true) :
    findTag? ('*' :: gap ++ (mention name ++ rest)) = some ([], name, trimStart rest) := by
  let m : Marker :=
    { gap := gap
      name := name
      pad := rest.takeWhile DocComment.isBlank
      length_gap_le := hgap.length_le
      isBlank_gap := hgap.isBlank
      name_ne_nil := hname.ne_nil
      isAlphanum_of_mem := hname.isAlphanum_of_mem
      isBlank_pad := List.all_takeWhile }
  have heq : '*' :: gap ++ (mention name ++ rest) = [] ++ m.text ++ trimStart rest := by
    rw [Marker.text, List.nil_append, List.append_assoc _ m.pad, trimStart,
      List.takeWhile_append_dropWhile]
    simp [m, mention]
  have hnil : m.pad = [] → trimStart rest = [] := by
    intro hpad
    cases rest with
    | nil => rfl
    | cons c rest =>
      rw [show m.pad = c :: rest.takeWhile DocComment.isBlank from
        List.takeWhile_cons_of_pos (hrest c rfl)] at hpad
      cases hpad
  exact findTag?_eq_some_iff.mpr
    ⟨m, rfl, ⟨heq, trimStart_trimStart _, hnil⟩, fun _ _ _ _ => Nat.zero_le _⟩

/-- The line of a mention starts the tag, with the rest of the line for its inline text. -/
theorem ofText_trim_mention {name gap rest : Text} (hname : IsTagName name) (hgap : IsGap gap)
    (hrest : ∀ c ∈ rest.head?, DocComment.isBlank c = true) :
    Line.ofText (trim ('*' :: gap ++ (mention name ++ rest))) =
      .tag name (inlineOf (trim rest)) := by
  have hword : trimEnd (gap ++ mention name) = gap ++ mention name := by
    rw [trimEnd_eq_self_iff, mention, List.getLast?_append_of_ne_nil _ (List.cons_ne_nil _ _),
      List.getLast?_cons_of_ne_nil hname.ne_nil]
    exact fun c hc => not_isBlank_of_isAlphanum
      (hname.isAlphanum_of_mem c (List.mem_of_getLast? hc))
  have hline : trim ('*' :: gap ++ (mention name ++ rest)) =
      '*' :: gap ++ (mention name ++ trimEnd rest) := by
    rw [List.cons_append, trim_cons_of_not_blank rfl, ← List.append_assoc,
      trimEnd_append_of_trimEnd_eq hword, List.append_assoc, List.cons_append]
  have hsolid :
      ¬Text.isBlank (('*' :: gap ++ (mention name ++ trimEnd rest)).erase '*') = true := by
    rw [List.cons_append, List.erase_cons_head]
    simp [mention, Text.isBlank, DocComment.isBlank]
  have htrimmed : ∀ c ∈ (trimEnd rest).head?, DocComment.isBlank c = true := by
    intro c hc
    obtain ⟨b, -, hb⟩ := exists_trimEnd_append rest
    refine hrest c ?_
    rw [hb, List.head?_append, hc]
    rfl
  rw [hline, Line.ofText, if_neg hsolid, findTag?_mention hname hgap htrimmed]
  show Line.tag name (inlineOf (trim (trimStart (trimEnd rest)))) = _
  rw [trim_trimStart, trim_trimEnd]

/-- A line that does not mention a tag does not start it. -/
theorem start?_of_not_mention {name l : Text} (h : ¬mention name <:+: l)
    {start : String × Option String} (hstart : (Line.ofText l).start? = some start) :
    start.1 ≠ String.ofList name := by
  unfold Line.ofText at hstart
  split at hstart
  · cases hstart
  · split at hstart
    · next before n rest hfind =>
      cases hstart
      obtain ⟨m, rfl, hm, -⟩ := findTag?_eq_some_iff.mp hfind
      intro heq
      refine h ⟨before ++ '*' :: m.gap, m.pad ++ rest, ?_⟩
      rw [← String.ofList_injective heq, hm.eq, mention, Marker.text]
      simp
    · cases hstart

/-! ### The lines before a mention -/

theorem breakStars_gap {gap u : Text} (hgap : IsGap gap) (hu : u.head? = some '@') :
    breakStars ('*' :: (gap ++ u)) = '*' :: gap ++ breakStars u := by
  rw [breakStars_cons_of_not_indent rfl,
    breakStars_append_of_notMem (notMem_of_isBlank hgap.isBlank rfl) (by rw [hu]; decide)]
  rfl

/-- The line that starts at a star behind an indent: either it is broken there, or nothing is. -/
theorem trimmedLines_breakStars_star {x : Char} {gap u : Text} (hx : isIndent x = true)
    (hgap : IsGap gap) (hu : u.head? = some '@') :
    ∃ gap', IsGap gap' ∧ trimmedLines (breakStars (x :: '*' :: (gap ++ u))) =
      trimmedLines ('*' :: gap' ++ breakStars u) := by
  match gap, hgap with
  | [], hgap =>
    -- no blank follows the star, so that it breaks nothing
    have hstar : breakStars (x :: '*' :: u) = x :: breakStars ('*' :: u) := by
      cases u with
      | nil => cases hu
      | cons c v =>
        obtain rfl : c = '@' := Option.some.inj hu
        rw [breakStars, if_neg (by simp [DocComment.isBlank])]
    refine ⟨[], hgap, ?_⟩
    show trimmedLines (breakStars (x :: '*' :: u)) = _
    rw [hstar, trimmedLines_cons_of_blank (isBlank_of_isIndent hx), ← breakStars_gap hgap hu]
    rfl
  | [b], hgap =>
    refine ⟨[' '], isGap_space, ?_⟩
    have hb : DocComment.isBlank b = true := List.all_eq_true.mp hgap.isBlank b (by simp)
    show trimmedLines (breakStars (x :: '*' :: b :: u)) = _
    rw [breakStars_star hx hb]
    show trimmedLines ("\n ".toList ++ ('*' :: [' '] ++ breakStars u)) = _
    rw [trimmedLines_of_blank_append (by decide)]
  | _ :: _ :: _, hgap => exact absurd hgap.length_le (by simp)

/-- The line that starts at a star behind any indentation. -/
theorem trimmedLines_breakStars_indent {indent gap u : Text}
    (hindent : ∀ c ∈ indent, isIndent c = true) (hgap : IsGap gap) (hu : u.head? = some '@') :
    ∃ gap', IsGap gap' ∧ trimmedLines (breakStars (indent ++ '*' :: (gap ++ u))) =
      trimmedLines ('*' :: gap' ++ breakStars u) := by
  obtain rfl | ⟨i, x, rfl⟩ := List.eq_nil_or_concat indent
  · exact ⟨gap, hgap, by rw [List.nil_append, breakStars_gap hgap hu]⟩
  · rw [List.concat_eq_append] at hindent ⊢
    have hx : isIndent x = true := hindent x (by simp)
    have hi : Text.isBlank i = true :=
      isBlank_of_forall_isIndent fun c hc => hindent c (by simp [hc])
    obtain ⟨gap', hgap', hline⟩ := trimmedLines_breakStars_star hx hgap hu
    refine ⟨gap', hgap', ?_⟩
    -- only the last character of the indentation can be the one in front of a break
    have hcut : breakStars (i ++ [x] ++ '*' :: (gap ++ u)) =
        i ++ breakStars (x :: '*' :: (gap ++ u)) := by
      have hne : x ≠ '*' := by rintro rfl; cases hx
      rw [List.append_assoc,
        breakStars_append_of_notMem (notMem_of_isBlank hi rfl) (by simpa using hne)]
      rfl
    rw [hcut, trimmedLines_of_blank_append hi, hline]

/-- Breaking the stars of a text makes no new words on its lines. -/
theorem infix_of_mem_trimmedLines_breakStars {w a l : Text} (hw : IsWord w)
    (hl : l ∈ trimmedLines ('*' :: breakStars a)) (h : w <:+: l) : w <:+: a :=
  hw.infix_of_infix_breakStars
    (infix_of_infix_cons (fun hhead => hw.star_notMem (List.mem_of_mem_head? hhead))
      (h.trans (infix_of_mem_trimmedLines hl)))

/-- The lines of a comment up to a mention that starts a line, and the line. -/
theorem exists_lines_of_opensLine {before u : Text} (h : OpensLine before)
    (hu : u.head? = some '@') : ∃ (ls : List Text) (gap : Text), IsGap gap ∧
      trimmedLines ('*' :: breakStars (before ++ u)) =
        ls ++ trimmedLines ('*' :: gap ++ breakStars u) ∧
      ∀ w, IsWord w → ∀ l ∈ ls, w <:+: l → w <:+: before := by
  cases h with
  | opening hgap =>
    refine ⟨[], before, hgap, ?_, by simp⟩
    rw [breakStars_append_of_notMem (notMem_of_isBlank hgap.isBlank rfl) (by rw [hu]; decide)]
    rfl
  | @newline a indent gap ha hindent hgap =>
    obtain ⟨gap', hgap', hline⟩ := trimmedLines_breakStars_indent hindent hgap hu
    refine ⟨trimmedLines ('*' :: breakStars a), gap', hgap', ?_, fun w hw l hl h => ?_⟩
    · rw [← hline, ← trimmedLines_append, List.append_assoc, List.cons_append, List.append_assoc,
        List.cons_append, breakStars_append ha (by simp), breakStars_cons_of_not_indent rfl]
      rfl
    · exact (infix_of_mem_trimmedLines_breakStars hw hl h).trans (List.prefix_append a _).isInfix
  | @broken a x b ha hx hb =>
    refine ⟨trimmedLines ('*' :: breakStars a), [' '], isGap_space, ?_, fun w hw l hl h => ?_⟩
    · have hne : x ≠ '*' := by rintro rfl; cases hx
      rw [List.append_assoc, breakStars_append ha (by simpa using hne)]
      show trimmedLines ('*' :: (breakStars a ++ breakStars (x :: '*' :: b :: u))) = _
      rw [breakStars_star hx hb]
      show trimmedLines ('*' :: breakStars a ++
        '\n' :: (" ".toList ++ ('*' :: [' '] ++ breakStars u))) = _
      rw [trimmedLines_append, trimmedLines_of_blank_append (by decide)]
    · exact (infix_of_mem_trimmedLines_breakStars hw hl h).trans (List.prefix_append a _).isInfix

/-! ### The first mention -/

/-- The first mention of the tag in a comment starts a line.  `before` stands between the opening
marker and the mention, `rest` is what stands behind it on its line. -/
structure StartsFirst (name comment before rest after : Text) : Prop where
  eq : comment = "/**".toList ++ before ++ mention name ++ rest ++ '\n' :: after
  not_infix_before : ¬mention name <:+: before
  opensLine : OpensLine before
  /-- A blank parts the rest of the line from the name. -/
  isBlank_of_head : ∀ c ∈ rest.head?, DocComment.isBlank c = true
  newline_notMem : '\n' ∉ rest
  /-- No star breaks the line, there or at its end. -/
  breakStars_rest : breakStars rest = rest
  not_endsInStar : ¬EndsInStar rest
  /-- A bare mention is the only one. -/
  not_infix_after : rest = [] → ¬mention name <:+: after

/-- The line goes on to the newline, and the closing marker comes later. -/
theorem StartsFirst.exists_body {name comment before rest after b : Text}
    (h : StartsFirst name comment before rest after)
    (hb : comment = "/**".toList ++ b ++ "*/".toList) :
    ∃ q, b = before ++ (mention name ++ (rest ++ '\n' :: q)) := by
  have heq : b ++ "*/".toList = before ++ mention name ++ rest ++ '\n' :: after := by
    have hcomment := hb.symm.trans h.eq
    simpa using hcomment
  rcases List.append_eq_append_iff.mp heq with ⟨v, -, hv⟩ | ⟨v, hv, hafter⟩
  · have hmem : '\n' ∈ "*/".toList := by
      rw [hv]
      simp
    exact absurd hmem (by decide)
  · cases v with
    | nil => simp at hafter
    | cons c q =>
      obtain rfl : '\n' = c := (List.cons.inj hafter).1
      exact ⟨q, by rw [hv]; simp⟩

theorem breakStars_mention {name rest : Text} (hname : IsTagName name)
    (hrest : ∀ c ∈ rest.head?, DocComment.isBlank c = true) (hbreak : breakStars rest = rest)
    (hends : ¬EndsInStar rest) (q : Text) :
    breakStars (mention name ++ (rest ++ '\n' :: q)) =
      mention name ++ rest ++ '\n' :: breakStars q := by
  have hhead : (rest ++ '\n' :: q).head? ≠ some '*' := by
    cases rest with
    | nil => simp
    | cons c rest =>
      intro h
      obtain rfl : c = '*' := by simpa using h
      exact absurd (hrest '*' rfl) (by decide)
  rw [breakStars_append_of_notMem hname.isWord_mention.star_notMem hhead,
    breakStars_append hends (by simp), hbreak, breakStars_cons_of_not_indent rfl,
    List.append_assoc]

/-- Lines without a mention do not start the tag. -/
theorem find?_start?_of_not_mention {name : Text} {ls : List Text}
    (h : ∀ l ∈ ls, ¬mention name <:+: l) :
    (((ls.map Line.ofText).filterMap Line.start?).find? fun start =>
      start.1 = String.ofList name) = none := by
  refine List.find?_eq_none.mpr fun start hstart heq => ?_
  obtain ⟨k, hk, hkstart⟩ := List.mem_filterMap.mp hstart
  obtain ⟨l, hl, rfl⟩ := List.mem_map.mp hk
  exact start?_of_not_mention (h l hl) hkstart (of_decide_eq_true heq)

/-- A comment that does not mention a tag has no entry of it. -/
theorem first?_eq_none_of_not_mention {comment tag : String} {b : Text}
    (hbody : comment.toList = "/**".toList ++ b ++ "*/".toList) (htag : IsTagName tag.toList)
    (hdesc : tag ≠ descriptionTag) (h : ¬mention tag.toList <:+: comment.toList) :
    (entries comment).first? tag = none := by
  -- the normal form has no words that the comment does not have
  have hlines : ∀ l ∈ trimmedLines ('*' :: breakStars b), ¬mention tag.toList <:+: l := by
    intro l hl hin
    have hbodyin := infix_of_mem_trimmedLines_breakStars htag.isWord_mention hl hin
    exact h (hbodyin.trans ⟨"/**".toList, "*/".toList, hbody.symm⟩)
  have hstart := find?_start?_of_not_mention hlines
  have hentry := map_first?_entries hbody hdesc
  rw [String.ofList_toList] at hstart
  rwa [hstart, Option.map_eq_none_iff] at hentry

/-- The line of the first mention is the first one that starts the tag. -/
theorem StartsFirst.find?_start? {name comment before rest after b : Text}
    (h : StartsFirst name comment before rest after) (hname : IsTagName name)
    (hb : comment = "/**".toList ++ b ++ "*/".toList) :
    (((trimmedLines ('*' :: breakStars b)).map Line.ofText).filterMap Line.start?).find?
      (fun start => start.1 = String.ofList name) =
        some (String.ofList name, (inlineOf (trim rest)).map String.ofList) := by
  obtain ⟨q, rfl⟩ := h.exists_body hb
  obtain ⟨ls, gap, hgap, hlines, hls⟩ :=
    exists_lines_of_opensLine (u := mention name ++ (rest ++ '\n' :: q)) h.opensLine rfl
  have hbefore : ∀ l ∈ ls, ¬mention name <:+: l := fun l hl hin =>
    h.not_infix_before (hls _ hname.isWord_mention l hl hin)
  have hline : trimmedLines ('*' :: gap ++ (mention name ++ rest)) =
      [trim ('*' :: gap ++ (mention name ++ rest))] := by
    have hnewline : '\n' ∉ '*' :: gap ++ (mention name ++ rest) := by
      have hword : '\n' ∉ mention name := hname.isWord_mention.notMem_of_isBlank rfl
      simp [hgap.newline_notMem, hword, h.newline_notMem]
    rw [trimmedLines_of_notMem hnewline, if_neg (by simp [Text.isBlank, DocComment.isBlank])]
  have hstart : (Line.ofText (trim ('*' :: gap ++ (mention name ++ rest)))).start? =
      some (String.ofList name, (inlineOf (trim rest)).map String.ofList) := by
    rw [ofText_trim_mention hname hgap h.isBlank_of_head]
    rfl
  rw [hlines, breakStars_mention hname h.isBlank_of_head h.breakStars_rest h.not_endsInStar, ← List.append_assoc,
    trimmedLines_append, hline, List.map_append, List.filterMap_append, List.find?_append,
    find?_start?_of_not_mention hbefore, Option.none_or, List.singleton_append, List.map_cons,
    List.filterMap_cons_some hstart]
  exact List.find?_cons_of_pos (decide_eq_true rfl)

end DocComment.Comment
