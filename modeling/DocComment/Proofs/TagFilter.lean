/-
What a filter sees of a comment.

A filter reads the raw comment, by a search for the mentions of a tag; a reader of sections reads
the lines of the normal form.  Only a mention that starts no tag tells the two apart, so they agree
on a tag whose first mention starts one:

* `lineAfter?_append_at`, `lineAfter?_mention` — the search passes over text without a mention, and
  stops at a mention that has something behind it on its line;
* `textAfter?_of_startsFirst` — so what it finds is the line of the first mention, which is the line
  that the first entry of the tag was read from;
* `textAfter?_eq_inline` — the text it finds is the inline text of that entry.

`accepts_exact_iff` says the same of a filter.  Beyond these comments the search reads too much: it
takes `@statusCode 5` for a mention of `status` that says `Code 5`, counts a closing marker on the
line as text, and goes on to a later mention when the first one is bare.
-/
import DocComment.Proofs.Comment.Extraction
import DocComment.Proofs.Comment.Mention
import DocComment.TagFilter

namespace DocComment

namespace TagFilter

open Comment Text

/-! ### The search -/

theorem lineAfter?_cons_of_not_isPrefix {w t : Text} {c : Char} (h : ¬w <+: c :: t) :
    lineAfter? w (c :: t) = lineAfter? w t := by
  rw [lineAfter?, after?_eq_none_iff.mpr h]
  rfl

theorem lineAfter?_of_not_infix {w t : Text} (h : ¬w <:+: t) : lineAfter? w t = none := by
  induction t with
  | nil => rfl
  | cons c t ih =>
    rw [lineAfter?_cons_of_not_isPrefix fun hp => h hp.isInfix, ih fun hi => h (List.infix_cons hi)]

theorem lineAfter?_append_of_notMem {name g : Text} (hg : '@' ∉ g) (u : Text) :
    lineAfter? (mention name) (g ++ u) = lineAfter? (mention name) u := by
  induction g with
  | nil => rfl
  | cons c g ih =>
    rw [List.mem_cons, not_or] at hg
    rw [List.cons_append, lineAfter?_cons_of_not_isPrefix, ih hg.2]
    rintro ⟨r, hr⟩
    exact hg.1 (List.cons.inj hr).1

/-- No mention starts in a text without one and ends behind the at sign that follows. -/
theorem not_prefix_append_at {name g u : Text} (hname : '@' ∉ name) (hg : ¬mention name <:+: g)
    (hne : g ≠ []) : ¬mention name <+: g ++ '@' :: u := by
  rintro ⟨r, hr⟩
  rcases List.append_eq_append_iff.mp hr with ⟨v, hv, -⟩ | ⟨v, hv, hu⟩
  · exact hg (hv ▸ (List.prefix_append _ v).isInfix)
  · -- the name would go on behind `g`, with an at sign in it
    obtain ⟨c, g, rfl⟩ := List.exists_cons_of_ne_nil hne
    cases v with
    | nil => exact hg (by rw [hv, List.append_nil])
    | cons d v =>
      obtain rfl : '@' = d := (List.cons.inj hu).1
      refine hname ?_
      rw [(List.cons.inj hv).2]
      simp

theorem lineAfter?_append_at {name g : Text} (hname : '@' ∉ name) (hg : ¬mention name <:+: g)
    (u : Text) :
    lineAfter? (mention name) (g ++ '@' :: u) = lineAfter? (mention name) ('@' :: u) := by
  induction g with
  | nil => rfl
  | cons c g ih =>
    have hnot : ¬mention name <+: c :: (g ++ '@' :: u) :=
      not_prefix_append_at hname hg (List.cons_ne_nil c g)
    rw [List.cons_append, lineAfter?_cons_of_not_isPrefix hnot, ih fun h => hg (List.infix_cons h)]

/-- At a mention the search finds the rest of the line, unless that is nothing at all. -/
theorem lineAfter?_mention {name rest : Text} (hname : '@' ∉ name) (hrest : '\n' ∉ rest)
    (after : Text) : lineAfter? (mention name) (mention name ++ (rest ++ '\n' :: after)) =
      if rest = [] then lineAfter? (mention name) after else some rest := by
  have hafter : after? (mention name) (mention name ++ (rest ++ '\n' :: after)) =
      some (rest ++ '\n' :: after) := by simp
  have hline : (rest ++ '\n' :: after).takeWhile (· ≠ '\n') = rest := by
    rw [List.takeWhile_append_of_pos, List.takeWhile_cons_of_neg (by simp), List.append_nil]
    intro c hc
    have hne : c ≠ '\n' := by rintro rfl; exact hrest hc
    simpa using hne
  have hstep : lineAfter? (mention name) (mention name ++ (rest ++ '\n' :: after)) =
      if rest.isEmpty then lineAfter? (mention name) (name ++ (rest ++ '\n' :: after))
      else some rest := by
    rw [show mention name ++ (rest ++ '\n' :: after) = '@' :: (name ++ (rest ++ '\n' :: after))
      from rfl] at hafter ⊢
    rw [lineAfter?, hafter, Option.getD_some, hline]
  rw [hstep]
  by_cases hnil : rest = []
  · -- nothing of the line is left, and the next at sign comes behind it
    have hbetween : '@' ∉ name ++ ['\n'] := by simpa using hname
    rw [hnil, if_pos rfl, if_pos List.isEmpty_nil, List.nil_append,
      show name ++ '\n' :: after = (name ++ ['\n']) ++ after by simp,
      lineAfter?_append_of_notMem hbetween]
  · rw [if_neg (by simpa using hnil), if_neg hnil]

/-! ### The search and the sections -/

/-- The search finds the rest of the first mention's line. -/
theorem textAfter?_of_startsFirst {tag : String} {comment before rest after : Text}
    (h : StartsFirst tag.toList comment before rest after) (htag : IsTagName tag.toList) :
    textAfter? tag comment = (inlineOf (trim rest)).map String.ofList := by
  have hname : '@' ∉ tag.toList := htag.notMem rfl
  have hline : lineAfter? (mention tag.toList) comment = if rest = [] then none else some rest := by
    have hcomment : comment = "/**".toList ++ (before ++ '@' :: (tag.toList ++
        (rest ++ '\n' :: after))) := by
      rw [h.eq]
      simp [mention]
    rw [hcomment, lineAfter?_append_of_notMem (by decide),
      lineAfter?_append_at hname h.not_infix_before, ← List.cons_append, ← mention,
      lineAfter?_mention hname h.newline_notMem]
    by_cases hnil : rest = []
    · rw [if_pos hnil, if_pos hnil, lineAfter?_of_not_infix (h.not_infix_after hnil)]
    · rw [if_neg hnil, if_neg hnil]
  rw [textAfter?, ← mention, hline]
  by_cases hnil : rest = []
  · rw [hnil]
    rfl
  · rw [if_neg hnil, inlineOf]
    show (if (trim rest).isEmpty then none else some (String.ofList (trim rest))) = _
    split <;> rfl

/-- If the tag's first mention starts a line, the text that the filter sees is the inline text of
the tag's first entry; if there is no mention, both are missing. -/
theorem textAfter?_eq_inline {text comment tag : String} (hcomment : comment ∈ comments text)
    (htag : IsTagName tag.toList) (hdesc : tag ≠ descriptionTag)
    (hfirst : mention tag.toList <:+: comment.toList →
      ∃ before rest after, StartsFirst tag.toList comment.toList before rest after) :
    textAfter? tag comment.toList = ((entries comment).first? tag).bind Entry.inline := by
  obtain ⟨c, b, hb, -⟩ := isComment_of_mem_comments hcomment
  have hbody : comment.toList = "/**".toList ++ c :: b ++ "*/".toList := by simpa using hb
  have hentry := map_first?_entries hbody hdesc
  by_cases hmention : mention tag.toList <:+: comment.toList
  · -- both read the line of the first mention
    obtain ⟨before, rest, after, h⟩ := hfirst hmention
    have hstart := h.find?_start? htag hbody
    rw [String.ofList_toList] at hstart
    rw [hstart] at hentry
    obtain ⟨e, he, heq⟩ := Option.map_eq_some_iff.mp hentry
    rw [he, textAfter?_of_startsFirst h htag]
    exact (Prod.mk.inj heq).2.symm
  · rw [first?_eq_none_of_not_mention hbody htag hdesc hmention, textAfter?, ← mention,
      lineAfter?_of_not_infix hmention]
    rfl

theorem accepts_ofList_exact {tag s comment : String} :
    (ofList [(tag, .exact s)]).accepts comment = true ↔
      textAfter? tag comment.toList = some s := by
  have hrule : ofList [(tag, .exact s)] = [(tag, [.exact s])] := rfl
  rw [hrule, accepts, List.all_cons, List.all_nil, Bool.and_true, passes, Option.any_eq_true]
  simp [Matcher.accepts]

/-- **The filter agrees with the sections** on a tag whose first mention, if there is one, starts
a line: a comment passes the rule that the tag has the text `s` exactly when the first entry of the
tag has the inline text `s`. -/
theorem accepts_exact_iff {text comment tag s : String} (hcomment : comment ∈ comments text)
    (htag : IsTagName tag.toList) (hdesc : tag ≠ descriptionTag)
    (hfirst : mention tag.toList <:+: comment.toList →
      ∃ before rest after, StartsFirst tag.toList comment.toList before rest after) :
    (ofList [(tag, .exact s)]).accepts comment = true ↔
      ∃ e, (entries comment).first? tag = some e ∧ e.inline = some s := by
  rw [accepts_ofList_exact, textAfter?_eq_inline hcomment htag hdesc hfirst,
    Option.bind_eq_some_iff]

/-- A tag with a text, and a longer tag behind it. -/
def sample : String := "/**\n * @status beta\n * @statusCode 5\n */"

theorem accepts_exact_iff_sample : (ofList [("status", .exact "beta")]).accepts sample = true ∧
    ∃ e, (entries sample).first? "status" = some e ∧ e.inline = some "beta" := by
  have hmem : sample ∈ comments sample := by
    rw [show comments sample = [sample] by cbv]
    exact List.mem_singleton_self sample
  have hopens : OpensLine ([] ++ '\n' :: ([' '] ++ '*' :: [' '])) :=
    .newline (by simp [EndsInStar]) (List.all_eq_true.mp rfl) isGap_space
  have hfirst : StartsFirst "status".toList sample.toList "\n * ".toList " beta".toList
      " * @statusCode 5\n */".toList :=
    ⟨by decide, by decide, hopens, fun _ hc => Option.some.inj hc ▸ rfl, by decide, by decide,
      not_endsInStar_of_notMem (by decide), by decide⟩
  have htag : IsTagName "status".toList := ⟨by decide, List.all_eq_true.mp (by decide)⟩
  have hiff := accepts_exact_iff (s := "beta") hmem htag (by decide) fun _ => ⟨_, _, _, hfirst⟩
  have haccepts : (ofList [("status", .exact "beta")]).accepts sample = true := by decide
  exact ⟨haccepts, hiff.mp haccepts⟩

/-- A longer tag in front is taken for a mention with a text. -/
theorem not_forall_accepts_exact_iff :
    ¬∀ text comment tag s : String, comment ∈ comments text → IsTagName tag.toList →
      ((ofList [(tag, .exact s)]).accepts comment = true ↔
        ∃ e, (entries comment).first? tag = some e ∧ e.inline = some s) := by
  intro h
  have hmem : "/**\n * @statusCode 5\n * @status beta\n */" ∈
      comments "/**\n * @statusCode 5\n * @status beta\n */" := by
    rw [show comments "/**\n * @statusCode 5\n * @status beta\n */" =
      ["/**\n * @statusCode 5\n * @status beta\n */"] by cbv]
    decide
  have hentry : (entries "/**\n * @statusCode 5\n * @status beta\n */").first? "status" =
      some { tag := "status", inline := some "beta" } := by decide +kernel
  have haccepts : (ofList [("status", .exact "beta")]).accepts
      "/**\n * @statusCode 5\n * @status beta\n */" = false := by decide
  have htag : IsTagName "status".toList := ⟨by decide, List.all_eq_true.mp (by decide)⟩
  have hiff := h _ _ "status" "beta" hmem htag
  rw [hiff.mpr ⟨_, hentry, rfl⟩] at haccepts
  cases haccepts

end TagFilter

end DocComment
