/-
Comments that are normalized again.

Normalizing a comment twice gives other text than normalizing it once, for each time the opening
marker leaves a star behind; but the sections are the same as long as there is nothing left to break
(`Unbroken`).

* `unbroken_of_mem_lines` — breaking the stars from left to right leaves lines without a break,
  unless two breaks overlap: then the first takes the blank that the second needs, and gives it back;
* `breakStars_of_unbroken` — a text without a break stays as it is;
* `segment_normalize_normalize` — so a comment in which no breaks overlap has the same entries when
  its normal form is normalized again;
* `not_forall_segment_normalize` — a bulleted list loses its bullets.
-/
import DocComment.Proofs.Comment.Extraction
import DocComment.Proofs.Comment.Normal
import DocComment.Proofs.Text.Escape

namespace DocComment.Comment

open Text

/-! ### Breaks -/

/-- The text starts with a break. -/
def breaksHere : Text → Bool
  | x :: '*' :: s :: _ => isIndent x && DocComment.isBlank s
  | _ => false

/-- No break starts in the second text when the first one follows it. -/
def Unbroken (t : Text) : Text → Prop
  | [] => True
  | c :: p => breaksHere (c :: (p ++ t)) = false ∧ Unbroken t p

theorem unbroken_append {t p q : Text} :
    Unbroken t (p ++ q) ↔ Unbroken (q ++ t) p ∧ Unbroken t q := by
  induction p with
  | nil => exact ⟨fun h => ⟨trivial, h⟩, And.right⟩
  | cons c p ih =>
    rw [List.cons_append, Unbroken, Unbroken, ih, List.append_assoc, and_assoc]

theorem breaksHere_cons_of_not_indent {c : Char} (h : isIndent c = false) (t : Text) :
    breaksHere (c :: t) = false := by
  unfold breaksHere
  split
  · next heq =>
    rw [← (List.cons.inj heq).1, h]
    rfl
  · rfl

theorem breaksHere_cons_of_head {t : Text} (h : t.head? ≠ some '*') (c : Char) :
    breaksHere (c :: t) = false := by
  unfold breaksHere
  split
  · next heq =>
    rw [(List.cons.inj heq).2] at h
    exact absurd rfl h
  · rfl

/-- Which blank follows makes no difference. -/
theorem Unbroken.of_blank {s s' : Char} {t t' p : Text} (h : Unbroken (s :: t) p)
    (hs : DocComment.isBlank s = true) (hs' : DocComment.isBlank s' = true) :
    Unbroken (s' :: t') p := by
  induction p with
  | nil => trivial
  | cons c p ih =>
    refine ⟨?_, ih h.2⟩
    have hhere := h.1
    rcases p with _ | ⟨d, _ | ⟨e, p⟩⟩
    · refine breaksHere_cons_of_head ?_ c
      rintro ⟨⟩
      cases hs'
    · by_cases hd : d = '*'
      · subst hd
        simpa [breaksHere, hs, hs'] using hhere
      · exact breaksHere_cons_of_head (by simpa using hd) c
    · by_cases hd : d = '*'
      · subst hd
        simpa [breaksHere] using hhere
      · exact breaksHere_cons_of_head (by simpa using hd) c

theorem breakStars_of_unbroken {t : Text} (h : Unbroken [] t) : breakStars t = t := by
  induction t with
  | nil => rfl
  | cons c t ih =>
    obtain ⟨hhere, ht⟩ := h
    rw [breakStars_cons, ih ht]
    rintro b u rfl ⟨hc, hb⟩
    rw [List.append_nil, breaksHere, hc, hb] at hhere
    cases hhere

theorem unbroken_unlines {ls : List Text} (h : ∀ l ∈ ls, Unbroken ['\n'] l) :
    Unbroken ['\n'] (unlines ls) := by
  induction ls with
  | nil => trivial
  | cons l ls ih =>
    have hl := h l List.mem_cons_self
    have hls := ih fun k hk => h k (List.mem_cons_of_mem l hk)
    by_cases hnil : ls = []
    · rw [hnil, unlines_singleton]
      exact hl
    · rw [unlines_cons hnil, unbroken_append]
      exact ⟨hl.of_blank rfl rfl, breaksHere_cons_of_not_indent rfl _, hls⟩

/-! ### Breaking once -/

/-- The text starts with a break that takes the blank before another one.  Breaking leaves a space in
its place, but goes on behind it. -/
def overlapsHere : Text → Bool
  | x :: '*' :: s :: t => isIndent x && DocComment.isBlank s && breaksHere (' ' :: t)
  | _ => false

/-- No breaks overlap. -/
def HasNoOverlap (t : Text) : Prop := ∀ u ∈ t.tails, overlapsHere u = false

theorem HasNoOverlap.of_suffix {t t' : Text} (h : HasNoOverlap t) (ht : t' <:+ t) :
    HasNoOverlap t' := fun u hu =>
  h u ((List.mem_tails _ _).mpr (((List.mem_tails _ _).mp hu).trans ht))

/-- One character more on the line, if no break starts with it. -/
theorem Unbroken.trimStart_concat {t p : Text} {c : Char} (h : Unbroken (c :: t) (trimStart p))
    (hhere : breaksHere (c :: t) = false) : Unbroken t (trimStart (p ++ [c])) := by
  by_cases hp : Text.isBlank p = true
  · rw [trimStart_append_of_blank hp]
    by_cases hc : DocComment.isBlank c = true
    · rw [trimStart_eq_nil_iff.mpr (by simpa [Text.isBlank] using hc)]
      trivial
    · rw [trimStart_cons_of_not_blank (by simpa using hc)]
      exact ⟨hhere, trivial⟩
  · rw [trimStart_append (by simpa using hp), unbroken_append]
    exact ⟨h, hhere, trivial⟩

theorem not_endsInStar_of_getLast? {t : Text} (h : t.getLast? ≠ some '*') : ¬EndsInStar t := by
  rintro ⟨a, x, rfl, -⟩
  simp at h

theorem EndsInStar.append {a t : Text} (h : EndsInStar t) : EndsInStar (a ++ t) := by
  obtain ⟨u, x, rfl, hx⟩ := h
  exact ⟨a ++ u, x, by rw [List.append_assoc], hx⟩

/-- The lines that are left after breaking, without what is in front of them, have no break.  `p` is
the line so far, and none may start in it. -/
theorem unbroken_of_mem_lines {p b : Text} (hp : '\n' ∉ p)
    (hunbroken : Unbroken (b ++ ['\n']) (trimStart p)) (hoverlap : HasNoOverlap (b ++ ['\n']))
    (hends : ¬EndsInStar b) :
    ∀ l ∈ lines (p ++ breakStars b), Unbroken ['\n'] (trimStart l) := by
  -- a character that starts no break goes on the line, or ends it if it is a newline
  have hstep : ∀ (c : Char) (t p : Text), '\n' ∉ p →
      Unbroken (c :: (t ++ ['\n'])) (trimStart p) → breaksHere (c :: (t ++ ['\n'])) = false →
      (∀ p, '\n' ∉ p → Unbroken (t ++ ['\n']) (trimStart p) →
        ∀ l ∈ lines (p ++ breakStars t), Unbroken ['\n'] (trimStart l)) →
      ∀ l ∈ lines (p ++ c :: breakStars t), Unbroken ['\n'] (trimStart l) := by
    intro c t p hp hunbroken hhere ih
    by_cases hc : c = '\n'
    · subst hc
      intro l hl
      rw [lines_append, lines_of_notMem hp, List.singleton_append, List.mem_cons] at hl
      rcases hl with rfl | hl
      · exact hunbroken.of_blank rfl rfl
      · exact ih [] (by simp) trivial l hl
    · rw [← List.singleton_append, ← List.append_assoc]
      exact ih (p ++ [c]) (by simp [hp, Ne.symm hc]) (hunbroken.trimStart_concat hhere)
  fun_induction breakStars b generalizing p with
  | case1 x s t h ih =>
    -- the break ends the line, and the next one starts with its star and space
    obtain ⟨hx, hs⟩ := Bool.and_eq_true_iff.mp h
    intro l hl
    have htext : p ++ ("\n * ".toList ++ breakStars t) = p ++ '\n' :: (" * ".toList ++ breakStars t) :=
      rfl
    rw [htext, lines_append, lines_of_notMem hp, List.singleton_append, List.mem_cons] at hl
    rcases hl with rfl | hl
    · exact hunbroken.of_blank (isBlank_of_isIndent hx) rfl
    · have hmem : x :: '*' :: s :: t ++ ['\n'] ∈ (x :: '*' :: s :: t ++ ['\n']).tails :=
        (List.mem_tails _ _).mpr List.suffix_rfl
      have hafter : breaksHere (' ' :: (t ++ ['\n'])) = false := by
        simpa [overlapsHere, hx, hs] using hoverlap _ hmem
      have hstar : Unbroken (t ++ ['\n']) (trimStart " * ".toList) := by
        rw [show trimStart " * ".toList = ['*', ' '] by decide]
        exact ⟨breaksHere_cons_of_not_indent rfl _, hafter, trivial⟩
      exact ih (by decide) hstar (hoverlap.of_suffix ⟨[x, '*', s], rfl⟩)
        (fun hends' => hends (hends'.append (a := [x, '*', s]))) l hl
  | case2 c b t h ih =>
    have hhere : breaksHere (c :: ('*' :: b :: t ++ ['\n'])) = false := by
      rw [← Bool.not_eq_true]
      exact h
    exact hstep c ('*' :: b :: t) p hp hunbroken hhere fun p hp hunbroken =>
      ih hp hunbroken (hoverlap.of_suffix (List.suffix_cons _ _))
        fun hends' => hends (hends'.append (a := [c]))
  | case3 c t h ih =>
    have hhere : breaksHere (c :: (t ++ ['\n'])) = false := by
      by_cases ht : t = ['*']
      · -- a star at the end, with no space or tab before it
        subst ht
        refine breaksHere_cons_of_not_indent ?_ _
        rw [← Bool.not_eq_true]
        exact fun hc => hends ⟨[], c, rfl, hc⟩
      · rcases t with _ | ⟨d, _ | ⟨e, t⟩⟩
        · exact breaksHere_cons_of_head (by decide) c
        · exact breaksHere_cons_of_head (by simpa using ht) c
        · refine breaksHere_cons_of_head ?_ c
          rintro ⟨⟩
          exact h e t rfl
    exact hstep c t p hp hunbroken hhere fun p hp hunbroken =>
      ih hp hunbroken (hoverlap.of_suffix (List.suffix_cons _ _))
        fun hends' => hends (hends'.append (a := [c]))
  | case4 =>
    intro l hl
    rw [List.append_nil, lines_of_notMem hp, List.mem_singleton] at hl
    rw [hl]
    exact hunbroken

/-- No breaks overlap, and a star at the end that belongs to the closing marker has a line of its
own. -/
structure BreaksOnce (b : Text) : Prop where
  hasNoOverlap : HasNoOverlap (b ++ ['\n'])
  closing : EndsInStar b → ∃ a i, b = a ++ '\n' :: (i ++ ['*']) ∧
    (Text.isBlank i = true ∧ '\n' ∉ i) ∧ ¬EndsInStar a

theorem breaksHere_append {t : Text} (h : breaksHere t = true) (u : Text) :
    breaksHere (t ++ u) = true := by
  unfold breaksHere at h
  split at h
  · exact h
  · cases h

theorem overlapsHere_append {t : Text} (h : overlapsHere t = true) (u : Text) :
    overlapsHere (t ++ u) = true := by
  unfold overlapsHere at h
  split at h
  · next x s t =>
    obtain ⟨hxs, hbreak⟩ := Bool.and_eq_true_iff.mp h
    show (isIndent x && DocComment.isBlank s && breaksHere (' ' :: t ++ u)) = true
    rw [hxs, breaksHere_append hbreak]
    rfl
  · cases h

theorem HasNoOverlap.of_append {t u : Text} (h : HasNoOverlap (t ++ u)) : HasNoOverlap t := by
  intro v hv
  obtain ⟨w, hw⟩ := (List.mem_tails _ _).mp hv
  have hvu : v ++ u ∈ (t ++ u).tails := (List.mem_tails _ _).mpr ⟨w, by rw [← List.append_assoc, hw]⟩
  have hfalse := h _ hvu
  rw [← Bool.not_eq_true] at hfalse ⊢
  exact fun hoverlap => hfalse (overlapsHere_append hoverlap u)

theorem BreaksOnce.unbroken {b : Text} (h : BreaksOnce b) :
    ∀ l ∈ lines ('*' :: breakStars b), Unbroken ['\n'] (trimStart l) := by
  have hrun : ∀ b, HasNoOverlap (b ++ ['\n']) → ¬EndsInStar b →
      ∀ l ∈ lines ('*' :: breakStars b), Unbroken ['\n'] (trimStart l) := fun b =>
    unbroken_of_mem_lines (p := ['*']) (by decide) ⟨breaksHere_cons_of_not_indent rfl _, trivial⟩
  by_cases hends : EndsInStar b
  · obtain ⟨a, i, rfl, ⟨hi, hnewline⟩, ha⟩ := h.closing hends
    have hbreak : '*' :: breakStars (a ++ '\n' :: (i ++ ['*'])) =
        '*' :: breakStars a ++ '\n' :: (i ++ ['*']) := by
      have hstar : '*' ∉ '\n' :: i := by simpa using notMem_of_isBlank hi (c := '*') rfl
      rw [show a ++ '\n' :: (i ++ ['*']) = (a ++ '\n' :: i) ++ ['*'] by simp,
        breakStars_append_star (by simp), breakStars_append ha (by simp),
        breakStars_of_notMem hstar]
      simp [breakStars]
    intro l hl
    rw [hbreak, lines_append, List.mem_append] at hl
    rcases hl with hl | hl
    · have hprefix : HasNoOverlap ((a ++ ['\n']) ++ (i ++ ['*', '\n'])) := by
        simpa using h.hasNoOverlap
      exact hrun a hprefix.of_append ha l hl
    · have hstar : '\n' ∉ i ++ ['*'] := by simpa using hnewline
      rw [lines_of_notMem hstar, List.mem_singleton] at hl
      rw [hl, trimStart_append_of_blank hi]
      exact ⟨breaksHere_cons_of_not_indent rfl _, trivial⟩
  · exact hrun b h.hasNoOverlap hends

/-! ### The normal form of a normal form -/

/-- Blanks at the end make no difference. -/
theorem unbroken_append_of_blank {e : Text} (he : Text.isBlank e = true) (q : Text) :
    Unbroken ['\n'] (q ++ e) ↔ Unbroken ['\n'] q := by
  have hblank : Unbroken ['\n'] e := by
    induction e with
    | nil => trivial
    | cons c e ih =>
      obtain ⟨-, he⟩ := Bool.and_eq_true_iff.mp he
      refine ⟨breaksHere_cons_of_head ?_ c, ih he⟩
      have hstar : '*' ∉ e ++ ['\n'] := by simpa using notMem_of_isBlank he (c := '*') rfl
      exact fun hhead => hstar (List.mem_of_mem_head? hhead)
  rw [unbroken_append]
  cases e with
  | nil => exact ⟨And.left, fun h => ⟨h, trivial⟩⟩
  | cons c e =>
    have hc := (Bool.and_eq_true_iff.mp he).1
    exact ⟨fun h => h.1.of_blank hc rfl, fun h => ⟨h.of_blank rfl hc, hblank⟩⟩

/-- The text between the markers of a normal form has no break. -/
theorem BreaksOnce.exists_normalForm {b : Text} (h : BreaksOnce b) : ∃ m,
    normalForm ("/**".toList ++ b ++ "*/".toList) =
        "/**".toList ++ ('\n' :: ('*' :: m ++ ['\n'])) ++ "*/".toList ∧
      trimmedLines ('*' :: m) = trimmedLines ('*' :: breakStars b) ∧
      breakStars ('*' :: m ++ ['\n']) = '*' :: m ++ ['\n'] := by
  obtain ⟨m, hm, hlines, hflush⟩ := normalForm_eq b
  refine ⟨m, by rw [hm]; simp, hlines, breakStars_of_unbroken ?_⟩
  have hunbroken : ∀ k ∈ lines ('*' :: m), Unbroken ['\n'] k := by
    intro k hk
    by_cases hblank : Text.isBlank k = true
    · rw [← hflush k hk, trimStart_eq_nil_iff.mpr hblank]
      trivial
    · -- trimmed, the line is one of the lines that breaking left
      have hmem : trim k ∈ trimmedLines ('*' :: m) :=
        List.mem_filter.mpr ⟨List.mem_map_of_mem hk, by simpa [trim_eq_nil_iff] using hblank⟩
      rw [hlines] at hmem
      obtain ⟨l, hl, htrim⟩ := List.mem_map.mp (List.mem_filter.mp hmem).1
      obtain ⟨e, he, hle⟩ := exists_trimEnd_append (trimStart l)
      obtain ⟨e', he', hke⟩ := exists_trimEnd_append (trimStart k)
      have hl' := h.unbroken l hl
      rw [hle, unbroken_append_of_blank he] at hl'
      have htrim : trimEnd (trimStart l) = trimEnd (trimStart k) := htrim
      rw [← hflush k hk, hke, unbroken_append_of_blank he', ← htrim]
      exact hl'
  have hjoined : unlines (lines ('*' :: m)) = '*' :: m := by
    rw [lines, unlines, List.intercalate_splitOn]
  rw [unbroken_append, ← hjoined]
  exact ⟨unbroken_unlines hunbroken, breaksHere_cons_of_head (by decide) _, trivial⟩

/-- A second time, the opening marker leaves a star behind. -/
theorem BreaksOnce.sectionsOf_normalForm_normalForm {b : Text} (h : BreaksOnce b) :
    sectionsOf (normalForm (normalForm ("/**".toList ++ b ++ "*/".toList))) =
      sections (.between true)
        ((trimmedLines ('*' :: breakStars b)).map Line.ofText ++ [.words [] true]) := by
  obtain ⟨m, hm, hlines, hbreak⟩ := h.exists_normalForm
  have hbroken : '*' :: breakStars ('\n' :: ('*' :: m ++ ['\n'])) =
      ['*'] ++ '\n' :: ('*' :: m ++ ['\n']) := by
    rw [breakStars_cons_of_not_indent rfl, hbreak]
    rfl
  have hgap : Line.ofText ['*'] = .gap := by decide
  have hstar : trimmedLines ['*'] = [['*']] := rfl
  rw [hm, sectionsOf_normalForm, hbroken, trimmedLines_append, trimmedLines_append_of_blank rfl,
    hlines, hstar, List.singleton_append, List.map_cons, hgap, List.cons_append, sections]

/-- A gap before a line makes no difference, unless the line has blank words. -/
theorem sections_between_true {l : Line} (h : ∀ t closes, l = .words t closes → Text.isBlank t = false)
    (ls : List Line) : sections (.between true) (l :: ls) = sections (.between false) (l :: ls) := by
  cases l with
  | gap => rfl
  | tag name inline => rfl
  | words t closes =>
    have ht := h t closes rfl
    simp [sections, ht]

/-- A line that begins with the star of the marker and does not close the comment says something. -/
theorem isBlank_words_star {u t : Text} {closes : Bool} (hu : ¬"*/".toList <:+: '*' :: u)
    (h : Line.ofText ('*' :: u) = .words t closes) : Text.isBlank t = false := by
  have hopen : after? "/**".toList ('*' :: u) = none := rfl
  have hclose : before? "*/".toList ('*' :: u) = none := by
    refine Option.eq_none_iff_forall_ne_some.mpr fun v hv => ?_
    rw [before?_eq_some_iff] at hv
    exact hu (hv ▸ (List.suffix_append v _).isInfix)
  unfold Line.ofText at h
  rw [List.erase_cons_head] at h
  split at h
  · cases h
  · next hblank =>
    split at h
    · cases h
    · obtain ⟨rfl, -⟩ := Line.words.inj h
      rw [stripMarkers, hopen, Option.getD_none, hclose, Option.getD_none]
      refine isBlank_unescape (by decide) ?_
      cases u with
      | nil => exact absurd rfl hblank
      | cons d u =>
        by_cases hd : d = ' '
        · subst hd
          simpa [Text.isBlank, DocComment.isBlank] using hblank
        · simpa [hd] using hblank

/-- The first line of a body begins with the star of the marker. -/
theorem exists_trimmedLines_star (t : Text) : ∃ u ls, trimmedLines ('*' :: t) = ('*' :: u) :: ls :=
  exists_trimmedLines_append (w := ['*']) rfl (by decide) (by decide) t

/-- What closes a comment stands at its end alone, unless the comment begins with an empty one. -/
theorem not_closing_infix_body {c : Char} {b : Text} (hb : ¬"*/".toList <:+: b)
    (hempty : ¬"/**/".toList <+: "/**".toList ++ c :: b)
    (hempty' : ¬"/***/".toList <+: "/**".toList ++ c :: b) : ¬"*/".toList <:+: '*' :: c :: b := by
  intro h
  rcases List.infix_cons_iff.mp h with h | h
  · refine hempty ?_
    simpa [List.cons_prefix_cons] using h
  · rcases List.infix_cons_iff.mp h with h | h
    · refine hempty' ?_
      simpa [List.cons_prefix_cons] using h
    · exact hb h

/-- **Normalizing again changes nothing** that a comment says, if its stars break once and for all:
a comment rebuilt from its own normal form has the same entries. -/
theorem segment_normalize_normalize {text comment : String} (hcomment : comment ∈ comments text)
    (hempty : ¬"/**/".toList <+: comment.toList) (hempty' : ¬"/***/".toList <+: comment.toList)
    (honce : BreaksOnce (bodyOf comment.toList)) :
    segment (normalize (normalize comment)) = segment (normalize comment) := by
  obtain ⟨c, b, hb, hclosing⟩ := isComment_of_mem_comments hcomment
  have hbody : comment.toList = "/**".toList ++ c :: b ++ "*/".toList := by simpa using hb
  rw [hbody] at hempty hempty'
  rw [hbody, bodyOf_append] at honce
  have hinfix : ¬"*/".toList <:+: '*' :: breakStars (c :: b) := by
    have hsource := not_closing_infix_body hclosing
      (fun h => hempty (h.trans (List.prefix_append _ _)))
      fun h => hempty' (h.trans (List.prefix_append _ _))
    exact fun h => hsource (closing_infix_cons_of_breakStars h)
  obtain ⟨u, ls, hlines⟩ := exists_trimmedLines_star (breakStars (c :: b))
  have hfirst : ¬"*/".toList <:+: '*' :: u := fun h =>
    hinfix (h.trans (infix_of_mem_trimmedLines (hlines ▸ List.mem_cons_self)))
  rw [segment, segment, normalize, normalize, String.toList_ofList, String.toList_ofList, hbody,
    honce.sectionsOf_normalForm_normalForm, sectionsOf_normalForm, hlines, List.map_cons,
    List.cons_append, sections_between_true fun t closes ht => isBlank_words_star hfirst ht]

/-- A comment whose closing marker has one star more. -/
def starredSample : String := "/**\n * @name x\n *\n * - one * two\n **/"

theorem segment_normalize_normalize_sample :
    segment (normalize (normalize starredSample)) = segment (normalize starredSample) := by
  have hmem : starredSample ∈ comments starredSample := by
    rw [show comments starredSample = [starredSample] by decide +kernel]
    exact List.mem_singleton_self starredSample
  have hoverlap : ∀ u ∈ (bodyOf starredSample.toList ++ ['\n']).tails, overlapsHere u = false := by
    decide +kernel
  have honce : BreaksOnce (bodyOf starredSample.toList) :=
    ⟨hoverlap, fun _ => ⟨"\n * @name x\n *\n * - one * two".toList, [' '], by decide +kernel,
      ⟨rfl, by decide⟩, not_endsInStar_of_getLast? (by decide +kernel)⟩⟩
  exact segment_normalize_normalize hmem (by decide +kernel) (by decide +kernel) honce

/-- The breaks of a bulleted list overlap in its normal form, so the bullets are lost in the second
one. -/
theorem not_forall_segment_normalize :
    ¬∀ text comment : String, comment ∈ comments text →
      segment (normalize (normalize comment)) = segment (normalize comment) := by
  intro h
  have hmem : "/**\n * Steps:\n * * one\n * * two\n */" ∈
      comments "/**\n * Steps:\n * * one\n * * two\n */" := by decide +kernel
  exact absurd (h _ _ hmem) (by decide +kernel)

end DocComment.Comment
