/-
Comments at another indentation.

Two texts are the same but for their indentation if they have the same first line and their other
lines, without the spaces and tabs in front, are the same (`SameButIndent`).  What breaks a line at
its stars looks at the blanks around the star, so indentation can matter: an indented star is taken
together with the blank behind it, and an unindented one is not.

* `trimmedLines_breakStars_cut` — a text is read line by line, unless a break at the end of a line
  takes the newline with it and the next line has no break of its own;
* `trimmedLines_breakStars_dropIndent` — a line is read as if it were not indented, unless the break
  at its star takes something with it that was more than one space;
* `entries_eq_of_sameButIndent` puts this together, for bodies that break cleanly;
* `not_forall_sameButIndent` — a lone star that is indented and a line behind it that is not become
  one line.
-/
import DocComment.Proofs.Comment.Extraction
import DocComment.Proofs.Comment.Normal

namespace DocComment.Comment

open Text

/-! ### Indentation -/

def dropIndent (l : Text) : Text := l.dropWhile isIndent

/-- The texts differ at most in the spaces and tabs at the start of their lines, the first line
excepted. -/
structure SameButIndent (t t' : Text) : Prop where
  head_eq : (lines t).head? = (lines t').head?
  tail_eq : (lines t).tail.map dropIndent = (lines t').tail.map dropIndent

/-- A star starts the text and a blank follows it, or nothing. -/
def startsWithStar : Text → Bool
  | ['*'] => true
  | '*' :: s :: _ => DocComment.isBlank s
  | _ => false

/-- If a break is taken at the start of the line, it takes one space with it, and no second star
stands behind that space; or nothing but blanks follows. -/
def breaksAtOneSpace (l : Text) : Bool :=
  match l.takeWhile isIndent, dropIndent l with
  | _ :: _, '*' :: s :: r =>
    !DocComment.isBlank s || Text.isBlank r || (s == ' ' && !startsWithStar r)
  | _, _ => true

/-- If the text starts with a break that takes a newline, what follows starts with an empty line
once it is broken. -/
def breaksApart : Text → Bool
  | x :: '*' :: '\n' :: z =>
    !isIndent x || Text.isBlank ((breakStars z).takeWhile (· ≠ '\n'))
  | _ => true

/-- No break in the body takes anything with it that a reader would miss. -/
structure BreaksCleanly (b : Text) : Prop where
  line : ∀ l ∈ (lines b).tail, breaksAtOneSpace l = true
  seam : ∀ u ∈ b.tails, breaksApart u = true

instance (b : Text) : Decidable (BreaksCleanly b) :=
  decidable_of_iff
    ((∀ l ∈ (lines b).tail, breaksAtOneSpace l = true) ∧ ∀ u ∈ b.tails, breaksApart u = true)
    ⟨fun h => ⟨h.1, h.2⟩, fun h => ⟨h.line, h.seam⟩⟩

/-! ### One line after the other -/

/-- A line either breaks by itself or ends in a star whose break takes the newline. -/
theorem exists_breakStars_newline (k : Text) : ∃ y,
    (∀ z, breakStars (k ++ '\n' :: z) = y ++ '\n' :: breakStars z) ∨
      (EndsInStar k ∧
        ∀ z, breakStars (k ++ '\n' :: z) = y ++ ("\n * ".toList ++ breakStars z)) := by
  fun_induction breakStars k with
  | case1 a b t h ih =>
    obtain ⟨ha, hb⟩ := Bool.and_eq_true_iff.mp h
    have hstar : ∀ z, breakStars (a :: '*' :: b :: t ++ '\n' :: z) =
        "\n * ".toList ++ breakStars (t ++ '\n' :: z) := fun z => breakStars_star ha hb _
    obtain ⟨y, hy | ⟨⟨u, x, rfl, hx⟩, hy⟩⟩ := ih
    · refine ⟨"\n * ".toList ++ y, Or.inl fun z => ?_⟩
      rw [hstar, hy, List.append_assoc]
    · refine ⟨"\n * ".toList ++ y, Or.inr ⟨⟨a :: '*' :: b :: u, x, rfl, hx⟩, fun z => ?_⟩⟩
      rw [hstar, hy, List.append_assoc]
  | case2 a b t h ih =>
    have hcons : ∀ z, breakStars (a :: '*' :: b :: t ++ '\n' :: z) =
        a :: breakStars ('*' :: b :: t ++ '\n' :: z) := by
      intro z
      rw [List.cons_append, List.cons_append, List.cons_append, breakStars, if_neg h]
    obtain ⟨y, hy | ⟨⟨u, x, hu, hx⟩, hy⟩⟩ := ih
    · refine ⟨a :: y, Or.inl fun z => ?_⟩
      rw [hcons, hy, List.cons_append]
    · refine ⟨a :: y, Or.inr ⟨⟨a :: u, x, by rw [hu]; rfl, hx⟩, fun z => ?_⟩⟩
      rw [hcons, hy, List.cons_append]
  | case3 c t h ih =>
    by_cases hstar : t = ['*'] ∧ isIndent c = true
    · obtain ⟨rfl, hc⟩ := hstar
      exact ⟨[], Or.inr ⟨⟨[], c, rfl, hc⟩, fun z => breakStars_star hc rfl z⟩⟩
    · have hcons : ∀ z, breakStars (c :: t ++ '\n' :: z) = c :: breakStars (t ++ '\n' :: z) := by
        refine fun z => breakStars_cons fun b u hu hcb => ?_
        rcases eq_nil_or_star_of_append h hu with ⟨-, hu⟩ | ⟨ht, -⟩
        · exact absurd (List.cons.inj hu).1 (by decide)
        · exact hstar ⟨ht, hcb.1⟩
      obtain ⟨y, hy | ⟨⟨u, x, rfl, hx⟩, hy⟩⟩ := ih
      · refine ⟨c :: y, Or.inl fun z => ?_⟩
        rw [hcons, hy, List.cons_append]
      · refine ⟨c :: y, Or.inr ⟨⟨c :: u, x, rfl, hx⟩, fun z => ?_⟩⟩
        rw [hcons, hy, List.cons_append]
  | case4 => exact ⟨[], Or.inl fun z => breakStars_cons_of_not_indent rfl z⟩

/-- Behind a break, what starts with an empty line is read as it is by itself. -/
theorem trimmedLines_star_append {t : Text} (h : Text.isBlank (t.takeWhile (· ≠ '\n')) = true) :
    trimmedLines (" * ".toList ++ t) = "*".toList :: trimmedLines t := by
  have hcut : t.takeWhile (· ≠ '\n') ++ t.dropWhile (· ≠ '\n') = t :=
    List.takeWhile_append_dropWhile
  cases hrest : t.dropWhile (· ≠ '\n') with
  | nil =>
    rw [hrest, List.append_nil] at hcut
    rw [hcut] at h
    rw [trimmedLines_append_of_blank h, trimmedLines_of_blank h]
    rfl
  | cons c rest =>
    obtain rfl : c = '\n' := by
      have hhead := List.head?_dropWhile_not (fun c => decide (c ≠ '\n')) t
      rw [hrest] at hhead
      simpa using hhead
    rw [← hcut, hrest, ← List.append_assoc, trimmedLines_append, trimmedLines_append,
      trimmedLines_append_of_blank h, trimmedLines_of_blank h]
    rfl

/-- A line is read by itself, with its newline. -/
theorem trimmedLines_breakStars_cut {k z : Text}
    (hz : EndsInStar k → Text.isBlank ((breakStars z).takeWhile (· ≠ '\n')) = true) (p : Text) :
    trimmedLines (p ++ breakStars (k ++ '\n' :: z)) =
      trimmedLines (p ++ breakStars (k ++ ['\n'])) ++ trimmedLines (breakStars z) := by
  obtain ⟨y, hy | ⟨hk, hy⟩⟩ := exists_breakStars_newline k
  · have hnil : trimmedLines (breakStars []) = [] := rfl
    rw [hy, hy, ← List.append_assoc, ← List.append_assoc, trimmedLines_append, trimmedLines_append,
      hnil, List.append_nil]
  · have hcut : ∀ t, trimmedLines (p ++ (y ++ ("\n * ".toList ++ t))) =
        trimmedLines (p ++ y) ++ trimmedLines (" * ".toList ++ t) := by
      intro t
      rw [← List.append_assoc]
      exact trimmedLines_append (p ++ y) (" * ".toList ++ t)
    rw [hy, hy, hcut, hcut, trimmedLines_star_append (hz hk), List.append_assoc]
    rfl

/-- Whether the star is taken for a break or stays makes no difference to a reader. -/
theorem trimmedLines_star_blank {s : Char} {r e : Text} (hs : DocComment.isBlank s = true)
    (hr : Text.isBlank r = true ∨ s = ' ' ∧ startsWithStar r = false)
    (he : Text.isBlank e = true) :
    trimmedLines ("* ".toList ++ breakStars (r ++ e)) =
      trimmedLines ('*' :: breakStars (s :: (r ++ e))) := by
  rcases hr with hr | ⟨rfl, hr⟩
  · have hblank : Text.isBlank (r ++ e) = true := by rw [isBlank_append, hr, he]; rfl
    have hblank' : Text.isBlank (s :: (r ++ e)) = true := by
      rw [Text.isBlank, List.all_cons, hs]
      exact hblank
    rw [breakStars_of_notMem (notMem_of_isBlank hblank rfl),
      breakStars_of_notMem (notMem_of_isBlank hblank' rfl), trimmedLines_append_of_blank hblank]
    exact (trimmedLines_append_of_blank hblank' ['*']).symm
  · have hcons : breakStars (' ' :: (r ++ e)) = ' ' :: breakStars (r ++ e) := by
      refine breakStars_cons fun b u hu hb => ?_
      have hnot : ∀ b u, r = '*' :: b :: u → DocComment.isBlank b = false := by
        rintro b u rfl
        exact hr
      rcases r with _ | ⟨d, _ | ⟨b', r⟩⟩
      · exact notMem_of_isBlank he (c := '*') rfl (by rw [← List.nil_append e, hu]; simp)
      · obtain rfl : d = '*' := (List.cons.inj hu).1
        cases hr
      · obtain ⟨rfl, htail⟩ := List.cons.inj hu
        obtain rfl : b' = b := (List.cons.inj htail).1
        exact Bool.false_ne_true ((hnot b' r rfl).symm.trans hb.2)
    rw [hcons]
    rfl

/-- A star that starts the line is read as it is without the space or tab before it. -/
theorem trimmedLines_breakStars_indent_star {x : Char} {r e : Text} (hx : isIndent x = true)
    (hr : ∀ s t, r = s :: t → DocComment.isBlank s = true →
      Text.isBlank t = true ∨ s = ' ' ∧ startsWithStar t = false)
    (he : Text.isBlank e = true) :
    trimmedLines (breakStars (x :: '*' :: (r ++ e))) =
      trimmedLines (breakStars ('*' :: (r ++ e))) := by
  have hxblank := isBlank_of_isIndent hx
  have hbreak : ∀ s t, DocComment.isBlank s = true →
      trimmedLines (breakStars (x :: '*' :: s :: t)) =
        trimmedLines ("* ".toList ++ breakStars t) := by
    intro s t hs
    rw [breakStars_star hx hs]
    exact trimmedLines_of_blank_append (b := "\n ".toList) rfl ("* ".toList ++ breakStars t)
  cases r with
  | nil =>
    cases e with
    | nil => exact trimmedLines_cons_of_blank hxblank ['*']
    | cons s e =>
      obtain ⟨hs, he⟩ := Bool.and_eq_true_iff.mp he
      have hstar := trimmedLines_star_blank (r := []) hs (Or.inl rfl) he
      rw [List.nil_append, hbreak s e hs, breakStars_cons_of_not_indent rfl]
      exact hstar
  | cons s t =>
    by_cases hs : DocComment.isBlank s = true
    · rw [List.cons_append, hbreak s (t ++ e) hs, breakStars_cons_of_not_indent rfl,
        trimmedLines_star_blank hs (hr s t rfl hs) he]
    · have hcons : breakStars (x :: '*' :: (s :: t ++ e)) =
          x :: breakStars ('*' :: (s :: t ++ e)) := by
        refine breakStars_cons fun b u hu hb => hs ?_
        rw [(List.cons.inj (List.cons.inj hu).2).1]
        exact hb.2
      rw [hcons, trimmedLines_cons_of_blank hxblank]

/-- A line is read as if it were not indented. -/
theorem trimmedLines_breakStars_dropIndent {k e : Text} (hk : breaksAtOneSpace k = true)
    (he : Text.isBlank e = true) :
    trimmedLines (breakStars (k ++ e)) = trimmedLines (breakStars (dropIndent k ++ e)) := by
  have hcut : k.takeWhile isIndent ++ dropIndent k = k := List.takeWhile_append_dropWhile
  have hindent : ∀ c ∈ k.takeWhile isIndent, isIndent c = true :=
    List.all_eq_true.mp List.all_takeWhile
  unfold breaksAtOneSpace at hk
  generalize k.takeWhile isIndent = i, dropIndent k = r at hk hcut hindent ⊢
  subst hcut
  have hblank : Text.isBlank i = true := isBlank_of_forall_isIndent hindent
  by_cases hr : (r ++ e).head? = some '*'
  · obtain ⟨t, rfl⟩ : ∃ t, r = '*' :: t := by
      cases r with
      | nil => exact absurd (List.mem_of_mem_head? hr) (notMem_of_isBlank he rfl)
      | cons c t => exact ⟨t, by rw [Option.some.inj hr]⟩
    obtain rfl | ⟨i, x, rfl⟩ := List.eq_nil_or_concat i
    · rfl
    · -- the star stands behind a space or a tab
      have hx : isIndent x = true := hindent x (by simp)
      have hi : Text.isBlank i = true := by
        rw [List.concat_eq_append, isBlank_append, Bool.and_eq_true] at hblank
        exact hblank.1
      have hhead : (x :: '*' :: (t ++ e)).head? ≠ some '*' := by
        rintro ⟨⟩
        cases hx
      have htext : i.concat x ++ '*' :: t ++ e = i ++ x :: '*' :: (t ++ e) := by simp
      rw [htext, breakStars_append_of_notMem (notMem_of_isBlank hi rfl) hhead,
        trimmedLines_of_blank_append hi]
      refine trimmedLines_breakStars_indent_star hx (fun s u ht hs => ?_) he
      obtain ⟨c, v, hv⟩ : ∃ c v, i.concat x = c :: v :=
        List.exists_cons_of_ne_nil (by simp)
      rw [ht, hv] at hk
      simpa [hs] using hk
  · rw [List.append_assoc, breakStars_append_of_notMem (notMem_of_isBlank hblank rfl) hr,
      trimmedLines_of_blank_append hblank]

theorem mem_tails_of_suffix {u t t' : Text} (hu : u ∈ t.tails) (h : t <:+ t') : u ∈ t'.tails :=
  (List.mem_tails _ _).mpr (((List.mem_tails _ _).mp hu).trans h)

theorem isBlank_of_breaksApart {k z : Text} (hk : EndsInStar k)
    (h : ∀ u ∈ (k ++ '\n' :: z).tails, breaksApart u = true) :
    Text.isBlank ((breakStars z).takeWhile (· ≠ '\n')) = true := by
  obtain ⟨a, x, rfl, hx⟩ := hk
  have hu := h (x :: '*' :: '\n' :: z) ((List.mem_tails _ _).mpr ⟨a, by simp⟩)
  simpa [breaksApart, hx] using hu

/-- What a reader sees of lines that are broken one by one. -/
def readLines : List Text → List Text
  | [] => []
  | [k] => trimmedLines (breakStars k)
  | k :: ks => trimmedLines (breakStars (k ++ ['\n'])) ++ readLines ks

theorem trimmedLines_breakStars_unlines {ks : List Text} (hne : ks ≠ [])
    (hline : ∀ k ∈ ks, breaksAtOneSpace k = true)
    (hseam : ∀ u ∈ (unlines ks).tails, breaksApart u = true) :
    trimmedLines (breakStars (unlines ks)) = readLines (ks.map dropIndent) := by
  induction ks with
  | nil => exact absurd rfl hne
  | cons k ks ih =>
    have hk := hline k List.mem_cons_self
    by_cases hks : ks = []
    · have hread := trimmedLines_breakStars_dropIndent hk (e := []) rfl
      rw [List.append_nil, List.append_nil] at hread
      rw [hks, unlines_singleton, hread]
      rfl
    · obtain ⟨l, ls, rfl⟩ := List.exists_cons_of_ne_nil hks
      have hsuffix : unlines (l :: ls) <:+ unlines (k :: l :: ls) := by
        rw [unlines_cons hks]
        exact (List.suffix_cons _ _).trans (List.suffix_append _ _)
      have htail := ih hks (fun k hk => hline k (List.mem_cons_of_mem _ hk)) fun u hu =>
        hseam u (mem_tails_of_suffix hu hsuffix)
      rw [unlines_cons hks] at hseam
      have hcut := trimmedLines_breakStars_cut (fun hstar => isBlank_of_breaksApart hstar hseam) []
      rw [List.nil_append, List.nil_append, trimmedLines_breakStars_dropIndent (e := ['\n']) hk rfl,
        htail] at hcut
      rw [unlines_cons hks, hcut]
      rfl

/-- What a reader sees of a body, given its first line and the others. -/
theorem trimmedLines_body {b k : Text} {ks : List Text} (hlines : lines b = k :: ks)
    (h : BreaksCleanly b) :
    trimmedLines ('*' :: breakStars b) =
      if ks = [] then trimmedLines ('*' :: breakStars k)
      else trimmedLines ('*' :: breakStars (k ++ ['\n'])) ++ readLines (ks.map dropIndent) := by
  have hb : b = unlines (k :: ks) := by
    rw [← hlines, lines, unlines, List.intercalate_splitOn]
  by_cases hks : ks = []
  · rw [if_pos hks, hb, hks, unlines_singleton]
  · rw [if_neg hks]
    rw [unlines_cons hks] at hb
    have hline : ∀ l ∈ ks, breaksAtOneSpace l = true := by
      intro l hl
      refine h.line l ?_
      rw [hlines]
      exact hl
    have hseam : ∀ u ∈ (unlines ks).tails, breaksApart u = true := fun u hu =>
      h.seam u (hb ▸ mem_tails_of_suffix hu
        ((List.suffix_cons _ _).trans (List.suffix_append _ _)))
    have hapart : EndsInStar k →
        Text.isBlank ((breakStars (unlines ks)).takeWhile (· ≠ '\n')) = true :=
      fun hk => isBlank_of_breaksApart hk (hb ▸ h.seam)
    have hcut := trimmedLines_breakStars_cut hapart ['*']
    rw [← hb, trimmedLines_breakStars_unlines hks hline hseam] at hcut
    exact hcut

theorem trimmedLines_eq_of_sameButIndent {b b' : Text} (h : SameButIndent b b')
    (hb : BreaksCleanly b) (hb' : BreaksCleanly b') :
    trimmedLines ('*' :: breakStars b) = trimmedLines ('*' :: breakStars b') := by
  obtain ⟨k, ks, hk⟩ := List.exists_cons_of_ne_nil (lines_ne_nil b)
  obtain ⟨k', ks', hk'⟩ := List.exists_cons_of_ne_nil (lines_ne_nil b')
  obtain ⟨hhead, htail⟩ := h
  rw [hk, hk'] at hhead htail
  obtain rfl : k = k' := Option.some.inj hhead
  have hnil : ks = [] ↔ ks' = [] := by
    rw [← List.map_eq_nil_iff (f := dropIndent), ← List.map_eq_nil_iff (f := dropIndent) (l := ks')]
    exact htail ▸ Iff.rfl
  have htail : ks.map dropIndent = ks'.map dropIndent := htail
  rw [trimmedLines_body hk hb, trimmedLines_body hk' hb', htail]
  exact if_congr hnil rfl rfl

/-! ### Comments -/

theorem lines_append_of_notMem {s : Text} (hs : '\n' ∉ s) (r : Text) :
    ∃ ls w, lines r = ls ++ [w] ∧ lines (r ++ s) = ls ++ [w ++ s] := by
  obtain hr | ⟨a, z, rfl, hz⟩ := notMem_or_exists_last_line r
  · exact ⟨[], r, lines_of_notMem hr, lines_of_notMem (by simp [hr, hs])⟩
  · refine ⟨lines a, z, by rw [lines_append, lines_of_notMem hz], ?_⟩
    have hzs : '\n' ∉ z ++ s := by simp [hz, hs]
    rw [List.append_assoc, List.cons_append, lines_append, lines_of_notMem hzs]

theorem dropIndent_append_closing (w : Text) :
    dropIndent (w ++ "*/".toList) = dropIndent w ++ "*/".toList := by
  induction w with
  | nil => rfl
  | cons c w ih =>
    by_cases hc : isIndent c = true
    · simpa [dropIndent, hc] using ih
    · simp [dropIndent, hc]

/-- What is the same as a comment but for its indentation has the markers, and its body is the same
as the comment's but for its indentation. -/
theorem SameButIndent.exists_body {b c : Text}
    (h : SameButIndent ("/**".toList ++ b ++ "*/".toList) c) :
    ∃ b', c = "/**".toList ++ b' ++ "*/".toList ∧ SameButIndent b b' := by
  have hunlines : unlines (lines c) = c := by rw [lines, unlines, List.intercalate_splitOn]
  obtain ⟨k, ks, hk⟩ := List.exists_cons_of_ne_nil (lines_ne_nil c)
  obtain ⟨hhead, htail⟩ := h
  rw [hk] at hhead htail
  obtain hb | ⟨a, r, rfl, ha⟩ := notMem_or_exists_first_line b
  · -- one line, which is not indented anew
    have hmarked : '\n' ∉ "/**".toList ++ b ++ "*/".toList := by simp [hb]
    rw [lines_of_notMem hmarked] at hhead htail
    obtain rfl : ks = [] := List.map_eq_nil_iff.mp htail.symm
    rw [hk, unlines_singleton] at hunlines
    exact ⟨b, by rw [← hunlines, ← Option.some.inj hhead], rfl, rfl⟩
  · obtain ⟨ls, w, hlines, hclosing⟩ := lines_append_of_notMem (s := "*/".toList) (by simp) r
    have hmarked : '\n' ∉ "/**".toList ++ a := by simp [ha]
    have htext : "/**".toList ++ (a ++ '\n' :: r) ++ "*/".toList =
        ("/**".toList ++ a) ++ '\n' :: (r ++ "*/".toList) := by simp
    rw [htext, lines_append, lines_of_notMem hmarked, hclosing] at hhead htail
    obtain rfl : "/**".toList ++ a = k := Option.some.inj hhead
    have htail : ks.map dropIndent = ls.map dropIndent ++ [dropIndent w ++ "*/".toList] := by
      rw [← dropIndent_append_closing, ← List.map_singleton, ← List.map_append]
      exact htail.symm
    -- the last line of `c` ends in the closing marker as well
    obtain ⟨ls', zs, rfl, hls, hzs⟩ := List.map_eq_append_iff.mp htail
    obtain ⟨z, rfl, hz⟩ := List.map_eq_singleton_iff.mp hzs
    have hcut : z.takeWhile isIndent ++ dropIndent z = z := List.takeWhile_append_dropWhile
    rw [hz, ← List.append_assoc] at hcut
    generalize z.takeWhile isIndent ++ dropIndent w = v at hcut
    have hc : c = "/**".toList ++ (a ++ '\n' :: unlines (ls' ++ [v])) ++ "*/".toList := by
      rw [← hunlines, hk, unlines_cons (by simp), ← hcut, unlines_concat_append]
      simp
    refine ⟨_, hc, ?_⟩
    generalize unlines (ls' ++ [v]) = r' at hc
    obtain ⟨ls₁, w', hlines', hclosing'⟩ :=
      lines_append_of_notMem (s := "*/".toList) (by simp) r'
    have htext' : "/**".toList ++ (a ++ '\n' :: r') ++ "*/".toList =
        ("/**".toList ++ a) ++ '\n' :: (r' ++ "*/".toList) := by simp
    rw [hc, htext', lines_append, lines_of_notMem hmarked, hclosing'] at hk
    have hsplit : ls₁ ++ [w' ++ "*/".toList] = ls' ++ [z] := (List.cons.inj hk).2
    obtain ⟨rfl, hlast⟩ := List.append_inj' hsplit rfl
    have hw : dropIndent w = dropIndent w' := by
      rw [← (List.cons.inj hlast).1, dropIndent_append_closing] at hz
      exact (List.append_cancel_right hz).symm
    constructor
    · rw [lines_append, lines_append, lines_of_notMem ha]
      rfl
    · rw [lines_append, lines_append, lines_of_notMem ha, hlines, hlines']
      show (ls ++ [w]).map dropIndent = (ls₁ ++ [w']).map dropIndent
      rw [List.map_append, List.map_append, hls, List.map_singleton, List.map_singleton, hw]

/-- **Indentation does not matter** where the stars break cleanly, before and after: a comment and a
text that differs from it only in the indentation of its lines have the same entries. -/
theorem entries_eq_of_sameButIndent {text comment comment' : String}
    (hcomment : comment ∈ comments text)
    (h : SameButIndent comment.toList comment'.toList)
    (hclean : BreaksCleanly (bodyOf comment.toList))
    (hclean' : BreaksCleanly (bodyOf comment'.toList)) : entries comment' = entries comment := by
  obtain ⟨c, b, hb, -⟩ := isComment_of_mem_comments hcomment
  have hbody : comment.toList = "/**".toList ++ c :: b ++ "*/".toList := by simpa using hb
  rw [hbody] at h hclean
  obtain ⟨b', hbody', hsame⟩ := h.exists_body
  rw [hbody', bodyOf_append] at hclean'
  rw [bodyOf_append] at hclean
  have hlines := trimmedLines_eq_of_sameButIndent hsame hclean hclean'
  rw [entries, entries, segment, segment, normalize, normalize, String.toList_ofList,
    String.toList_ofList, hbody, hbody', sectionsOf_normalForm, sectionsOf_normalForm, hlines]

/-- A comment with a lone star before its text. -/
def indented : String := "/**\n * @name x\n *\n * Text.\n */"

def unindented : String := "/**\n* @name x\n*\n* Text.\n*/"

theorem entries_eq_of_sameButIndent_sample :
    SameButIndent indented.toList unindented.toList ∧ entries unindented = entries indented := by
  have hmem : indented ∈ comments indented := by
    rw [show comments indented = [indented] by decide +kernel]
    exact List.mem_singleton_self indented
  have hsame : SameButIndent indented.toList unindented.toList :=
    ⟨by decide +kernel, by decide +kernel⟩
  exact ⟨hsame, entries_eq_of_sameButIndent hmem hsame (by decide +kernel) (by decide +kernel)⟩

/-- A lone star that is indented takes the next line with it, if that is not. -/
theorem not_forall_sameButIndent :
    ¬∀ text comment comment' : String, comment ∈ comments text →
      SameButIndent comment.toList comment'.toList → entries comment' = entries comment := by
  intro h
  have hmem : "/**\n* @name x\n *\n* Text.\n*/" ∈ comments "/**\n* @name x\n *\n* Text.\n*/" := by
    decide +kernel
  have hsame : SameButIndent "/**\n* @name x\n *\n* Text.\n*/".toList unindented.toList :=
    ⟨by decide +kernel, by decide +kernel⟩
  exact absurd (h _ _ _ hmem hsame) (by decide +kernel)

end DocComment.Comment
