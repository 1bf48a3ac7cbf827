/-
Properly nested brackets, and cuts outside of them.

`IsNested` says what proper nesting is without counting: a bracket, a nested text, the bracket that
closes it, and so on.  Reading goes along a nested text as if it were not there, so:

* `isBalanced_iff` — the check with a stack accepts the nested texts and no others;
* `isNested_append_iff` — a nested text may be added and taken away at the end;
* `isNested_of_mem_splitTop`, `isNested_of_forall_splitTop` — a text is nested exactly when its
  parts are;
* `splitTop_intercalate` — parts in which nothing is cut come back from the joined text;
* `splitTop_keeps_nesting` — an expression in braces is read exactly if it is nested, and its parts,
  which are nested and in which nothing more is cut, are the expression again when they are joined.
-/
import DocComment.Proofs.Text.Trim
import DocComment.TypeExpr

namespace DocComment.TypeExpr

/-! ### Nesting -/

theorem isOpening_openingOf (c : Char) : isOpening (openingOf c) = true := by
  unfold openingOf
  split <;> rfl

theorem isOpening_eq_false_of_isClosing {c : Char} (h : isClosing c = true) :
    isOpening c = false := by
  simp only [isClosing, Bool.or_eq_true, beq_iff_eq] at h
  rcases h with ((rfl | rfl) | rfl) | rfl <;> rfl

/-- The brackets of the text are properly nested; other characters do not count. -/
inductive IsNested : Text → Prop where
  | nil : IsNested []
  | other {c : Char} {t : Text} (hopen : isOpening c = false) (hclose : isClosing c = false)
      (ht : IsNested t) : IsNested (c :: t)
  | pair {c : Char} {t u : Text} (hc : isClosing c = true) (ht : IsNested t) (hu : IsNested u) :
      IsNested (openingOf c :: (t ++ c :: u))

theorem nests_cons_opening {c : Char} (h : isOpening c = true) (stack t : Text) :
    nests stack (c :: t) = nests (c :: stack) t := by
  rw [nests.eq_def]
  simp only [h, if_true]

theorem nests_cons_closing {c : Char} (h : isClosing c = true) (b : Char) (stack t : Text) :
    nests (b :: stack) (c :: t) = (b == openingOf c && nests stack t) := by
  rw [nests, if_neg (by simp [isOpening_eq_false_of_isClosing h]), if_pos h]

theorem nests_cons_other {c : Char} (hopen : isOpening c = false) (hclose : isClosing c = false)
    (stack t : Text) : nests stack (c :: t) = nests stack t := by
  rw [nests.eq_def]
  simp only [hopen, hclose, Bool.false_eq_true, if_false]

/-- A nested text leaves the open brackets as they are. -/
theorem nests_append_of_isNested {t : Text} (h : IsNested t) (stack u : Text) :
    nests stack (t ++ u) = nests stack u := by
  induction h generalizing stack u with
  | nil => rfl
  | other hopen hclose ht ih => rw [List.cons_append, nests_cons_other hopen hclose, ih]
  | pair hc ht hu iht ihu =>
    -- the bracket is put on the stack, and what closes it finds it on top again
    rw [List.cons_append, nests_cons_opening (isOpening_openingOf _), List.append_assoc, iht,
      List.cons_append, nests_cons_closing hc, ihu, beq_self_eq_true, Bool.true_and]

theorem nests_of_isNested {t : Text} (h : IsNested t) (stack : Text) :
    nests stack t = stack.isEmpty := by
  rw [← List.append_nil t, nests_append_of_isNested h, nests]

/-- Behind an open bracket stands a nested text, and then what closes the bracket. -/
theorem exists_of_nests_cons {b : Char} {stack : Text} (t : Text)
    (h : nests (b :: stack) t = true) :
    ∃ u c v, t = u ++ c :: v ∧ IsNested u ∧ isClosing c = true ∧ openingOf c = b ∧
      nests stack v = true := by
  match t with
  | [] => cases h
  | c :: t =>
    by_cases hopen : isOpening c = true
    · -- the bracket that opens here is closed first
      rw [nests_cons_opening hopen] at h
      obtain ⟨u, d, v, rfl, hu, hd, rfl, hv⟩ := exists_of_nests_cons t h
      obtain ⟨u', d', v', rfl, hu', hd', hb, hv'⟩ := exists_of_nests_cons v hv
      exact ⟨openingOf d :: (u ++ d :: u'), d', v', by simp, .pair hd hu hu', hd', hb, hv'⟩
    · by_cases hclose : isClosing c = true
      · rw [nests_cons_closing hclose, Bool.and_eq_true, beq_iff_eq] at h
        exact ⟨[], c, t, rfl, .nil, hclose, h.1.symm, h.2⟩
      · rw [Bool.not_eq_true] at hopen hclose
        rw [nests_cons_other hopen hclose] at h
        obtain ⟨u, d, v, rfl, hu, hd⟩ := exists_of_nests_cons t h
        exact ⟨c :: u, d, v, rfl, .other hopen hclose hu, hd⟩
termination_by t.length
decreasing_by all_goals simp_all <;> omega

theorem isNested_of_nests_nil (t : Text) (h : nests [] t = true) : IsNested t := by
  match t with
  | [] => exact .nil
  | c :: t =>
    by_cases hopen : isOpening c = true
    · rw [nests_cons_opening hopen] at h
      obtain ⟨u, d, v, rfl, hu, hd, rfl, hv⟩ := exists_of_nests_cons t h
      exact .pair hd hu (isNested_of_nests_nil v hv)
    · by_cases hclose : isClosing c = true
      · rw [nests, if_neg hopen, if_pos hclose] at h
        cases h
      · rw [Bool.not_eq_true] at hopen hclose
        rw [nests_cons_other hopen hclose] at h
        exact .other hopen hclose (isNested_of_nests_nil t h)
termination_by t.length
decreasing_by all_goals simp_all <;> omega

theorem isBalanced_iff {t : Text} : isBalanced t = true ↔ IsNested t :=
  ⟨isNested_of_nests_nil t, fun h => nests_of_isNested h []⟩

instance (t : Text) : Decidable (IsNested t) := decidable_of_iff _ isBalanced_iff

theorem nests_append_of_isNested_right {u : Text} (hu : IsNested u) (stack t : Text) :
    nests stack (t ++ u) = nests stack t := by
  fun_induction nests stack t with
  | case1 stack => exact nests_of_isNested hu stack
  | case2 stack c t hopen ih => rw [List.cons_append, nests_cons_opening hopen, ih]
  | case3 c t hopen hclose b stack ih => rw [List.cons_append, nests_cons_closing hclose, ih]
  | case4 c t hopen hclose => rw [List.cons_append, nests, if_neg hopen, if_pos hclose]
  | case5 stack c t hopen hclose ih =>
    rw [Bool.not_eq_true] at hopen hclose
    rw [List.cons_append, nests_cons_other hopen hclose, ih]

theorem isNested_append_iff {u : Text} (hu : IsNested u) {t : Text} :
    IsNested (t ++ u) ↔ IsNested t := by
  rw [← isBalanced_iff, ← isBalanced_iff, isBalanced, isBalanced,
    nests_append_of_isNested_right hu]

theorem isNested_append_iff_right {t : Text} (ht : IsNested t) {u : Text} :
    IsNested (t ++ u) ↔ IsNested u := by
  rw [← isBalanced_iff, ← isBalanced_iff, isBalanced, isBalanced, nests_append_of_isNested ht]

theorem isNested_of_forall {t : Text}
    (h : ∀ c ∈ t, isOpening c = false ∧ isClosing c = false) : IsNested t := by
  induction t with
  | nil => exact .nil
  | cons c t ih =>
    obtain ⟨hc, ht⟩ := List.forall_mem_cons.mp h
    exact .other hc.1 hc.2 (ih ht)

/-- A text in brackets that match. -/
theorem IsNested.bracketed {t : Text} (h : IsNested t) {c : Char} (hc : isClosing c = true) :
    IsNested (openingOf c :: (t ++ [c])) :=
  .pair hc h .nil

theorem isNested_of_isBlank {b : Text} (h : Text.isBlank b = true) : IsNested b := by
  refine isNested_of_forall fun c hc => ?_
  have hblank : DocComment.isBlank c = true := List.all_eq_true.mp h c hc
  constructor
  · rw [← Bool.not_eq_true]
    intro hopen
    simp only [isOpening, Bool.or_eq_true, beq_iff_eq] at hopen
    rcases hopen with ((rfl | rfl) | rfl) | rfl <;> exact absurd hblank (by decide)
  · rw [← Bool.not_eq_true]
    intro hclose
    simp only [isClosing, Bool.or_eq_true, beq_iff_eq] at hclose
    rcases hclose with ((rfl | rfl) | rfl) | rfl <;> exact absurd hblank (by decide)

theorem isNested_trim_iff {t : Text} : IsNested (Text.trim t) ↔ IsNested t := by
  obtain ⟨b, hb, hend⟩ := Text.exists_trimEnd_append (Text.trimStart t)
  have hstart : t.takeWhile DocComment.isBlank ++ Text.trimStart t = t :=
    List.takeWhile_append_dropWhile
  have hblank : Text.isBlank (t.takeWhile DocComment.isBlank) = true := List.all_takeWhile
  have hleft := isNested_append_iff_right (isNested_of_isBlank hblank) (u := Text.trimStart t)
  have hright := isNested_append_iff (isNested_of_isBlank hb) (t := Text.trim t)
  rw [hstart] at hleft
  rw [Text.trim, ← hend] at hright
  exact hright.symm.trans hleft.symm

theorem between?_eq_some_iff {first last : Char} {t u : Text} :
    between? first last t = some u ↔ t = first :: (u ++ [last]) := by
  rw [between?]
  refine Option.bind_eq_some_iff.trans ⟨?_, ?_⟩
  · rintro ⟨r, hr, hu⟩
    rw [Text.after?_eq_some_iff.mp hr, Text.before?_eq_some_iff.mp hu]
    rfl
  · rintro rfl
    exact ⟨_, Text.after?_eq_some_iff.mpr rfl, Text.before?_eq_some_iff.mpr rfl⟩

theorem between?_eq_none {first last : Char} {t : Text} (h : t.head? ≠ some first) :
    between? first last t = none := by
  rw [Option.eq_none_iff_forall_ne_some]
  intro u hu
  rw [between?_eq_some_iff.mp hu] at h
  exact h rfl

/-- In braces, an expression is read without the blanks at its ends. -/
theorem bare_braced (t : Text) :
    TypeUnion.bare ('\x7b' :: (t ++ ['\x7d'])) = Text.trim t := by
  -- a brace at either end, so there is nothing to trim outside of them
  have htrim : Text.trim ('\x7b' :: (t ++ ['\x7d'])) = '\x7b' :: (t ++ ['\x7d']) :=
    Text.trim_append_append (t := ['\x7b']) (u := ['\x7d']) rfl rfl rfl rfl t
  have hbetween : between? '\x7b' '\x7d' ('\x7b' :: (t ++ ['\x7d'])) = some t :=
    between?_eq_some_iff.mpr rfl
  rw [TypeUnion.bare, htrim, hbetween, Option.getD_some]

theorem exists_parse_eq_ok_iff {s : String} :
    (∃ u, TypeUnion.parse s = .ok u) ↔ IsNested (TypeUnion.bare s.toList) := by
  rw [← isBalanced_iff, TypeUnion.parse]
  cases isBalanced (TypeUnion.bare s.toList) <;> simp

/-! ### Cutting -/

/-- Inside of a bracket, a nested text is passed over. -/
theorem splitAt_append_of_isNested {t : Text} (h : IsNested t) (sep : Char) (depth : Nat)
    (u : Text) :
    splitAt sep (depth + 1) (t ++ u) = (splitAt sep (depth + 1) u).modifyHead (t ++ ·) := by
  induction h generalizing depth u with
  | nil => exact (congrFun List.modifyHead_id _).symm
  | @other c t hopen hclose ht ih =>
    -- the depth is not zero, so the character is no separator whatever it is
    rw [List.cons_append, splitAt, if_neg (by simp [hopen]), if_neg (by simp [hclose]),
      if_neg (by simp), ih, List.modifyHead_modifyHead]
    rfl
  | @pair c t v hc ht hv iht ihv =>
    have hopen := isOpening_eq_false_of_isClosing hc
    rw [List.cons_append, splitAt, if_pos (isOpening_openingOf c), List.append_assoc, iht,
      List.cons_append, splitAt, if_neg (by simp [hopen]), if_pos hc, Nat.add_sub_cancel, ihv,
      List.modifyHead_modifyHead, List.modifyHead_modifyHead, List.modifyHead_modifyHead]
    congr 1
    funext w
    simp

/-- Outside of brackets, so is a nested text in brackets. -/
theorem splitAt_bracketed_append {t : Text} (h : IsNested t) {c : Char} (hc : isClosing c = true)
    (sep : Char) (u : Text) :
    splitAt sep 0 (openingOf c :: (t ++ c :: u)) =
      (splitAt sep 0 u).modifyHead (openingOf c :: t ++ c :: ·) := by
  have hopen := isOpening_eq_false_of_isClosing hc
  rw [splitAt, if_pos (isOpening_openingOf c), splitAt_append_of_isNested h, splitAt,
    if_neg (by simp [hopen]), if_pos hc, Nat.add_sub_cancel, List.modifyHead_modifyHead,
    List.modifyHead_modifyHead]
  congr 1

theorem forall_mem_modifyHead {P : Text → Prop} {f : Text → Text} (hf : ∀ p, P p → P (f p))
    {ps : List Text} (h : ∀ p ∈ ps, P p) : ∀ p ∈ ps.modifyHead f, P p := by
  cases ps with
  | nil => simp
  | cons q qs =>
    rw [List.forall_mem_cons] at h
    rw [List.modifyHead_cons, List.forall_mem_cons]
    exact ⟨hf q h.1, h.2⟩

theorem isNested_of_mem_splitTop {t : Text} (h : IsNested t) (sep : Char) :
    ∀ p ∈ splitTop sep t, IsNested p := by
  rw [splitTop]
  induction h with
  | nil => simp [splitAt, IsNested.nil]
  | @other c t hopen hclose ht ih =>
    rw [splitAt, if_neg (by simp [hopen]), if_neg (by simp [hclose])]
    split
    · exact List.forall_mem_cons.mpr ⟨.nil, ih⟩
    · exact forall_mem_modifyHead (fun p hp => .other hopen hclose hp) ih
  | @pair c t u hc ht hu iht ihu =>
    rw [splitAt_bracketed_append ht hc]
    exact forall_mem_modifyHead (fun p hp => .pair hc ht hp) ihu

theorem intercalate_modifyHead {sep : Text} {f : Text → Text}
    (hf : ∀ a b, f (a ++ b) = f a ++ b) {ps : List Text} (h : ps ≠ []) :
    sep.intercalate (ps.modifyHead f) = f (sep.intercalate ps) := by
  cases ps with
  | nil => exact absurd rfl h
  | cons p ps =>
    cases ps with
    | nil => simp
    | cons q qs => simp [List.intercalate_cons_cons, hf]

theorem splitAt_ne_nil (sep : Char) (depth : Nat) (t : Text) : splitAt sep depth t ≠ [] := by
  fun_induction splitAt sep depth t <;> simp_all [← List.length_eq_zero_iff]

/-- The parts with the separators between them are the text. -/
theorem intercalate_splitAt (sep : Char) (depth : Nat) (t : Text) :
    [sep].intercalate (splitAt sep depth t) = t := by
  have hcons (c : Char) (depth : Nat) (t : Text)
      (ih : [sep].intercalate (splitAt sep depth t) = t) :
      [sep].intercalate ((splitAt sep depth t).modifyHead (c :: ·)) = c :: t := by
    rw [intercalate_modifyHead (fun _ _ => rfl) (splitAt_ne_nil sep depth t), ih]
  fun_induction splitAt sep depth t with
  | case1 => rfl
  | case2 depth c t _ ih => exact hcons c _ t ih
  | case3 depth c t _ _ ih => exact hcons c _ t ih
  | case4 depth c t _ _ h ih =>
    obtain ⟨p, ps, hps⟩ := List.exists_cons_of_ne_nil (splitAt_ne_nil sep 0 t)
    rw [h.1, hps, List.intercalate_cons_cons, ← hps, ih]
    rfl
  | case5 depth c t _ _ _ ih => exact hcons c _ t ih

theorem IsNested.append {t u : Text} (ht : IsNested t) (hu : IsNested u) : IsNested (t ++ u) :=
  (isNested_append_iff hu).mpr ht

/-- What holds of the parts and of the separator, and is kept by putting texts together, holds of
the joined text. -/
theorem forall_intercalate {P : Text → Prop} (hnil : P [])
    (happend : ∀ {t u : Text}, P t → P u → P (t ++ u)) {sep : Text} (hsep : P sep)
    {ps : List Text} (h : ∀ p ∈ ps, P p) : P (sep.intercalate ps) := by
  induction ps with
  | nil => exact hnil
  | cons p ps ih =>
    obtain ⟨hp, hps⟩ := List.forall_mem_cons.mp h
    cases ps with
    | nil =>
      rw [List.intercalate_singleton]
      exact hp
    | cons q qs =>
      rw [List.intercalate_cons_cons]
      exact happend (happend hp hsep) (ih hps)

theorem isNested_intercalate {sep : Text} (hsep : IsNested sep) {ps : List Text}
    (h : ∀ p ∈ ps, IsNested p) : IsNested (sep.intercalate ps) :=
  forall_intercalate .nil IsNested.append hsep h

theorem isNested_of_forall_splitTop {sep : Char} (hopen : isOpening sep = false)
    (hclose : isClosing sep = false) {t : Text} (h : ∀ p ∈ splitTop sep t, IsNested p) :
    IsNested t := by
  rw [← intercalate_splitAt sep 0 t]
  exact isNested_intercalate (.other hopen hclose .nil) h

/-! ### Joining -/

/-- Outside of brackets, the text is passed over. -/
def IsUncut (sep : Char) (t : Text) : Prop :=
  ∀ u, splitAt sep 0 (t ++ u) = (splitAt sep 0 u).modifyHead (t ++ ·)

theorem isUncut_of_forall {sep : Char} {t : Text}
    (h : ∀ c ∈ t, isOpening c = false ∧ isClosing c = false ∧ c ≠ sep) : IsUncut sep t := by
  intro u
  induction t with
  | nil => exact (congrFun List.modifyHead_id _).symm
  | cons c t ih =>
    obtain ⟨⟨hopen, hclose, hsep⟩, ht⟩ := List.forall_mem_cons.mp h
    rw [List.cons_append, splitAt, if_neg (by simp [hopen]), if_neg (by simp [hclose]),
      if_neg (by simp [hsep]), ih ht, List.modifyHead_modifyHead]
    rfl

theorem isUncut_bracketed {t : Text} (h : IsNested t) {c : Char} (hc : isClosing c = true)
    (sep : Char) : IsUncut sep (openingOf c :: (t ++ [c])) := by
  intro u
  have htext : openingOf c :: (t ++ [c]) ++ u = openingOf c :: (t ++ c :: u) := by simp
  rw [htext, splitAt_bracketed_append h hc]
  congr 1
  funext v
  simp

theorem IsUncut.append {sep : Char} {t u : Text} (ht : IsUncut sep t) (hu : IsUncut sep u) :
    IsUncut sep (t ++ u) := by
  intro v
  rw [List.append_assoc, ht, hu, List.modifyHead_modifyHead]
  congr 1
  funext w
  simp

theorem splitTop_of_isUncut {sep : Char} {t : Text} (h : IsUncut sep t) : splitTop sep t = [t] := by
  have htext := h []
  rwa [List.append_nil, splitAt, List.modifyHead_cons, List.append_nil] at htext

theorem splitTop_intercalate {sep : Char} (hopen : isOpening sep = false)
    (hclose : isClosing sep = false) {ps : List Text} (hne : ps ≠ [])
    (h : ∀ p ∈ ps, IsUncut sep p) : splitTop sep ([sep].intercalate ps) = ps := by
  induction ps with
  | nil => exact absurd rfl hne
  | cons p ps ih =>
    obtain ⟨hp, hps⟩ := List.forall_mem_cons.mp h
    cases ps with
    | nil => simpa using splitTop_of_isUncut hp
    | cons q qs =>
      have hrest := ih (List.cons_ne_nil q qs) hps
      rw [splitTop] at hrest
      rw [splitTop, List.intercalate_cons_cons, List.append_assoc, hp, List.singleton_append,
        splitAt, if_neg (by simp [hopen]), if_neg (by simp [hclose]), if_pos ⟨rfl, rfl⟩, hrest,
        List.modifyHead_cons, List.append_nil]

/-! ### Cutting again -/

/-- Cut again, the parts are passed over. -/
theorem isUncut_of_mem_splitTop {t : Text} (h : IsNested t) (sep : Char) :
    ∀ p ∈ splitTop sep t, IsUncut sep p := by
  have hnil : IsUncut sep [] := isUncut_of_forall (List.forall_mem_nil _)
  rw [splitTop]
  induction h with
  | nil => simpa [splitAt] using hnil
  | @other c t hopen hclose ht ih =>
    rw [splitAt, if_neg (by simp [hopen]), if_neg (by simp [hclose])]
    split
    · exact List.forall_mem_cons.mpr ⟨hnil, ih⟩
    · next hsep =>
      have hc : IsUncut sep [c] := by
        refine isUncut_of_forall fun d hd => ?_
        rw [List.mem_singleton.mp hd]
        exact ⟨hopen, hclose, fun heq => hsep ⟨heq, rfl⟩⟩
      exact forall_mem_modifyHead (fun p hp => hc.append hp) ih
  | @pair c t u hc ht hu iht ihu =>
    rw [splitAt_bracketed_append ht hc]
    refine forall_mem_modifyHead (fun p hp => ?_) ihu
    have happend := (isUncut_bracketed ht hc sep).append hp
    simpa using happend

/-- **Cutting outside of brackets respects nesting.**  In braces an expression is read exactly if its
brackets are properly nested; cut at a separator, its parts are then nested and cannot be cut again,
and joined with the separator they are the expression. -/
theorem splitTop_keeps_nesting (e : String) :
    ((∃ u, TypeUnion.parse ("\x7b" ++ e ++ "\x7d") = .ok u) ↔ IsNested e.toList) ∧
      (IsNested e.toList → ∀ sep,
        [sep].intercalate (splitTop sep e.toList) = e.toList ∧
        ∀ part ∈ splitTop sep e.toList, IsNested part ∧ splitTop sep part = [part]) := by
  constructor
  · have htext : ("\x7b" ++ e ++ "\x7d").toList = '\x7b' :: (e.toList ++ ['\x7d']) := by
      simp [String.toList_append]
    rw [exists_parse_eq_ok_iff, htext, bare_braced, isNested_trim_iff]
  · intro hnested sep
    refine ⟨intercalate_splitAt sep 0 e.toList, fun part hpart => ⟨?_, ?_⟩⟩
    · exact isNested_of_mem_splitTop hnested sep part hpart
    · exact splitTop_of_isUncut (isUncut_of_mem_splitTop hnested sep part hpart)

theorem splitTop_keeps_nesting_sample :
    let parts := ["Map<K, A|B>".toList, "(C|D)[]".toList]
    IsNested "Map<K, A|B>|(C|D)[]".toList ∧ splitTop '|' "Map<K, A|B>|(C|D)[]".toList = parts ∧
      ['|'].intercalate parts = "Map<K, A|B>|(C|D)[]".toList ∧
      ∀ part ∈ parts, IsNested part ∧ splitTop '|' part = [part] := by
  intro parts
  have hnested : IsNested "Map<K, A|B>|(C|D)[]".toList := by decide
  have hparts : splitTop '|' "Map<K, A|B>|(C|D)[]".toList = parts := by decide
  have hkept := (splitTop_keeps_nesting "Map<K, A|B>|(C|D)[]").2 hnested '|'
  rw [hparts] at hkept
  exact ⟨hnested, hparts, hkept⟩

end DocComment.TypeExpr
