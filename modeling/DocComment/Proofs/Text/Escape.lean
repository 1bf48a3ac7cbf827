/-
Escapes, a backslash before a character.

* `unescape_sublist`, `unescape_eq_self_iff` — what is left of a text, and when that is all of it;
* `unescape_append_cons` — an escape has no other character inside, so `unescape_unlines` resolves
  the escapes of a text line by line.
-/
import DocComment.Proofs.Text.Lines

namespace DocComment.Text

variable {c : Char}

theorem unescape_sublist (c : Char) (t : Text) : (unescape c t).Sublist t := by
  fun_induction unescape c t with
  | case1 t ih => exact (ih.cons_cons c).cons '\\'
  | case2 d t _ ih => exact ih.cons_cons '\\'
  | case3 d t _ ih => exact ih.cons_cons d
  | case4 => exact List.Sublist.refl []

theorem newline_notMem_unescape {t : Text} (h : '\n' ∉ t) : '\n' ∉ unescape c t :=
  fun hmem => h ((unescape_sublist c t).subset hmem)

theorem isBlank_unescape (hc : DocComment.isBlank c = false) {t : Text} (ht : isBlank t = false) :
    isBlank (unescape c t) = false := by
  fun_induction unescape c t with
  | case1 t ih => simp [isBlank, hc]
  | case2 d t hd ih => simp [isBlank, DocComment.isBlank]
  | case3 d t h ih =>
    rw [isBlank, List.all_cons, Bool.and_eq_false_iff] at ht ⊢
    exact ht.imp_right ih
  | case4 => exact ht

theorem unescape_cons_of_ne {d : Char} (hd : d ≠ '\\') (c : Char) (t : Text) :
    unescape c (d :: t) = d :: unescape c t := by
  simp [unescape, hd]

theorem unescape_cons_of_head {t : Text} (h : t.head? ≠ some c) (d : Char) :
    unescape c (d :: t) = d :: unescape c t := by
  match t with
  | [] => simp [unescape]
  | e :: t =>
    have he : e ≠ c := by simpa using h
    by_cases hd : d = '\\'
    · rw [hd, unescape, if_neg he]
    · exact unescape_cons_of_ne hd c (e :: t)

/-- A text is left alone if there is no escape in it. -/
theorem unescape_eq_self_iff {t : Text} : unescape c t = t ↔ ¬['\\', c] <:+: t := by
  -- at a character that stays, the question is the one about the rest
  have hstay : ∀ {d : Char} {t : Text}, ¬['\\', c] <+: d :: t →
      (¬['\\', c] <:+: t ↔ ¬['\\', c] <:+: d :: t) := fun hd =>
    (not_congr (List.infix_cons_iff.trans (or_iff_right hd))).symm
  fun_induction unescape c t with
  | case1 t _ =>
    -- the backslash is gone, so the text has become shorter
    refine iff_of_false (fun h => ?_) (not_not_intro (List.prefix_append ['\\', c] t).isInfix)
    have hlength := (unescape_sublist c t).length_le
    have heq := congrArg List.length h
    simp only [List.length_cons] at heq
    omega
  | case2 d t hd ih =>
    exact (List.cons_inj_right _).trans (ih.trans (hstay (by simpa using Ne.symm hd)))
  | case3 d t hd ih =>
    refine (List.cons_inj_right _).trans (ih.trans (hstay ?_))
    rintro ⟨r, hr⟩
    obtain ⟨hbackslash, ht⟩ := List.cons.inj hr
    exact hd c r hbackslash.symm ht.symm
  | case4 => simp

/-- No escape goes over a character that is in none. -/
theorem unescape_append_cons {d : Char} (hd : d ≠ '\\') (hdc : d ≠ c) (a b : Text) :
    unescape c (a ++ d :: b) = unescape c a ++ d :: unescape c b := by
  have hcons := unescape_cons_of_ne hd c b
  fun_induction unescape c a with
  | case1 a ih => simp [unescape, ih]
  | case2 e a he ih =>
    refine Eq.trans ?_ (congrArg ('\\' :: ·) ih)
    simp [unescape, he]
  | case3 e a he ih =>
    rw [List.cons_append, List.cons_append, ← ih]
    cases a with
    | nil => exact unescape_cons_of_head (by simpa using hdc) e
    | cons e' a => exact unescape_cons_of_ne (fun h => he e' a h rfl) c _
  | case4 => exact hcons

theorem unescape_unlines (hc : c ≠ '\n') (ls : List Text) :
    unescape c (unlines ls) = unlines (ls.map (unescape c)) := by
  induction ls with
  | nil => rfl
  | cons l ls ih =>
    by_cases hls : ls = []
    · rw [hls, List.map_singleton, unlines_singleton, unlines_singleton]
    · rw [unlines_cons hls, unescape_append_cons (by decide) hc.symm, ih, List.map_cons,
        unlines_cons (by simpa using hls)]

/-! ### Escaping -/

/-- A backslash before every `c`. -/
def escaped (c : Char) (t : Text) : Text := t.flatMap fun d => if d = c then ['\\', c] else [d]

theorem escaped_cons (c d : Char) (t : Text) :
    escaped c (d :: t) = (if d = c then ['\\', c] else [d]) ++ escaped c t :=
  List.flatMap_cons

theorem head?_escaped_ne (hc : c ≠ '\\') (t : Text) : (escaped c t).head? ≠ some c := by
  cases t with
  | nil => simp [escaped]
  | cons d t =>
    rw [escaped_cons]
    by_cases hd : d = c
    · simpa [hd] using hc.symm
    · simp [hd]

theorem escaped_of_notMem {t : Text} (h : c ∉ t) : escaped c t = t := by
  induction t with
  | nil => rfl
  | cons d t ih =>
    rw [List.mem_cons, not_or] at h
    rw [escaped_cons, if_neg (Ne.symm h.1), ih h.2, List.singleton_append]

theorem unescape_escaped (hc : c ≠ '\\') (t : Text) : unescape c (escaped c t) = t := by
  induction t with
  | nil => rfl
  | cons d t ih =>
    rw [escaped_cons]
    by_cases hd : d = c
    · rw [if_pos hd, List.cons_append, List.singleton_append, unescape, if_pos rfl, ih, hd]
    · -- `d` may be a backslash, but no bare `c` can follow it
      rw [if_neg hd, List.singleton_append, unescape_cons_of_head (head?_escaped_ne hc t), ih]

end DocComment.Text
