/-
Where a text is cut.

* `cutAt?_eq_some_iff`, `cutAt?_eq_none_iff` — the cut is at the first character of the kind, and
  there is none without such a character;
* `takeWhile_eq_iff` — a stretch of a kind goes up to the first character of another kind;
* `before?_concat_eq_none` — a word is not taken off a text that ends in another character;
* `intercalate_cons` — in a joined text the separator stands before each part but the first.
-/
import DocComment.Text.Cut

namespace DocComment.Text

theorem cutAt?_append_cons {p : Char → Bool} {a : Text} (ha : ∀ c ∈ a, p c = false) {c : Char}
    (hc : p c = true) (b : Text) : cutAt? p (a ++ c :: b) = some (a, b) := by
  induction a with
  | nil => simp [cutAt?, hc]
  | cons d a ih =>
    obtain ⟨hd, ha⟩ := List.forall_mem_cons.mp ha
    simp [cutAt?, hd, ih ha]

theorem cutAt?_eq_none_iff {p : Char → Bool} {t : Text} :
    cutAt? p t = none ↔ ∀ c ∈ t, p c = false := by
  induction t with
  | nil => simp [cutAt?]
  | cons c t ih => cases hc : p c <;> simp [cutAt?, hc, ih]

theorem forall_of_cutAt? {p : Char → Bool} {t a b : Text} (h : cutAt? p t = some (a, b)) :
    ∀ c ∈ a, p c = false := by
  induction t generalizing a with
  | nil => cases h
  | cons c t ih =>
    unfold cutAt? at h
    split at h
    · cases h
      simp
    · next hc =>
      obtain ⟨⟨a', b'⟩, h', heq⟩ := Option.map_eq_some_iff.mp h
      cases heq
      exact List.forall_mem_cons.mpr ⟨by simpa using hc, ih h'⟩

theorem cutAt?_eq_some_iff {p : Char → Bool} {t a b : Text} :
    cutAt? p t = some (a, b) ↔
      (∀ c ∈ a, p c = false) ∧ ∃ c, p c = true ∧ t = a ++ c :: b := by
  refine ⟨fun h => ⟨forall_of_cutAt? h, cutAt?_eq_some h⟩, ?_⟩
  rintro ⟨ha, c, hc, rfl⟩
  exact cutAt?_append_cons ha hc b

theorem takeWhile_eq_iff {p : Char → Bool} {t a : Text} :
    t.takeWhile p = a ↔
      ∃ b, t = a ++ b ∧ (∀ c ∈ a, p c = true) ∧ ∀ c ∈ b.head?, p c = false := by
  constructor
  · rintro rfl
    refine ⟨t.dropWhile p, List.takeWhile_append_dropWhile.symm,
      List.all_eq_true.mp List.all_takeWhile, ?_⟩
    intro c hc
    have hstop := List.head?_dropWhile_not p t
    rw [Option.mem_def.mp hc] at hstop
    simpa using hstop
  · rintro ⟨b, rfl, ha, hb⟩
    rw [List.takeWhile_append_of_pos ha]
    cases b with
    | nil => simp
    | cons c b => rw [List.takeWhile_cons_of_neg (by simp [hb c rfl]), List.append_nil]

theorem before?_concat_eq_none {w t : Text} {c : Char} (h : t.getLast? ≠ some c) :
    before? (w ++ [c]) t = none := by
  rw [Option.eq_none_iff_forall_ne_some]
  intro u hu
  rw [before?_eq_some_iff.mp hu, ← List.append_assoc, List.getLast?_concat] at h
  exact h rfl

theorem intercalate_cons (sep p : Text) (ps : List Text) :
    sep.intercalate (p :: ps) = p ++ ps.flatMap (sep ++ ·) := by
  induction ps generalizing p with
  | nil => simp
  | cons q ps ih => rw [List.intercalate_cons_cons, ih, List.flatMap_cons, List.append_assoc,
      List.append_assoc]

end DocComment.Text
