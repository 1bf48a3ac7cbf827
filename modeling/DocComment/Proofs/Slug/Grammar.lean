/-
The grammar of dotted slugs.

`IsDotted` says what a slug looks like without saying how it is written: words over `[a-z0-9_@]`,
and one dot or hyphen between each two.  What `spell` writes behind a word continues it to such a
text (`isDotted_append_spell`), and such a text is spelled as it is (`IsDotted.spell_eq`), so:

* `dotted_grammar` — the slugs are the empty text and these, they are the texts that are their own
  slug, and a dot between two texts is a dot between their slugs.
-/
import DocComment.Proofs.Slug

namespace DocComment.Slug

/-! ### Words -/

/-- The characters of words, `[a-z0-9_@]`. -/
def isWordChar (c : Char) : Bool := c.isLower || c.isDigit || c == '_' || c == '@'

theorem isWordChar_iff {c : Char} :
    isWordChar c = true ↔ c.isLower = true ∨ c.isDigit = true ∨ c = '_' ∨ c = '@' := by
  simp [isWordChar, or_assoc]

theorem isSeparator_of_isWordChar {c : Char} (h : isWordChar c = true) : isSeparator c = false := by
  rw [← Bool.not_eq_true]
  intro hc
  rcases isSeparator_iff.mp hc with rfl | rfl
  · exact absurd h (by decide)
  · exact absurd h (by decide)

/-- A character of a word is spelled as it is. -/
theorem dottedChar_of_isWordChar {c : Char} (h : isWordChar c = true) : dottedChar c = c := by
  rcases isWordChar_iff.mp h with hlower | hdigit | rfl | rfl
  · simp [dottedChar, Char.isAlphanum, Char.isAlpha, hlower,
      Char.toLower_eq_of_not_isUpper (Char.not_isUpper_of_isLower hlower)]
  · simp [dottedChar, Char.isAlphanum, hdigit,
      Char.toLower_eq_of_not_isUpper (not_isUpper_of_isDigit hdigit)]
  · decide
  · decide

/-- What is spelled and is no separator belongs to a word. -/
theorem isWordChar_dottedChar {c : Char} (h : isSeparator (dottedChar c) = false) :
    isWordChar (dottedChar c) = true := by
  rcases dottedChar_cases c with ⟨hword, hc⟩ | ⟨rfl | rfl | rfl | rfl, -⟩ | hc
  · have hsmall := isAlphanum_toLower hword
    rw [Char.isAlphanum, Char.isAlpha, Char.isUpper_toLower_eq_false, Bool.false_or,
      Bool.or_eq_true] at hsmall
    rw [hc, isWordChar_iff]
    exact hsmall.imp_right Or.inl
  · exact absurd h (by decide)
  · decide
  · decide
  · exact absurd h (by decide)
  · rw [hc] at h
    exact absurd h (by decide)

structure IsWord (w : Text) : Prop where
  ne_nil : w ≠ []
  isWordChar_of_mem : ∀ c ∈ w, isWordChar c = true

theorem isWord_singleton {c : Char} (h : isWordChar c = true) : IsWord [c] where
  ne_nil := List.cons_ne_nil c []
  isWordChar_of_mem d hd := by rwa [List.mem_singleton.mp hd]

theorem IsWord.concat {w : Text} (hw : IsWord w) {c : Char} (h : isWordChar c = true) :
    IsWord (w ++ [c]) where
  ne_nil := by simp
  isWordChar_of_mem d hd := by
    rcases List.mem_append.mp hd with hd | hd
    · exact hw.isWordChar_of_mem d hd
    · exact (isWord_singleton h).isWordChar_of_mem d hd

theorem spell_letter_word_append {w : Text} (hw : ∀ c ∈ w, isWordChar c = true) (t : Text) :
    spell .letter (w ++ t) = w ++ spell .letter t := by
  induction w with
  | nil => rfl
  | cons c w ih =>
    have hc : isWordChar c = true := hw c List.mem_cons_self
    rw [List.cons_append, spell_letter (isSeparator_of_isWordChar hc),
      ih fun d hd => hw d (List.mem_cons_of_mem c hd)]
    rfl

/-- A word is spelled as it is, behind what was held back. -/
theorem IsWord.spell_append {w : Text} (hw : IsWord w) (p : Place) (t : Text) :
    spell p (w ++ t) = p.held ++ (w ++ spell .letter t) := by
  obtain ⟨hne, hchars⟩ := hw
  obtain ⟨c, w, rfl⟩ := List.exists_cons_of_ne_nil hne
  have hc : isWordChar c = true := hchars c List.mem_cons_self
  rw [List.cons_append, spell_letter (isSeparator_of_isWordChar hc),
    spell_letter_word_append fun d hd => hchars d (List.mem_cons_of_mem c hd)]
  rfl

/-! ### Words and separators -/

/-- Words with one separator between each two. -/
inductive IsDotted : Text → Prop where
  | word {w : Text} (hw : IsWord w) : IsDotted w
  | join {w t : Text} {s : Char} (hw : IsWord w) (hs : isSeparator s = true) (ht : IsDotted t) :
      IsDotted (w ++ s :: t)

theorem IsDotted.spell_eq {t : Text} (h : IsDotted t) (p : Place) : spell p t = p.held ++ t := by
  induction h generalizing p with
  | word hw => simpa [spell] using hw.spell_append p []
  | join hw hs ht ih => rw [hw.spell_append, spell_separator hs, ih]; rfl

theorem IsDotted.dottedChar_of_mem {t : Text} (h : IsDotted t) : ∀ c ∈ t, dottedChar c = c := by
  induction h with
  | word hw => exact fun c hc => dottedChar_of_isWordChar (hw.isWordChar_of_mem c hc)
  | join hw hs ht ih =>
    intro c hc
    rcases List.mem_append.mp hc with hc | hc
    · exact dottedChar_of_isWordChar (hw.isWordChar_of_mem c hc)
    · rcases List.mem_cons.mp hc with rfl | hc
      · rcases isSeparator_iff.mp hs with rfl | rfl <;> decide
      · exact ih c hc

/-- Every character is a separator or belongs to a word. -/
def IsSpelled (t : Text) : Prop := ∀ c ∈ t, isSeparator c = false → isWordChar c = true

theorem isSpelled_map_dottedChar (t : Text) : IsSpelled (t.map dottedChar) := by
  intro c hc
  obtain ⟨d, -, rfl⟩ := List.mem_map.mp hc
  exact isWordChar_dottedChar

/-- What is written behind a word goes on with the word, or parts it from the next. -/
theorem isDotted_append_spell {p : Place} (hp : p ≠ .start) (hfair : p.IsFair) {w : Text}
    (hw : IsWord w) {t : Text} (ht : IsSpelled t) : IsDotted (w ++ spell p t) := by
  induction t generalizing p w with
  | nil => simpa [spell] using IsDotted.word hw
  | cons c t ih =>
    have ht' : IsSpelled t := fun d hd => ht d (List.mem_cons_of_mem c hd)
    by_cases hc : isSeparator c = true
    · rw [spell_separator hc]
      exact ih (Place.add_ne_start hp c) (hfair.add hc) hw ht'
    · rw [Bool.not_eq_true] at hc
      have hword : isWordChar c = true := ht c List.mem_cons_self hc
      rw [spell_letter hc]
      cases p with
      | start => exact absurd rfl hp
      | letter =>
        have hlonger := ih Place.noConfusion Place.isFair_letter (hw.concat hword) ht'
        rwa [List.append_assoc] at hlonger
      | gap s =>
        exact .join hw (hfair s List.mem_cons_self)
          (ih Place.noConfusion Place.isFair_letter (isWord_singleton hword) ht')

theorem spell_start_eq_nil_or_isDotted {t : Text} (ht : IsSpelled t) :
    spell .start t = [] ∨ IsDotted (spell .start t) := by
  induction t with
  | nil => exact .inl rfl
  | cons c t ih =>
    have ht' : IsSpelled t := fun d hd => ht d (List.mem_cons_of_mem c hd)
    by_cases hc : isSeparator c = true
    · rw [spell_separator hc]
      exact ih ht'
    · rw [Bool.not_eq_true] at hc
      have hword : isWordChar c = true := ht c List.mem_cons_self hc
      rw [spell_letter hc]
      exact .inr (isDotted_append_spell Place.noConfusion Place.isFair_letter
        (isWord_singleton hword) ht')

/-! ### Slugs -/

theorem dottedOf_eq_nil_or_isDotted (t : Text) : dottedOf t = [] ∨ IsDotted (dottedOf t) := by
  rw [dottedOf_eq_spell]
  exact spell_start_eq_nil_or_isDotted (isSpelled_map_dottedChar t)

theorem IsDotted.dottedOf_eq {t : Text} (h : IsDotted t) : dottedOf t = t := by
  have hmap : t.map dottedChar = t :=
    (List.map_congr_left h.dottedChar_of_mem).trans (List.map_id t)
  rw [dottedOf_eq_spell, hmap]
  exact h.spell_eq .start

theorem dottedOf_eq_self_iff {t : Text} : dottedOf t = t ↔ t = [] ∨ IsDotted t := by
  refine ⟨fun h => ?_, ?_⟩
  · rw [← h]
    exact dottedOf_eq_nil_or_isDotted t
  · rintro (rfl | h)
    · rfl
    · exact h.dottedOf_eq

theorem toList_dotted (s : String) : (dotted s).toList = dottedOf s.toList := by
  rw [dotted, String.toList_ofList]

/-- What vanishes is not joined. -/
theorem ofList_joinDot (a b : Text) :
    String.ofList (joinDot a b) =
      ".".intercalate ([String.ofList a, String.ofList b].filter (· ≠ "")) := by
  rw [← String.toList_inj, String.toList_ofList, String.toList_intercalate]
  by_cases ha : a = []
  · by_cases hb : b = []
    · simp [joinDot, ha, hb]
    · simp [joinDot, ha, hb]
  · by_cases hb : b = []
    · simp [joinDot, ha, hb]
    · simp [joinDot, ha, hb]

/-- **Slugs have a grammar and compose over dots.**  The slug of a text is empty or words with one
separator between each two; the texts of this form, and no others, are their own slugs, so a slug is
one; and the slug of two texts with a dot between is made of those of their slugs that are not
empty, with a dot between. -/
theorem dotted_grammar :
    (∀ s : String, dotted s = "" ∨ IsDotted (dotted s).toList) ∧
    (∀ s : String, dotted s = s ↔ s = "" ∨ IsDotted s.toList) ∧
    (∀ s : String, dotted (dotted s) = dotted s) ∧
    ∀ a b : String, dotted (a ++ "." ++ b) =
      ".".intercalate ([dotted a, dotted b].filter (· ≠ "")) := by
  have hself : ∀ s : String, dotted s = s ↔ s = "" ∨ IsDotted s.toList := by
    intro s
    rw [← String.toList_inj, toList_dotted, dottedOf_eq_self_iff, String.toList_eq_nil_iff]
  have hshape : ∀ s : String, dotted s = "" ∨ IsDotted (dotted s).toList := by
    intro s
    rw [← String.toList_eq_nil_iff, toList_dotted]
    exact dottedOf_eq_nil_or_isDotted s.toList
  refine ⟨hshape, hself, fun s => (hself _).mpr (hshape s), fun a b => ?_⟩
  have htext : (a ++ "." ++ b).toList = a.toList ++ '.' :: b.toList := by simp
  rw [dotted, htext, dottedOf_append_dot, ofList_joinDot]
  rfl

example : dotted "my ns/deep..path." = "my-ns-deep.path" := by decide +kernel

end DocComment.Slug
