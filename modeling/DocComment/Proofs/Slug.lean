/-
What a dotted slug is made of.

The slug is written by a reader that looks back at what it has written.  `spell` says the same
looking forward: a separator is held back until a letter comes that it parts from the one before, and
what is held back at the end is never written.  `dottedOf_eq_spell` proves the two equal, and the
laws of dotted slugs are facts about `spell`:

* `dottedOf_append_dot` — a dot between two texts is a dot between their slugs, unless one of them
  vanishes;
* `dottedOf_dottedOf` — a slug is its own slug;
* `dottedOf_hyphenate` — the gaps of a text may be closed with hyphens first.
-/
import DocComment.Proofs.Comment.Marker
import DocComment.Slug
import DocComment.Text.Column
import Mathlib

namespace DocComment.Slug

open Text

/-! ### Characters -/

theorem not_isUpper_of_isDigit {c : Char} (h : c.isDigit = true) : ¬c.isUpper = true := by
  simp only [Char.isDigit, Char.isUpper, UInt32.le_iff_toNat_le, Bool.and_eq_true,
    decide_eq_true_eq, ge_iff_le] at h ⊢
  have h₉ : '9'.val.toNat = 57 := rfl
  have hA : 'A'.val.toNat = 65 := rfl
  omega

theorem isAlphanum_toLower {c : Char} (h : c.isAlphanum = true) : c.toLower.isAlphanum = true := by
  rw [Char.isAlphanum, Bool.or_eq_true] at h ⊢
  rcases h with h | h
  · exact Or.inl (by rwa [Char.isAlpha_toLower_eq_isAlpha])
  · exact Or.inr (by rwa [Char.toLower_eq_of_not_isUpper (not_isUpper_of_isDigit h)])

/-- Letters and digits are spelled small, the marks as they are, and all else as a hyphen. -/
theorem dottedChar_cases (c : Char) :
    (c.isAlphanum = true ∧ dottedChar c = c.toLower) ∨
      ((c = '.' ∨ c = '_' ∨ c = '@' ∨ c = '-') ∧ dottedChar c = c) ∨ dottedChar c = '-' := by
  by_cases hword : c.isAlphanum = true
  · exact Or.inl ⟨hword, by simp [dottedChar, hword]⟩
  · by_cases hmark : c = '.' ∨ c = '_' ∨ c = '@' ∨ c = '-'
    · refine Or.inr (Or.inl ⟨hmark, ?_⟩)
      rcases hmark with rfl | rfl | rfl | rfl <;> decide
    · simp only [not_or] at hmark
      exact Or.inr (Or.inr (by simp [dottedChar, hword, hmark]))

/-- A character of a slug is spelled as it is. -/
theorem dottedChar_dottedChar (c : Char) : dottedChar (dottedChar c) = dottedChar c := by
  rcases dottedChar_cases c with ⟨hword, hc⟩ | ⟨-, hc⟩ | hc
  · rw [hc, dottedChar, isAlphanum_toLower hword]
    exact Char.toLower_toLower_eq_toLower c
  · rw [hc, hc]
  · rw [hc]
    decide

theorem dottedChar_of_isBlank {c : Char} (h : DocComment.isBlank c = true) :
    dottedChar c = '-' := by
  have hne : c.isAlphanum = false := by
    cases halnum : c.isAlphanum with
    | false => rfl
    | true => rw [not_isBlank_of_isAlphanum halnum] at h; cases h
  have hmark : ∀ d : Char, DocComment.isBlank d = false → c ≠ d := by
    rintro d hd rfl
    rw [hd] at h
    cases h
  simp [dottedChar, hne, hmark '.' rfl, hmark '_' rfl, hmark '@' rfl, hmark '-' rfl]

/-! ### Looking forward -/

theorem isSeparator_iff {c : Char} : isSeparator c = true ↔ c = '-' ∨ c = '.' := by
  simp [isSeparator]

/-- What the reader of a text has last seen. -/
inductive Place where
  /-- Nothing but separators, which are not written. -/
  | start
  /-- A letter. -/
  | letter
  /-- A letter and separators, which come to this one. -/
  | gap (s : Char)

namespace Place

/-- One more separator: between a dot and a hyphen the dot stays. -/
def add (s : Char) : Place → Place
  | start => start
  | letter => gap s
  | gap t => gap (if t = '.' then t else s)

/-- What is written before the next letter. -/
def held : Place → Text
  | start => []
  | letter => []
  | gap s => [s]

theorem add_ne_start {p : Place} (h : p ≠ start) (s : Char) : p.add s ≠ start := by
  cases p with
  | start => exact absurd rfl h
  | letter => exact Place.noConfusion
  | gap t => exact Place.noConfusion

/-- What is held back was held back before, or comes now. -/
theorem mem_held_add {p : Place} {s t : Char} (h : t ∈ (p.add s).held) : t ∈ p.held ∨ t = s := by
  cases p with
  | start => cases h
  | letter => exact Or.inr (List.mem_singleton.mp h)
  | gap u =>
    rw [add, held, List.mem_singleton] at h
    split at h
    · exact Or.inl (List.mem_singleton.mpr h)
    · exact Or.inr h

/-- Only separators are held back. -/
def IsFair (p : Place) : Prop := ∀ s ∈ p.held, isSeparator s = true

theorem isFair_letter : IsFair letter := fun _ h => by cases h

theorem IsFair.add {p : Place} (h : p.IsFair) {s : Char} (hs : isSeparator s = true) :
    (p.add s).IsFair := by
  intro t ht
  rcases mem_held_add ht with ht | rfl
  · exact h t ht
  · exact hs

end Place

/-- The slug of the characters `t`, read from the given place on. -/
def spell : Place → Text → Text
  | _, [] => []
  | p, c :: t => if isSeparator c then spell (p.add c) t else p.held ++ c :: spell .letter t

theorem spell_separator {c : Char} (h : isSeparator c = true) (p : Place) (t : Text) :
    spell p (c :: t) = spell (p.add c) t := by
  rw [spell, if_pos h]

theorem spell_letter {c : Char} (h : isSeparator c = false) (p : Place) (t : Text) :
    spell p (c :: t) = p.held ++ c :: spell .letter t := by
  rw [spell, if_neg (by simp [h])]

/-- What is written ends in a letter. -/
theorem isSeparator_getLast?_spell (p : Place) (t : Text) :
    ∀ c ∈ (spell p t).getLast?, isSeparator c = false := by
  induction t generalizing p with
  | nil => simp [spell]
  | cons c t ih =>
    by_cases hc : isSeparator c = true
    · rw [spell_separator hc]
      exact ih _
    · rw [Bool.not_eq_true] at hc
      rw [spell_letter hc, List.getLast?_append_of_ne_nil _ (by simp)]
      intro d hd
      cases hrest : spell .letter t with
      | nil =>
        rw [hrest] at hd
        obtain rfl : c = d := by simpa using hd
        exact hc
      | cons e w =>
        rw [hrest, List.getLast?_cons_cons, ← hrest] at hd
        exact ih _ d hd

/-! ### The writer -/

theorem pushDotted_letter {c : Char} (hc : isSeparator c = false) (done : Text) :
    pushDotted done c = c :: done := by
  rw [pushDotted]
  all_goals
    rintro _ - rfl
    exact absurd hc (by decide)

theorem pushDotted_cons_letter {c : Char} (hc : isSeparator c = false) (done : Text) (s : Char) :
    pushDotted (c :: done) s = s :: c :: done := by
  rw [pushDotted]
  all_goals
    rintro _ hdone -
    obtain rfl := (List.cons.inj hdone).1
    exact absurd hc (by decide)

/-- Two separators come to one, which is a separator again. -/
theorem pushDotted_separator {s t : Char} (hs : isSeparator s = true) (ht : isSeparator t = true)
    (done : Text) : pushDotted (s :: done) t = (if s = '.' then s else t) :: done := by
  rcases isSeparator_iff.mp hs with rfl | rfl <;> rcases isSeparator_iff.mp ht with rfl | rfl <;> rfl

/-- Behind a letter, the writer has written what `spell` writes, and separators. -/
theorem exists_foldl_pushDotted {c : Char} (hc : isSeparator c = false) {p : Place}
    (hp : p ≠ .start) (hfair : p.IsFair) (done t : Text) :
    ∃ e : Text, (∀ s ∈ e, isSeparator s = true) ∧
      t.foldl pushDotted (p.held ++ c :: done) = e ++ ((spell p t).reverse ++ c :: done) := by
  induction t generalizing p c done with
  | nil => exact ⟨p.held, hfair, rfl⟩
  | cons d t ih =>
    by_cases hd : isSeparator d = true
    · have hpush : pushDotted (p.held ++ c :: done) d = (p.add d).held ++ c :: done := by
        cases p with
        | start => exact absurd rfl hp
        | letter => exact pushDotted_cons_letter hc done d
        | gap s => exact pushDotted_separator (hfair s List.mem_cons_self) hd (c :: done)
      obtain ⟨e, he, heq⟩ := ih hc (Place.add_ne_start hp d) (hfair.add hd) done
      exact ⟨e, he, by rw [List.foldl_cons, hpush, heq, spell_separator hd]⟩
    · rw [Bool.not_eq_true] at hd
      obtain ⟨e, he, heq⟩ := ih hd (p := .letter) Place.noConfusion Place.isFair_letter
        (p.held ++ c :: done)
      refine ⟨e, he, ?_⟩
      -- what was held back is at most one character, so backwards it is the same
      have hrev : p.held.reverse = p.held := by cases p <;> rfl
      rw [List.foldl_cons, pushDotted_letter hd, ← List.nil_append (d :: (p.held ++ c :: done))]
      show t.foldl pushDotted (Place.letter.held ++ d :: (p.held ++ c :: done)) = _
      rw [heq, spell_letter hd]
      simp [hrev]

/-- What stands between separators, if it neither begins nor ends with one. -/
theorem strip_append {p : Char → Bool} {a w b : Text} (ha : ∀ c ∈ a, p c = true)
    (hb : ∀ c ∈ b, p c = true) (hhead : ∀ c ∈ w.head?, p c = false)
    (hlast : ∀ c ∈ w.getLast?, p c = false) : strip p (a ++ (w ++ b)) = w := by
  have hstop : ∀ u : Text, (∀ c ∈ u.head?, p c = false) → u.dropWhile p = u := by
    intro u hu
    cases u with
    | nil => rfl
    | cons c u => exact List.dropWhile_cons_of_neg (by simp [hu c rfl])
  have hstart : (a ++ (w ++ b)).dropWhile p = (w ++ b).dropWhile p :=
    List.dropWhile_append_of_pos ha
  cases w with
  | nil =>
    have hnil : b.dropWhile p = [] := List.dropWhile_eq_nil_iff.mpr hb
    rw [strip, hstart, List.nil_append, hnil]
    rfl
  | cons c w =>
    have hcons : (c :: w ++ b).dropWhile p = c :: w ++ b := hstop _ (by simpa using hhead)
    have hend : (b.reverse ++ (c :: w).reverse).dropWhile p = (c :: w).reverse := by
      rw [List.dropWhile_append_of_pos (by simpa using hb), hstop]
      rwa [List.head?_reverse]
    rw [strip, hstart, hcons, List.reverse_append, hend, List.reverse_reverse]

/-- The writer writes what `spell` does, once the separators at the ends are gone. -/
theorem strip_foldl_pushDotted (t : Text) {e : Text} (he : e = [] ∨ ∃ s, e = [s] ∧ isSeparator s = true) :
    strip isSeparator (t.foldl pushDotted e).reverse = spell .start t := by
  induction t generalizing e with
  | nil =>
    rcases he with rfl | ⟨s, rfl, hs⟩
    · rfl
    · simp [strip, spell, hs]
  | cons c t ih =>
    by_cases hc : isSeparator c = true
    · rw [List.foldl_cons, spell_separator hc]
      refine ih (Or.inr ?_)
      rcases he with rfl | ⟨s, rfl, hs⟩
      · exact ⟨c, rfl, hc⟩
      · rw [pushDotted_separator hs hc]
        refine ⟨_, rfl, ?_⟩
        split
        · exact hs
        · exact hc
    · rw [Bool.not_eq_true] at hc
      -- from the first letter on, what came before it stays in front
      obtain ⟨b, hb, heq⟩ := exists_foldl_pushDotted hc (p := .letter) Place.noConfusion
        Place.isFair_letter e t
      have hwhole : (t.foldl pushDotted (pushDotted e c)).reverse =
          e.reverse ++ (spell .start (c :: t) ++ b.reverse) := by
        rw [pushDotted_letter hc, ← List.nil_append (c :: e)]
        show (t.foldl pushDotted (Place.letter.held ++ c :: e)).reverse = _
        rw [heq, spell_letter hc]
        simp [Place.held]
      rw [List.foldl_cons, hwhole]
      refine strip_append ?_ (by simpa using hb) ?_ (isSeparator_getLast?_spell _ _)
      · rcases he with rfl | ⟨s, rfl, hs⟩
        · simp
        · simpa using hs
      · rw [spell_letter hc]
        simpa [Place.held] using hc

/-! ### Laws of the spelling -/

theorem spell_append_separators (p : Place) (t : Text) {e : Text}
    (he : ∀ s ∈ e, isSeparator s = true) : spell p (t ++ e) = spell p t := by
  induction t generalizing p with
  | nil =>
    induction e generalizing p with
    | nil => rfl
    | cons s e ih =>
      rw [List.nil_append, spell_separator (he s List.mem_cons_self)]
      exact ih (fun s' hs' => he s' (List.mem_cons_of_mem s hs')) _
  | cons c t ih =>
    by_cases hc : isSeparator c = true
    · rw [List.cons_append, spell_separator hc, spell_separator hc, ih]
    · rw [Bool.not_eq_true] at hc
      rw [List.cons_append, spell_letter hc, spell_letter hc, ih]

theorem spell_start_separators {e : Text} (he : ∀ s ∈ e, isSeparator s = true) (t : Text) :
    spell .start (e ++ t) = spell .start t := by
  induction e with
  | nil => rfl
  | cons s e ih =>
    rw [List.cons_append, spell_separator (he s List.mem_cons_self)]
    exact ih fun s' hs' => he s' (List.mem_cons_of_mem s hs')

theorem spell_letter_spell {p : Place} (hp : p ≠ .start) (hfair : p.IsFair) (t : Text) :
    spell .letter (spell p t) = spell p t := by
  induction t generalizing p with
  | nil => rfl
  | cons c t ih =>
    by_cases hc : isSeparator c = true
    · rw [spell_separator hc]
      exact ih (Place.add_ne_start hp c) (hfair.add hc)
    · rw [Bool.not_eq_true] at hc
      have hrest : spell .letter (spell .letter t) = spell .letter t :=
        ih Place.noConfusion Place.isFair_letter
      rw [spell_letter hc]
      cases p with
      | start => exact absurd rfl hp
      | letter => rw [Place.held, List.nil_append, spell_letter hc, hrest, Place.held]; rfl
      | gap s =>
        rw [Place.held, List.singleton_append, spell_separator (hfair s List.mem_cons_self),
          spell_letter hc, hrest]
        rfl

/-- What is spelled is spelled as it is. -/
theorem spell_start_spell (t : Text) : spell .start (spell .start t) = spell .start t := by
  induction t with
  | nil => rfl
  | cons c t ih =>
    by_cases hc : isSeparator c = true
    · rw [spell_separator hc]
      exact ih
    · rw [Bool.not_eq_true] at hc
      rw [spell_letter hc, Place.held, List.nil_append, spell_letter hc,
        spell_letter_spell Place.noConfusion Place.isFair_letter, Place.held]
      rfl

/-- Two texts with a dot between, either of which may be nothing. -/
def joinDot (a b : Text) : Text :=
  if a = [] then b else if b = [] then a else a ++ '.' :: b

theorem spell_gap_dot (t : Text) : spell (.gap '.') t =
    if spell .start t = [] then [] else '.' :: spell .start t := by
  induction t with
  | nil => rfl
  | cons c t ih =>
    by_cases hc : isSeparator c = true
    · rw [spell_separator hc, spell_separator hc]
      exact ih
    · rw [Bool.not_eq_true] at hc
      rw [spell_letter hc, spell_letter hc]
      simp [Place.held]

theorem spell_append_dot {p : Place} (hp : p ≠ .start) (t u : Text) :
    spell p (t ++ '.' :: u) = spell p t ++ spell (.gap '.') u := by
  induction t generalizing p with
  | nil =>
    rw [List.nil_append, spell_separator rfl]
    cases p with
    | start => exact absurd rfl hp
    | letter => rfl
    | gap s =>
      by_cases hs : s = '.'
      · rw [Place.add, if_pos hs, hs]
        rfl
      · rw [Place.add, if_neg hs]
        rfl
  | cons c t ih =>
    by_cases hc : isSeparator c = true
    · rw [List.cons_append, spell_separator hc, spell_separator hc]
      exact ih (Place.add_ne_start hp c)
    · rw [Bool.not_eq_true] at hc
      rw [List.cons_append, spell_letter hc, spell_letter hc, ih (by simp)]
      simp

theorem spell_start_append_dot (t u : Text) :
    spell .start (t ++ '.' :: u) = joinDot (spell .start t) (spell .start u) := by
  induction t with
  | nil => rfl
  | cons c t ih =>
    by_cases hc : isSeparator c = true
    · rw [List.cons_append, spell_separator hc, spell_separator hc]
      exact ih
    · rw [Bool.not_eq_true] at hc
      rw [List.cons_append, spell_letter hc, spell_letter hc, spell_append_dot (by simp),
        spell_gap_dot, joinDot]
      split <;> simp [Place.held]

/-! ### Dotted slugs -/

/-- The slug looking forward.  Blanks at the ends become hyphens, and those are not written. -/
theorem dottedOf_eq_spell (t : Text) : dottedOf t = spell .start (t.map dottedChar) := by
  have hhyphen : ∀ b : Text, Text.isBlank b = true →
      ∀ s ∈ b.map dottedChar, isSeparator s = true := by
    intro b hb s hs
    obtain ⟨c, hc, rfl⟩ := List.mem_map.mp hs
    rw [dottedChar_of_isBlank (List.all_eq_true.mp hb c hc)]
    rfl
  obtain ⟨b, hb, htail⟩ := exists_trimEnd_append (trimStart t)
  have hhead : Text.isBlank (t.takeWhile DocComment.isBlank) = true := List.all_takeWhile
  have ht : t = t.takeWhile DocComment.isBlank ++ (trim t ++ b) := by
    rw [trim, ← htail, trimStart, List.takeWhile_append_dropWhile]
  rw [dottedOf, strip_foldl_pushDotted _ (Or.inl rfl)]
  conv_rhs => rw [ht]
  rw [List.map_append, List.map_append, spell_start_separators (hhyphen _ hhead),
    spell_append_separators _ _ (hhyphen b hb)]

theorem mem_of_mem_spell {p : Place} {t : Text} {c : Char} (h : c ∈ spell p t) :
    c ∈ p.held ∨ c ∈ t := by
  induction t generalizing p with
  | nil => cases h
  | cons d t ih =>
    by_cases hd : isSeparator d = true
    · rw [spell_separator hd] at h
      rcases ih h with h | h
      · rcases Place.mem_held_add h with h | rfl
        · exact Or.inl h
        · exact Or.inr List.mem_cons_self
      · exact Or.inr (List.mem_cons_of_mem d h)
    · rw [Bool.not_eq_true] at hd
      rw [spell_letter hd, List.mem_append, List.mem_cons] at h
      rcases h with h | rfl | h
      · exact Or.inl h
      · exact Or.inr List.mem_cons_self
      · rcases ih h with h | h
        · cases h
        · exact Or.inr (List.mem_cons_of_mem d h)

/-- A slug is its own slug. -/
theorem dottedOf_dottedOf (t : Text) : dottedOf (dottedOf t) = dottedOf t := by
  have hchars : (dottedOf t).map dottedChar = dottedOf t := by
    refine (List.map_congr_left fun c hc => ?_).trans (List.map_id _)
    rw [dottedOf_eq_spell] at hc
    rcases mem_of_mem_spell hc with hc | hc
    · cases hc
    · obtain ⟨d, -, rfl⟩ := List.mem_map.mp hc
      exact dottedChar_dottedChar d
  rw [dottedOf_eq_spell (dottedOf t), hchars, dottedOf_eq_spell t, spell_start_spell]

/-- A dot between two texts is a dot between their slugs. -/
theorem dottedOf_append_dot (t u : Text) :
    dottedOf (t ++ '.' :: u) = joinDot (dottedOf t) (dottedOf u) := by
  rw [dottedOf_eq_spell, dottedOf_eq_spell, dottedOf_eq_spell, List.map_append, List.map_cons,
    ← spell_start_append_dot]
  rfl

theorem joinDot_ne_nil {a : Text} (h : a ≠ []) (b : Text) : joinDot a b ≠ [] := by
  rw [joinDot, if_neg h]
  split
  · exact h
  · simp

/-- Joining slugs makes a slug. -/
theorem dottedOf_joinDot (t u : Text) :
    dottedOf (joinDot (dottedOf t) (dottedOf u)) = joinDot (dottedOf t) (dottedOf u) := by
  rw [← dottedOf_append_dot, dottedOf_dottedOf]

/-! ### Gaps -/

/-- One hyphen more makes no difference. -/
theorem spell_hyphen_hyphen (p : Place) (t : Text) :
    spell p ('-' :: '-' :: t) = spell p ('-' :: t) := by
  rw [spell_separator rfl, spell_separator rfl, spell_separator rfl]
  cases p with
  | start => rfl
  | letter => rfl
  | gap s =>
    by_cases hs : s = '.'
    · simp [Place.add, hs]
    · simp [Place.add, hs]

/-- Closing the gaps with hyphens makes no difference, nor does it if a gap is being read. -/
theorem spell_map_hyphenateFrom (p : Place) (t : Text) :
    spell p ((hyphenateFrom false t).map dottedChar) = spell p (t.map dottedChar) ∧
      spell p ('-' :: (hyphenateFrom true t).map dottedChar) =
        spell p ('-' :: t.map dottedChar) := by
  induction t generalizing p with
  | nil => exact ⟨rfl, rfl⟩
  | cons c t ih =>
    by_cases hc : DocComment.isBlank c = true
    · have hhyphen : dottedChar '-' = '-' := by decide
      simp only [hyphenateFrom, hc, if_true, List.map_cons, dottedChar_of_isBlank hc, hhyphen,
        spell_hyphen_hyphen, Bool.false_eq_true, if_false]
      exact ⟨(ih p).2, (ih p).2⟩
    · have hstep : ∀ p, spell p (dottedChar c :: (hyphenateFrom false t).map dottedChar) =
          spell p (dottedChar c :: t.map dottedChar) := by
        intro p
        rw [spell, spell, (ih _).1, (ih _).1]
      have hhyphen : isSeparator '-' = true := rfl
      simp only [hyphenateFrom, hc, Bool.false_eq_true, if_false, List.map_cons]
      exact ⟨hstep p, by rw [spell_separator hhyphen, spell_separator hhyphen, hstep]⟩

theorem dottedOf_trim (t : Text) : dottedOf (trim t) = dottedOf t := by
  rw [dottedOf, trim_trim, dottedOf]

theorem dottedOf_hyphenate (t : Text) : dottedOf (hyphenate t) = dottedOf t := by
  rw [← dottedOf_trim t, dottedOf_eq_spell, dottedOf_eq_spell, hyphenate,
    (spell_map_hyphenateFrom .start (trim t)).1]

end DocComment.Slug
