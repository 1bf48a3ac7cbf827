/-
Tag markers: what the start of a tag looks like, said without a search.

A `Marker` is a star, at most one blank, an at sign, a name of letters and digits and the blanks
after it.  `Marker.IsIn` places one in a line, with all the blanks that follow the name and with
nothing after the name unless a blank parts them.

* `tagHere?_eq_some_iff` — a tag that starts right here is a marker with nothing before it;
* `findTag?_eq_some_iff` — the tag of a line is its leftmost marker;
* `findTag?_eq_none_iff` — a line starts no tag exactly when no marker stands anywhere in it.

`StartsTag` is the property that this comes down to, and the search decides it.
-/
import DocComment.Comment.Section
import DocComment.Proofs.Text.Trim

namespace DocComment

/-- Letters and digits are no blanks, so a name ends where the blanks begin. -/
theorem not_isBlank_of_isAlphanum {c : Char} (h : c.isAlphanum = true) : isBlank c = false := by
  delta Char.isAlphanum Char.isAlpha Char.isUpper Char.isLower Char.isDigit at h
  simp only [Bool.or_eq_true, Bool.and_eq_true, decide_eq_true_eq, UInt32.le_iff_toNat_le,
    ge_iff_le] at h
  change ((65 ≤ c.toNat ∧ c.toNat ≤ 90) ∨ (97 ≤ c.toNat ∧ c.toNat ≤ 122)) ∨
    (48 ≤ c.toNat ∧ c.toNat ≤ 57) at h
  simp only [isBlank, Bool.or_eq_false_iff, Bool.and_eq_false_iff, decide_eq_false_iff_not,
    beq_eq_false_iff_ne]
  omega

namespace Comment

open Text

/-- The text that starts a tag. -/
structure Marker where
  /-- What stands between the star and the at sign. -/
  gap : Text
  name : Text
  /-- The blanks after the name. -/
  pad : Text
  length_gap_le : gap.length ≤ 1
  isBlank_gap : Text.isBlank gap = true
  name_ne_nil : name ≠ []
  isAlphanum_of_mem : ∀ c ∈ name, c.isAlphanum = true
  isBlank_pad : Text.isBlank pad = true

namespace Marker

def text (m : Marker) : Text := '*' :: m.gap ++ '@' :: m.name ++ m.pad

/-- The marker stands in the line, `before` in front of it and `after` behind. -/
structure IsIn (m : Marker) (line before after : Text) : Prop where
  eq : line = before ++ m.text ++ after
  /-- All blanks behind the name are the marker's. -/
  trimStart_after : trimStart after = after
  /-- What follows the name at once would belong to it or spoil it. -/
  after_eq_nil : m.pad = [] → after = []

theorem IsIn.cons {m : Marker} {line before after : Text} (h : m.IsIn line before after)
    (c : Char) : m.IsIn (c :: line) (c :: before) after :=
  ⟨by rw [h.eq]; rfl, h.trimStart_after, h.after_eq_nil⟩

theorem IsIn.tail {m : Marker} {c d : Char} {line before after : Text}
    (h : m.IsIn (c :: line) (d :: before) after) : m.IsIn line before after :=
  ⟨(List.cons.inj h.eq).2, h.trimStart_after, h.after_eq_nil⟩

/-- The marker stands in the line, and no marker stands further left. -/
structure IsFirstIn (m : Marker) (line before after : Text) : Prop where
  isIn : m.IsIn line before after
  length_le : ∀ (m' : Marker) (before' after' : Text), m'.IsIn line before' after' →
    before.length ≤ before'.length

end Marker

/-- A marker stands somewhere in the line. -/
def StartsTag (line : Text) : Prop :=
  ∃ (m : Marker) (before after : Text), m.IsIn line before after

theorem afterMarker?_blank {b : Char} (hb : DocComment.isBlank b = true) (u : Text) :
    afterMarker? ('*' :: b :: '@' :: u) = some u := by
  unfold afterMarker?
  split
  · next v hv =>
    cases hv
    exact absurd hb (by decide)
  · next c v hv =>
    cases hv
    rw [if_pos hb]
  · next h => exact absurd rfl (h b u)

theorem afterMarker?_eq_some_iff {t u : Text} : afterMarker? t = some u ↔
    ∃ gap : Text, gap.length ≤ 1 ∧ Text.isBlank gap = true ∧ t = '*' :: gap ++ '@' :: u := by
  constructor
  · intro h
    unfold afterMarker? at h
    split at h
    · cases h
      exact ⟨[], by simp, rfl, rfl⟩
    · next b v _ =>
      split at h
      · next hb =>
        cases h
        exact ⟨[b], by simp, by rw [Text.isBlank, List.all_cons, hb]; rfl, rfl⟩
      · cases h
    · cases h
  · rintro ⟨gap, hlen, hblank, rfl⟩
    cases gap with
    | nil => rfl
    | cons b gap =>
      obtain rfl : gap = [] := List.length_eq_zero_iff.mp (by simpa using hlen)
      exact afterMarker?_blank (Bool.and_eq_true_iff.mp hblank).1 u

theorem tagHere?_eq_some_iff {t name rest : Text} :
    tagHere? t = some (name, rest) ↔ ∃ m : Marker, m.name = name ∧ m.IsIn t [] rest := by
  constructor
  · intro h
    unfold tagHere? at h
    split at h
    · cases h
    · next u hu =>
      obtain ⟨gap, hlen, hgap, rfl⟩ := afterMarker?_eq_some_iff.mp hu
      have hcut := List.takeWhile_append_dropWhile (p := Char.isAlphanum) (l := u)
      have halnum : ∀ c ∈ u.takeWhile Char.isAlphanum, c.isAlphanum = true :=
        List.all_eq_true.mp List.all_takeWhile
      split at h
      · next hd =>
        dsimp only at h
        split at h
        · cases h
        · next hne =>
          cases h
          rw [hd, List.append_nil] at hcut
          exact ⟨⟨gap, _, [], hlen, hgap, by simpa using hne, halnum, rfl⟩, rfl,
            ⟨by simp [Marker.text, hcut], rfl, fun _ => rfl⟩⟩
      · next c r hd =>
        dsimp only at h
        split at h
        · cases h
        · next hne =>
          cases h
          rw [Bool.not_eq_true, Bool.or_eq_false_iff] at hne
          obtain ⟨hname, hc⟩ := hne
          have hc : DocComment.isBlank c = true := by simpa using hc
          -- the marker takes the blank `c` and all that follow it
          have hpad := List.takeWhile_append_dropWhile (p := DocComment.isBlank) (l := r)
          refine ⟨⟨gap, _, c :: r.takeWhile DocComment.isBlank, hlen, hgap, by simpa using hname,
            halnum, ?_⟩, rfl, ⟨?_, trimStart_trimStart r, fun hnil => by simp at hnil⟩⟩
          · rw [Text.isBlank, List.all_cons, hc, List.all_takeWhile]
            rfl
          · rw [hd] at hcut
            simp [Marker.text, trimStart, hpad, hcut]
  · rintro ⟨m, rfl, h⟩
    have hafter : afterMarker? t = some (m.name ++ (m.pad ++ rest)) :=
      afterMarker?_eq_some_iff.mpr
        ⟨m.gap, m.length_gap_le, m.isBlank_gap, by rw [h.eq]; simp [Marker.text]⟩
    have hname : m.name.isEmpty = false := by simpa using m.name_ne_nil
    rw [tagHere?, hafter]
    dsimp only
    rw [List.dropWhile_append_of_pos m.isAlphanum_of_mem,
      List.takeWhile_append_of_pos m.isAlphanum_of_mem]
    cases hpad : m.pad with
    | nil => simp [h.after_eq_nil hpad, hname]
    | cons c pad =>
      obtain ⟨hc, hblank⟩ := Bool.and_eq_true_iff.mp (hpad ▸ m.isBlank_pad)
      have hstop : c.isAlphanum = false := by
        cases halnum : c.isAlphanum with
        | false => rfl
        | true => rw [not_isBlank_of_isAlphanum halnum] at hc; cases hc
      rw [List.cons_append, List.dropWhile_cons_of_neg (by simp [hstop]),
        List.takeWhile_cons_of_neg (by simp [hstop])]
      simp [hname, hc, trimStart_append_of_blank hblank, h.trimStart_after]

theorem tagHere?_eq_none_iff {t : Text} :
    tagHere? t = none ↔ ∀ (m : Marker) (rest : Text), ¬m.IsIn t [] rest := by
  constructor
  · intro h m rest hm
    rw [tagHere?_eq_some_iff.mpr ⟨m, rfl, hm⟩] at h
    cases h
  · intro h
    cases ht : tagHere? t with
    | none => rfl
    | some p =>
      obtain ⟨m, -, hm⟩ := tagHere?_eq_some_iff.mp ht
      exact absurd hm (h m p.2)

/-- The tag of a line is the leftmost of its markers. -/
theorem findTag?_eq_some_iff {line before name after : Text} :
    findTag? line = some (before, name, after) ↔
      ∃ m : Marker, m.name = name ∧ m.IsFirstIn line before after := by
  induction line generalizing before with
  | nil =>
    refine ⟨fun h => by simp [findTag?] at h, ?_⟩
    rintro ⟨m, -, hm, -⟩
    simpa [Marker.text] using hm.eq
  | cons c t ih =>
    unfold findTag?
    split
    · next name₀ rest₀ h₀ =>
      obtain ⟨m₀, rfl, hm₀⟩ := tagHere?_eq_some_iff.mp h₀
      constructor
      · intro h
        cases h
        exact ⟨m₀, rfl, hm₀, fun _ _ _ _ => Nat.zero_le _⟩
      · rintro ⟨m, rfl, hm, hfirst⟩
        obtain rfl : before = [] := List.length_eq_zero_iff.mp (Nat.le_zero.mp (hfirst m₀ [] _ hm₀))
        rw [tagHere?_eq_some_iff.mpr ⟨m, rfl, hm⟩] at h₀
        rw [Option.some.inj h₀]
    · next h₀ =>
      have hnone := tagHere?_eq_none_iff.mp h₀
      constructor
      · intro h
        obtain ⟨⟨a, n, r⟩, ht, heq⟩ := Option.map_eq_some_iff.mp h
        cases heq
        obtain ⟨m, hname, hm, hfirst⟩ := ih.mp ht
        refine ⟨m, hname, hm.cons c, fun m' before' after' hm' => ?_⟩
        cases before' with
        | nil => exact absurd hm' (hnone m' after')
        | cons d b => exact Nat.succ_le_succ (hfirst m' b after' hm'.tail)
      · rintro ⟨m, hname, hm, hfirst⟩
        cases before with
        | nil => exact absurd hm (hnone m after)
        | cons d b =>
          obtain rfl : c = d := (List.cons.inj hm.eq).1
          rw [ih.mpr ⟨m, hname, hm.tail, fun m' b' a' hm' =>
            Nat.le_of_succ_le_succ (hfirst m' (c :: b') a' (hm'.cons c))⟩]
          rfl

theorem findTag?_eq_none_iff {line : Text} : findTag? line = none ↔ ¬StartsTag line := by
  induction line with
  | nil =>
    refine ⟨fun _ => ?_, fun _ => rfl⟩
    rintro ⟨m, before, after, hm⟩
    simpa [Marker.text] using hm.eq
  | cons c t ih =>
    unfold findTag?
    split
    · next name₀ rest₀ h₀ =>
      obtain ⟨m₀, -, hm₀⟩ := tagHere?_eq_some_iff.mp h₀
      exact ⟨fun h => (by cases h), fun h => absurd ⟨m₀, [], rest₀, hm₀⟩ h⟩
    · next h₀ =>
      rw [Option.map_eq_none_iff, ih]
      constructor
      · rintro h ⟨m, before, after, hm⟩
        cases before with
        | nil => exact tagHere?_eq_none_iff.mp h₀ m after hm
        | cons d b => exact h ⟨m, b, after, hm.tail⟩
      · rintro h ⟨m, before, after, hm⟩
        exact h ⟨m, c :: before, after, hm.cons c⟩

theorem isSome_findTag?_iff {line : Text} : (findTag? line).isSome = true ↔ StartsTag line := by
  rw [← Option.ne_none_iff_isSome, Ne, findTag?_eq_none_iff, Classical.not_not]

instance : DecidablePred StartsTag := fun _ => decidable_of_iff _ isSome_findTag?_iff

/-- A line without a star starts no tag. -/
theorem findTag?_of_notMem {line : Text} (h : '*' ∉ line) : findTag? line = none := by
  refine findTag?_eq_none_iff.mpr ?_
  rintro ⟨m, before, after, hm⟩
  refine h ?_
  rw [hm.eq]
  simp [Marker.text]

end Comment

end DocComment
