/-
Tokens one after the other.

* `tokens?_cons` — at a character that is no gap a token is read, and the tokens behind it follow;
* `tokens?_gap_append` — gaps do not count;
* `tokens?_string` — a text in which every character stands for itself (`IsVerbatim`), between
  quotes, is the token of this text.
-/
import DocComment.Json.Token

namespace DocComment.Json

theorem tokens?_gap_append {g : Text} (h : ∀ c ∈ g, isGap c = true) (t : Text) :
    tokens? (g ++ t) = tokens? t := by
  induction g with
  | nil => rfl
  | cons c g ih =>
    obtain ⟨hc, hg⟩ := List.forall_mem_cons.mp h
    rw [List.cons_append, tokens?, if_pos hc, ih hg]

theorem tokens?_cons {c : Char} (hc : isGap c = false) (t : Text) :
    tokens? (c :: t) = (tokenHere? c t).bind fun p => (tokens? p.2).map (p.1 :: ·) := by
  rw [tokens?, if_neg (by simp [hc])]
  split
  · next h => rw [h]; rfl
  · next h => rw [h]; rfl

/-- In a string these characters stand for themselves: no quote, no backslash, no control
character. -/
structure IsVerbatim (t : Text) : Prop where
  quote_notMem : '"' ∉ t
  backslash_notMem : '\\' ∉ t
  le_toNat_of_mem : ∀ c ∈ t, 0x20 ≤ c.toNat

instance (t : Text) : Decidable (IsVerbatim t) :=
  decidable_of_iff ('"' ∉ t ∧ '\\' ∉ t ∧ t.all (0x20 ≤ ·.toNat) = true)
    ⟨fun ⟨h₁, h₂, h₃⟩ => ⟨h₁, h₂, by simpa using h₃⟩,
      fun ⟨h₁, h₂, h₃⟩ => ⟨h₁, h₂, by simpa using h₃⟩⟩

theorem stringBody?_cons_of_verbatim {c : Char} (hquote : c ≠ '"') (hbackslash : c ≠ '\\')
    (hcontrol : 0x20 ≤ c.toNat) (t : Text) :
    stringBody? (c :: t) = (stringBody? t).map fun p => (c :: p.1, p.2) := by
  have hkept : ¬(c.toNat < 0x20 || c == '\\') = true := by simp [hbackslash, hcontrol]
  rw [stringBody?.eq_def]
  split
  · next h => exact absurd (List.cons.inj h).1 hquote
  · next h => exact absurd (List.cons.inj h).1 hbackslash
  · next h => exact absurd (List.cons.inj h).1 hbackslash
  · next h =>
    obtain ⟨rfl, rfl⟩ := List.cons.inj h
    rw [if_neg hkept]
  · next h => cases h

theorem stringBody?_append {s : Text} (h : IsVerbatim s) (t : Text) :
    stringBody? (s ++ '"' :: t) = some (s, t) := by
  induction s with
  | nil => rfl
  | cons c s ih =>
    obtain ⟨hquote, hbackslash, hcontrol⟩ := h
    rw [List.mem_cons, not_or] at hquote hbackslash
    rw [List.forall_mem_cons] at hcontrol
    rw [List.cons_append, stringBody?_cons_of_verbatim (Ne.symm hquote.1) (Ne.symm hbackslash.1)
      hcontrol.1, ih ⟨hquote.2, hbackslash.2, hcontrol.2⟩]
    rfl

theorem tokens?_string {s : Text} (h : IsVerbatim s) (t : Text) :
    tokens? ('"' :: (s ++ '"' :: t)) = (tokens? t).map (.string (String.ofList s) :: ·) := by
  rw [tokens?_cons rfl]
  show ((stringBody? (s ++ '"' :: t)).map _).bind _ = _
  rw [stringBody?_append h]
  rfl

end DocComment.Json
