/-
Entries as a grouping.

Pushing entries one after the other groups them by tag: `ofList_eq_grouped` says that what comes
out is every tag once, in the order in which the tags first occur, each with all its occurrences in
their order.  Both views of a keyed list are followed through the pushes, `tags_ofList` and
`get?_ofList`, and they are all there is to it.
-/
import DocComment.Comment.Entry
import DocComment.Proofs.Keyed
import Mathlib.Data.List.Induction

namespace DocComment.Entries

/-- The entries by tag, tags in the order of their first occurrences. -/
def grouped (l : List Entry) : Entries :=
  (l.map Entry.tag).eraseDups.map fun tag => (tag, l.filter fun e => e.tag = tag)

theorem ofList_concat (l : List Entry) (e : Entry) : ofList (l ++ [e]) = (ofList l).push e :=
  ofList_append l [e]

theorem tags_ofList (l : List Entry) : (ofList l).tags = (l.map Entry.tag).eraseDups :=
  Keyed.keys_foldl_alter Entry.tag (fun e old => old.getD [] ++ [e]) l

theorem nodup_tags_ofList (l : List Entry) : (ofList l).tags.Nodup := by
  induction l using List.reverseRecOn with
  | nil => exact List.nodup_nil
  | append_singleton l e ih =>
    rw [ofList_concat]
    exact Keyed.nodup_keys_alter ih e.tag _

theorem get?_ofList (l : List Entry) (tag : String) :
    Keyed.get? (ofList l) tag =
      if tag ∈ l.map Entry.tag then some (l.filter fun e => e.tag = tag) else none := by
  induction l using List.reverseRecOn generalizing tag with
  | nil => rfl
  | append_singleton l e ih =>
    rw [ofList_concat, get?_push, List.map_append, List.filter_append]
    by_cases htag : tag = e.tag
    · subst htag
      have hold : (Keyed.get? (ofList l) e.tag).getD [] = l.filter fun e' => e'.tag = e.tag := by
        rw [ih]
        split
        · rfl
        · next h =>
          refine (List.filter_eq_nil_iff.mpr fun e' he' heq => h ?_).symm
          exact List.mem_map.mpr ⟨e', he', of_decide_eq_true heq⟩
      rw [if_pos rfl, hold]
      simp
    · rw [if_neg htag, ih]
      simp [htag, Ne.symm htag]

theorem mem_of_mem_ofList {l : List Entry} {p : String × List Entry} (hp : p ∈ ofList l) {e : Entry}
    (he : e ∈ p.2) : e ∈ l := by
  have hget := Keyed.get?_of_mem (nodup_tags_ofList l) hp
  rw [get?_ofList] at hget
  split at hget
  · rw [← Option.some.inj hget] at he
    exact (List.mem_filter.mp he).1
  · cases hget

/-! ### Pushing one list after the other -/

/-- The tags of the second list that are new come behind those of the first. -/
theorem tags_ofList_append (l l' : List Entry) :
    (ofList (l ++ l')).tags =
      (ofList l).tags ++ (ofList l').tags.filter fun tag => tag ∉ (ofList l).tags := by
  have hcontains (l : List Entry) (tag : String) :
      Keyed.contains (ofList l) tag = true ↔ tag ∈ (ofList l).tags := Keyed.contains_iff_mem_keys
  induction l' using List.reverseRecOn with
  | nil => rw [List.append_nil]; exact (List.append_nil _).symm
  | append_singleton l' e ih =>
    rw [← List.append_assoc, ofList_concat, ofList_concat, tags_push, tags_push]
    simp only [hcontains, ih]
    -- the last entry has a tag of the first list, a tag of the second one, or a new one
    by_cases hfirst : e.tag ∈ (ofList l).tags
    · have hmem : e.tag ∈ (ofList l).tags ++
          (ofList l').tags.filter fun tag => tag ∉ (ofList l).tags :=
        List.mem_append_left _ hfirst
      rw [if_pos hmem]
      split
      · rfl
      · simp [List.filter_append, hfirst]
    · by_cases hsecond : e.tag ∈ (ofList l').tags
      · rw [if_pos hsecond, if_pos (by simp [hfirst, hsecond])]
      · rw [if_neg hsecond, if_neg (by simp [hfirst, hsecond]), List.filter_append,
          List.append_assoc]
        simp [hfirst]

theorem getD_get?_ofList (l : List Entry) (tag : String) :
    (Keyed.get? (ofList l) tag).getD [] = l.filter fun e => e.tag = tag := by
  rw [get?_ofList]
  split
  · rfl
  · next h =>
    refine (List.filter_eq_nil_iff.mpr fun e he heq => h ?_).symm
    exact List.mem_map.mpr ⟨e, he, of_decide_eq_true heq⟩

/-- Under each tag the entries of the second list come behind those of the first. -/
theorem getD_get?_ofList_append (l l' : List Entry) (tag : String) :
    (Keyed.get? (ofList (l ++ l')) tag).getD [] =
      (Keyed.get? (ofList l) tag).getD [] ++ (Keyed.get? (ofList l') tag).getD [] := by
  rw [getD_get?_ofList, getD_get?_ofList, getD_get?_ofList, List.filter_append]

/-- The first entry of a tag is the first one that was pushed. -/
theorem first?_ofList (l : List Entry) (tag : String) :
    first? (ofList l) tag = l.find? fun e => e.tag = tag := by
  rw [first?, get?_ofList]
  split
  · exact List.head?_filter
  · next h =>
    refine (List.find?_eq_none.mpr fun e he htag => ?_).symm
    exact h (List.mem_map.mpr ⟨e, he, of_decide_eq_true htag⟩)

theorem get?_grouped (l : List Entry) (tag : String) :
    Keyed.get? (grouped l) tag =
      if tag ∈ l.map Entry.tag then some (l.filter fun e => e.tag = tag) else none := by
  have hmap : ∀ tags : List String,
      Keyed.get? (tags.map fun t => (t, l.filter fun e => e.tag = t)) tag =
        if tag ∈ tags then some (l.filter fun e => e.tag = tag) else none := by
    intro tags
    induction tags with
    | nil => rfl
    | cons t tags ih =>
      by_cases h : t = tag
      · simp [Keyed.get?, h]
      · simp only [List.map_cons, Keyed.get?, if_neg h, ih, List.mem_cons, Ne.symm h, false_or]
  rw [grouped, hmap]
  simp only [List.mem_eraseDups]

/-- **Pushing groups**: the tags in the order of their first occurrences, under each tag all its
entries in their order. -/
theorem ofList_eq_grouped (l : List Entry) : ofList l = grouped l := by
  refine Keyed.ext_of_keys ?_ (nodup_tags_ofList l) fun tag => ?_
  · show (ofList l).tags = _
    rw [tags_ofList, grouped, Keyed.keys, List.map_map]
    exact (List.map_id' _).symm
  · rw [get?_ofList, get?_grouped]

end DocComment.Entries
