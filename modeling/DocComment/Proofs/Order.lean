/-
Sorting by comparators that need not be orders.

Everything is said of one more element (`insertionSort_concat`).  It moves back past its neighbours
only while the comparator answers `gt` for the two, so a list in which no neighbour belongs after the
next one stays as it is (`insertionSort_of_isChain`).  To come to the front it has to move past
everything that was there before it, so the first element stays in front while each later one meets
something that it does not move past (`head?_insertionSort_of_staysFirst`).
-/
import DocComment.Order
import Mathlib.Data.List.Chain
import Mathlib.Data.List.Induction

namespace DocComment

section Insertion

variable {α : Type} {compare : α → α → Ordering}

/-- One more element is inserted into what is sorted. -/
theorem insertionSort_concat (l : List α) (x : α) :
    insertionSort compare (l ++ [x]) =
      (insertBack compare x (insertionSort compare l).reverse).reverse := by
  rw [insertionSort, insertionSort, List.reverse_reverse, List.foldl_append, List.foldl_cons,
    List.foldl_nil]

theorem mem_reverse_insertionSort {l : List α} {x : α} :
    x ∈ (insertionSort compare l).reverse ↔ x ∈ l := by
  rw [List.mem_reverse, (insertionSort_perm compare l).mem_iff]

theorem insertionSort_of_isChain {l : List α} (h : l.IsChain fun x y => compare x y ≠ .gt) :
    insertionSort compare l = l := by
  induction l using List.reverseRecOn with
  | nil => rfl
  | append_singleton l x ih =>
    obtain ⟨hl, -, hx⟩ := List.isChain_append.mp h
    have hstays : insertBack compare x l.reverse = x :: l.reverse := by
      cases hdone : l.reverse with
      | nil => rfl
      | cons y done =>
        have hy : y ∈ l.getLast? := by rw [← List.head?_reverse, hdone]; rfl
        rw [insertBack, if_neg (hx y hy x rfl)]
    rw [insertionSort_concat, ih hl, hstays, List.reverse_cons, List.reverse_reverse]

/-- In front of `l`, each element of `l` meets one that it does not move past. -/
def StaysFirst (compare : α → α → Ordering) (b : α) (l : List α) : Prop :=
  ∀ pre x post, l = pre ++ x :: post → ∃ y ∈ b :: pre, compare y x ≠ .gt

theorem StaysFirst.of_append {b : α} {l l' : List α} (h : StaysFirst compare b (l ++ l')) :
    StaysFirst compare b l := by
  intro pre x post hl
  exact h pre x (post ++ l') (by rw [hl, List.append_assoc, List.cons_append])

theorem staysFirst_of_forall {b : α} {l : List α} (h : ∀ x ∈ l, compare b x ≠ .gt) :
    StaysFirst compare b l := by
  rintro pre x post rfl
  exact ⟨b, List.mem_cons_self, h x (by simp)⟩

theorem getLast?_insertBack {x : α} {done : List α} (h : ∃ y ∈ done, compare y x ≠ .gt) :
    (insertBack compare x done).getLast? = done.getLast? := by
  induction done with
  | nil =>
    obtain ⟨y, hy, -⟩ := h
    cases hy
  | cons z done ih =>
    unfold insertBack
    split
    · next hz =>
      -- `x` moves past `z`, so it is another one that it does not move past
      obtain ⟨y, hy, hyx⟩ := h
      rcases List.mem_cons.mp hy with rfl | hy
      · exact absurd hz hyx
      · rw [List.getLast?_cons, List.getLast?_cons, ih ⟨y, hy, hyx⟩]
    · exact List.getLast?_cons_cons

theorem head?_insertionSort_of_staysFirst {b : α} {l : List α} (h : StaysFirst compare b l) :
    (insertionSort compare (b :: l)).head? = some b := by
  induction l using List.reverseRecOn with
  | nil => rfl
  | append_singleton l x ih =>
    obtain ⟨y, hy, hyx⟩ := h l x [] rfl
    rw [← List.cons_append, insertionSort_concat, List.head?_reverse,
      getLast?_insertBack ⟨y, mem_reverse_insertionSort.mpr hy, hyx⟩, List.getLast?_reverse,
      ih h.of_append]

end Insertion

end DocComment
