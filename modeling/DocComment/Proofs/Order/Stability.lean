/-
What a sort keeps, for comparators that are orders and for those that are not.

Every fact goes from one more element to the list.  The element moves back past neighbours that
belong after it and stays behind the first that does not, so it is enough to know what it moved past.

* `isChain_insertionSort` — if the comparator never puts two elements each behind the other, no
  neighbour belongs after the next one, cycles or not;
* `filter_insertionSort` — elements of which none belongs after a later one of them stay in sequence,
  whatever lies between them;
* `filter_insertionSort_reverse` — elements that move past everything come out in reverse;
* `isStableSort_iff` — for a total preorder the result is the one stable sorting of the list, and
  `Order.byWeight` is a total preorder.
-/
import DocComment.Proofs.Order
import Mathlib.Data.List.Chain
import Mathlib.Data.List.Induction
import Mathlib.Data.List.Perm.Basic

namespace DocComment

section Insertion

variable {α : Type} {compare : α → α → Ordering}

/-! ### Neighbours -/

/-- No two elements, at different places of the list, belong each behind the other. -/
def IsOneSided (compare : α → α → Ordering) (l : List α) : Prop :=
  l.Pairwise fun x y => ¬(compare x y = .gt ∧ compare y x = .gt)

instance (compare : α → α → Ordering) (l : List α) : Decidable (IsOneSided compare l) :=
  inferInstanceAs (Decidable (l.Pairwise _))

theorem isOneSided_of_orientedCmp [Std.OrientedCmp compare] (l : List α) :
    IsOneSided compare l :=
  List.pairwise_of_forall fun _ _ h => Std.OrientedCmp.not_gt_of_gt h.1 h.2

/-- The last element is the one that came, or was last before. -/
theorem mem_head?_insertBack {x z : α} {done : List α}
    (h : z ∈ (insertBack compare x done).head?) : z = x ∨ z ∈ done.head? := by
  cases done with
  | nil => exact .inl (Option.some.inj h).symm
  | cons y done =>
    unfold insertBack at h
    split at h
    · exact .inr h
    · exact .inl (Option.some.inj h).symm

/-- An element that moves past others belongs in front of the one that it moved past last. -/
theorem isChain_insertBack {x : α} {done : List α}
    (hx : ∀ y ∈ done, ¬(compare y x = .gt ∧ compare x y = .gt))
    (hdone : done.IsChain fun y z => compare z y ≠ .gt) :
    (insertBack compare x done).IsChain fun y z => compare z y ≠ .gt := by
  induction done with
  | nil => exact List.isChain_singleton x
  | cons y done ih =>
    obtain ⟨hhead, htail⟩ := List.isChain_cons.mp hdone
    unfold insertBack
    split
    · next hyx =>
      have hxy : compare x y ≠ .gt := fun hxy => hx y List.mem_cons_self ⟨hyx, hxy⟩
      refine List.isChain_cons.mpr ⟨fun z hz => ?_, ?_⟩
      · rcases mem_head?_insertBack hz with rfl | hz
        · exact hxy
        · exact hhead z hz
      · exact ih (fun z hz => hx z (List.mem_cons_of_mem y hz)) htail
    · next hyx => exact List.isChain_cons_cons.mpr ⟨hyx, hdone⟩

theorem isChain_insertionSort {l : List α} (h : IsOneSided compare l) :
    (insertionSort compare l).IsChain fun x y => compare x y ≠ .gt := by
  induction l using List.reverseRecOn with
  | nil => exact List.isChain_nil
  | append_singleton l x ih =>
    obtain ⟨hl, -, hx⟩ := List.pairwise_append.mp h
    rw [insertionSort_concat, List.isChain_reverse]
    refine isChain_insertBack (fun y hy => ?_) (List.isChain_reverse.mpr (ih hl))
    exact hx y (mem_reverse_insertionSort.mp hy) x List.mem_cons_self

/-- **Sorting ends whatever the comparator says, and mends every neighbourhood if it is one-sided.**
The result has the elements of the list; and if no two of these belong each behind the other, no
neighbour belongs after the next one, so that sorting once more changes nothing. -/
theorem insertionSort_settles (compare : α → α → Ordering) (l : List α) :
    (insertionSort compare l).Perm l ∧
      (IsOneSided compare l →
        (insertionSort compare l).IsChain (fun x y => compare x y ≠ .gt) ∧
          insertionSort compare (insertionSort compare l) = insertionSort compare l) := by
  refine ⟨insertionSort_perm compare l, fun h => ?_⟩
  have hchain := isChain_insertionSort h
  exact ⟨hchain, insertionSort_of_isChain hchain⟩

/-- Each of three belongs behind the next one, and the last behind the first. -/
def cyclic (x y : Fin 3) : Ordering := if x + 1 = y then .gt else .lt

theorem insertionSort_settles_cyclic :
    IsOneSided cyclic [0, 1, 2, 0, 1, 2] ∧
      (insertionSort cyclic [0, 1, 2, 0, 1, 2]).IsChain (fun x y => cyclic x y ≠ .gt) ∧
        insertionSort cyclic (insertionSort cyclic [0, 1, 2, 0, 1, 2]) =
          insertionSort cyclic [0, 1, 2, 0, 1, 2] := by
  have h : IsOneSided cyclic [0, 1, 2, 0, 1, 2] := by decide
  exact ⟨h, (insertionSort_settles cyclic _).2 h⟩

/-! ### Some of the elements -/

variable {p : α → Bool}

theorem filter_insertBack {x : α} {done : List α}
    (h : p x = true → ∀ y ∈ done, p y = true → compare y x ≠ .gt) :
    (insertBack compare x done).filter p = (x :: done).filter p := by
  induction done with
  | nil => rfl
  | cons y done ih =>
    have ih := ih fun hpx z hz => h hpx z (List.mem_cons_of_mem y hz)
    unfold insertBack
    split
    · next hyx =>
      cases hpx : p x with
      | false => simp [hpx, List.filter_cons, ih]
      | true =>
        -- `x` moves past `y`, so `y` is none of them
        have hpy : p y = false := by
          rw [← Bool.not_eq_true]
          exact fun hpy => h hpx y List.mem_cons_self hpy hyx
        simp [hpx, hpy, ih]
    · rfl

/-- Elements of which none belongs after a later one stay in sequence. -/
theorem filter_insertionSort {l : List α}
    (h : (l.filter p).Pairwise fun x y => compare x y ≠ .gt) :
    (insertionSort compare l).filter p = l.filter p := by
  induction l using List.reverseRecOn with
  | nil => rfl
  | append_singleton l x ih =>
    rw [List.filter_append, List.pairwise_append] at h
    obtain ⟨hl, -, hx⟩ := h
    rw [insertionSort_concat, List.filter_reverse, filter_insertBack, ← List.filter_reverse,
      List.reverse_cons, List.reverse_reverse, List.filter_append, List.filter_append, ih hl]
    intro hpx y hy hpy
    have hy : y ∈ l.filter p := List.mem_filter.mpr ⟨mem_reverse_insertionSort.mp hy, hpy⟩
    exact hx y hy x (by simp [hpx])

theorem insertBack_of_forall {x : α} {done : List α} (h : ∀ y ∈ done, compare y x = .gt) :
    insertBack compare x done = done ++ [x] := by
  induction done with
  | nil => rfl
  | cons y done ih =>
    rw [insertBack, if_pos (h y List.mem_cons_self),
      ih fun z hz => h z (List.mem_cons_of_mem y hz), List.cons_append]

/-- Elements that belong in front of all that came before them come out in reverse. -/
theorem filter_insertionSort_reverse {l : List α}
    (h : l.Pairwise fun x y => p y = true → compare x y = .gt) :
    (insertionSort compare l).filter p = (l.filter p).reverse := by
  induction l using List.reverseRecOn with
  | nil => rfl
  | append_singleton l x ih =>
    obtain ⟨hl, -, hx⟩ := List.pairwise_append.mp h
    rw [insertionSort_concat, List.filter_append, List.reverse_append, ← ih hl]
    cases hpx : p x with
    | true =>
      have hpast : ∀ y ∈ (insertionSort compare l).reverse, compare y x = .gt := fun y hy =>
        hx y (mem_reverse_insertionSort.mp hy) x List.mem_cons_self hpx
      rw [insertBack_of_forall hpast]
      simp [hpx]
    | false =>
      rw [List.filter_reverse, filter_insertBack (by simp [hpx])]
      simp [hpx]

/-! ### Total preorders -/

/-- The elements that compare equal to `a`, in the sequence of the list. -/
def equalTo (compare : α → α → Ordering) (a : α) (l : List α) : List α :=
  l.filter fun x => compare a x == .eq

theorem mem_equalTo {a x : α} {l : List α} :
    x ∈ equalTo compare a l ↔ x ∈ l ∧ compare a x = .eq := by
  rw [equalTo, List.mem_filter, beq_iff_eq]

theorem equalTo_cons (a x : α) (l : List α) :
    equalTo compare a (x :: l) =
      if compare a x = .eq then x :: equalTo compare a l else equalTo compare a l := by
  simp [equalTo, List.filter_cons]

/-- A sorting of `l` in which elements that compare equal come in the sequence of `l`. -/
structure IsStableSort (compare : α → α → Ordering) (l m : List α) : Prop where
  perm : m.Perm l
  pairwise : m.Pairwise fun x y => compare x y ≠ .gt
  equalTo_eq : ∀ a, equalTo compare a m = equalTo compare a l

section TotalPreorder

variable [Std.TransCmp compare] {l m m' : List α}

theorem ne_gt_trans {x y z : α} (hxy : compare x y ≠ .gt) (hyz : compare y z ≠ .gt) :
    compare x z ≠ .gt := by
  rw [ne_eq, ← Ordering.isLE_iff_ne_gt] at hxy hyz ⊢
  exact Std.TransCmp.isLE_trans hxy hyz

theorem isStableSort_insertionSort (l : List α) :
    IsStableSort compare l (insertionSort compare l) where
  perm := insertionSort_perm compare l
  pairwise := by
    -- in a chain of a transitive relation any two elements are related, not only neighbours
    have htrans : Trans (fun x y => compare x y ≠ .gt) (fun x y => compare x y ≠ .gt)
        (fun x y => compare x y ≠ .gt) := ⟨ne_gt_trans⟩
    exact List.isChain_iff_pairwise.mp (isChain_insertionSort (isOneSided_of_orientedCmp l))
  equalTo_eq a := by
    refine filter_insertionSort (List.pairwise_of_forall_mem_list fun x hx y hy => ?_)
    have hxy : compare x y = .eq :=
      Std.TransCmp.eq_trans (Std.OrientedCmp.eq_symm (mem_equalTo.mp hx).2) (mem_equalTo.mp hy).2
    rw [hxy]
    decide

theorem mem_of_equalTo_eq (h : ∀ a, equalTo compare a m = equalTo compare a m') {x : α}
    (hx : x ∈ m) : x ∈ m' := by
  have hself : x ∈ equalTo compare x m := mem_equalTo.mpr ⟨hx, Std.ReflCmp.compare_self⟩
  rw [h x] at hself
  exact (mem_equalTo.mp hself).1

theorem isLE_of_mem_of_pairwise {x y : α}
    (hm : (x :: m).Pairwise fun x y => compare x y ≠ .gt) (hy : y ∈ x :: m) :
    (compare x y).isLE = true := by
  rcases List.mem_cons.mp hy with rfl | hy
  · have hself : compare y y = .eq := Std.ReflCmp.compare_self
    rw [hself]
    rfl
  · exact Ordering.isLE_iff_ne_gt.mpr (List.rel_of_pairwise_cons hm hy)

/-- Sorted lists in which the equals of each element come in the same sequence are the same. -/
theorem eq_of_pairwise_of_equalTo_eq (hm : m.Pairwise fun x y => compare x y ≠ .gt)
    (hm' : m'.Pairwise fun x y => compare x y ≠ .gt)
    (h : ∀ a, equalTo compare a m = equalTo compare a m') : m = m' := by
  induction m generalizing m' with
  | nil =>
    refine (List.eq_nil_iff_forall_not_mem.mpr fun y hy => ?_).symm
    exact List.not_mem_nil (mem_of_equalTo_eq (fun a => (h a).symm) hy)
  | cons x m ih =>
    obtain _ | ⟨y, m'⟩ := m'
    · exact absurd (mem_of_equalTo_eq h List.mem_cons_self) List.not_mem_nil
    · -- each head is in the other list, so neither belongs behind the other
      have hy : y ∈ x :: m := mem_of_equalTo_eq (fun a => (h a).symm) List.mem_cons_self
      have hx : x ∈ y :: m' := mem_of_equalTo_eq h List.mem_cons_self
      have hxy : compare x y = .eq :=
        Std.OrientedCmp.isLE_antisymm (isLE_of_mem_of_pairwise hm hy)
          (isLE_of_mem_of_pairwise hm' hx)
      have hheads := h x
      rw [equalTo_cons, equalTo_cons, if_pos Std.ReflCmp.compare_self, if_pos hxy] at hheads
      obtain rfl : x = y := (List.cons.inj hheads).1
      refine congrArg (x :: ·) (ih hm.of_cons hm'.of_cons fun a => ?_)
      have ha := h a
      rw [equalTo_cons, equalTo_cons] at ha
      split at ha
      · exact (List.cons.inj ha).2
      · exact ha

theorem IsStableSort.eq_insertionSort (h : IsStableSort compare l m) :
    m = insertionSort compare l :=
  eq_of_pairwise_of_equalTo_eq h.pairwise (isStableSort_insertionSort l).pairwise fun a =>
    (h.equalTo_eq a).trans ((isStableSort_insertionSort l).equalTo_eq a).symm

end TotalPreorder

/-- One order after another: fewer signals first, then shorter names. -/
theorem transCmp_byWeight : Std.TransCmp Order.byWeight :=
  inferInstanceAs (Std.TransCmp (compareLex (compareOn Order.weight) (compareOn Order.nameLength)))

/-- **For a total preorder the result is the one stable sorting of the list.**  A comparator is one
(`Std.TransCmp`) if swapping two elements swaps the answer, less for greater and equal for equal, and
if not being greater is transitive.  The order by weight is one on all records, so sorting by it has
one result. -/
theorem isStableSort_iff :
    (∀ {α : Type} (compare : α → α → Ordering) [Std.TransCmp compare] (l m : List α),
      IsStableSort compare l m ↔ m = insertionSort compare l) ∧
    Std.TransCmp Order.byWeight ∧
    ∀ l m : List Record, IsStableSort Order.byWeight l m ↔ m = insertionSort Order.byWeight l := by
  have hiff : ∀ {α : Type} (compare : α → α → Ordering) [Std.TransCmp compare] (l m : List α),
      IsStableSort compare l m ↔ m = insertionSort compare l := by
    intro α compare _ l m
    refine ⟨IsStableSort.eq_insertionSort, ?_⟩
    rintro rfl
    exact isStableSort_insertionSort l
  have hweight := transCmp_byWeight
  exact ⟨hiff, hweight, hiff Order.byWeight⟩

/-- Two pairs of equals. -/
def tiedPairs : List (Nat × Char) := [(1, 'a'), (0, 'b'), (1, 'c'), (0, 'd')]

theorem isStableSort_iff_tiedPairs :
    Std.TransCmp (compareOn (Prod.fst : Nat × Char → Nat)) ∧
      IsStableSort (compareOn Prod.fst) tiedPairs [(0, 'b'), (0, 'd'), (1, 'a'), (1, 'c')] := by
  have htrans : Std.TransCmp (compareOn (Prod.fst : Nat × Char → Nat)) := inferInstance
  exact ⟨htrans, (isStableSort_iff.1 (compareOn Prod.fst) tiedPairs _).mpr (by decide)⟩

end Insertion

end DocComment
