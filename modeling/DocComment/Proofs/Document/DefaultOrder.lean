/-
Which blocks the default order leaves in the sequence of the text.

The default order looks at the signals of the second block alone, and a block with a signal belongs
in front of every other, whatever signals that one has.  So two blocks that it cannot tell apart stay
as they are if they have no signal, and change places if they have one:

* `alikeTo_insertionSort` — what sorting does to the blocks that are alike;
* `parse_alikeTo` — the same for a document that was parsed;
* `not_forall_alikeTo` — a document in which blocks that are alike change places.
-/
import DocComment.Proofs.Document
import DocComment.Proofs.Order.Stability

namespace DocComment

namespace Order

/-- The default order sees no difference: the same signals, and names of the same length. -/
def isAlike (a b : Record) : Bool := signals a == signals b && nameLength a == nameLength b

theorem isAlike_iff {a b : Record} :
    isAlike a b = true ↔ signals a = signals b ∧ nameLength a = nameLength b := by
  rw [isAlike, Bool.and_eq_true, beq_iff_eq, beq_iff_eq]

theorem weight_eq_of_isAlike {a b : Record} (h : isAlike a b = true) : weight a = weight b := by
  rw [weight, weight, (isAlike_iff.mp h).1]

theorem heuristic_eq_gt_iff {a b : Record} :
    heuristic a b = .gt ↔ weight b ≠ 0 ∨ nameLength a < nameLength b := by
  rw [heuristic, Nat.compare_eq_gt, delta]
  split <;> omega

end Order

namespace Document

/-- The blocks that the default order cannot tell from `r`, in sequence. -/
def alikeTo (r : Record) (bs : List Block) : List Block :=
  bs.filter fun b => Order.isAlike r b.record

theorem alikeTo_insertionSort (r : Record) (bs : List Block) :
    alikeTo r (insertionSort (fun a b => Order.heuristic a.record b.record) bs) =
      if Order.weight r = 0 then alikeTo r bs else (alikeTo r bs).reverse := by
  split
  · next hr =>
    refine filter_insertionSort (List.pairwise_of_forall_mem_list fun a ha b hb => ?_)
    have ha := (List.mem_filter.mp ha).2
    have hb := (List.mem_filter.mp hb).2
    have hweight : Order.weight b.record = 0 := (Order.weight_eq_of_isAlike hb).symm.trans hr
    have hlength : Order.nameLength a.record = Order.nameLength b.record :=
      (Order.isAlike_iff.mp ha).2.symm.trans (Order.isAlike_iff.mp hb).2
    rw [ne_eq, Order.heuristic_eq_gt_iff, hweight, hlength]
    omega
  · next hr =>
    refine filter_insertionSort_reverse (List.pairwise_of_forall fun a b hb => ?_)
    rw [Order.heuristic_eq_gt_iff, ← Order.weight_eq_of_isAlike hb]
    exact .inl hr

/-- **The default order keeps equals in place if they have no signal, and turns them round if they
have one.**  Among the blocks of a document that it cannot tell apart from a record without a
signal, parsing leaves the sequence of the text; those that it cannot tell apart from a record with
a signal come in reverse. -/
theorem parse_alikeTo (d : Document) (horder : d.options.order = Order.heuristic)
    {filter : TagFilter} {registry : Registry} (hfilter : d.options.fullFilter = .ok filter)
    (hregistry : d.options.fullRegistry = .ok registry) :
    let kept := keptBlocks d.options filter registry d.source
    ∃ d' bs,
      d.parse = .ok (d', reported d.options filter registry d.source) ∧ d'.Shows bs ∧
      bs.Perm kept ∧
      ∀ r : Record,
        alikeTo r bs = if Order.weight r = 0 then alikeTo r kept else (alikeTo r kept).reverse := by
  intro kept
  refine ⟨_, _, parse_eq hfilter hregistry, shows_of_blocks? rfl, insertionSort_perm _ _, ?_⟩
  intro r
  rw [horder]
  exact alikeTo_insertionSort r kept

/-- The names of the blocks. -/
def namesOf (bs : List Block) : List (Option String) :=
  bs.map fun b => (Keyed.get? b.record "name").bind Value.string?

theorem namesOf_reverse (bs : List Block) : namesOf bs.reverse = (namesOf bs).reverse :=
  List.map_reverse

/-- Two blocks without a signal, and two with a namespace. -/
def fourBlocks : Document where
  source := "/** @name ab */ /** @name cd */ /**\n * @name ef\n * @namespace n\n */ " ++
    "/**\n * @name gh\n * @namespace n\n */"
  options := {}

/-- A record that nothing tells from the first two. -/
def withoutSignal : Record := [("name", .text "xy")]

/-- A record that nothing tells from the other two. -/
def withNamespace : Record := [("name", .text "xy"), ("namespace", .text "z")]

theorem parse_alikeTo_fourBlocks :
    fourBlocks.options.order = Order.heuristic ∧ fourBlocks.options.fullFilter = .ok [] ∧
    fourBlocks.options.fullRegistry = .ok .builtin ∧
    ∃ d' bs,
      fourBlocks.parse = .ok (d', reported fourBlocks.options [] .builtin fourBlocks.source) ∧
      d'.Shows bs ∧ namesOf (alikeTo withoutSignal bs) = [some "ab", some "cd"] ∧
      namesOf (alikeTo withNamespace bs) = [some "gh", some "ef"] := by
  have hfilter : fourBlocks.options.fullFilter = .ok [] := rfl
  have hregistry : fourBlocks.options.fullRegistry = .ok .builtin := rfl
  obtain ⟨d', bs, hparse, hshows, -, halike⟩ := parse_alikeTo fourBlocks rfl hfilter hregistry
  let kept := keptBlocks fourBlocks.options [] .builtin fourBlocks.source
  have hnames : namesOf (alikeTo withoutSignal kept) = [some "ab", some "cd"] ∧
      namesOf (alikeTo withNamespace kept) = [some "ef", some "gh"] := by decide +kernel
  refine ⟨rfl, hfilter, hregistry, d', bs, hparse, hshows, ?_, ?_⟩
  · rw [halike, if_pos (by decide)]
    exact hnames.1
  · rw [halike, if_neg (by decide), namesOf_reverse, hnames.2]
    rfl

/-- Two blocks of one namespace, with names of the same length. -/
def twoBlocks : Document where
  source := "/**\n * @name Button\n * @namespace ui\n */\n/**\n * @name Banner\n * @namespace ui\n */"
  options := {}

/-- Blocks that the default order cannot tell apart can change places. -/
theorem not_forall_alikeTo :
    ¬∀ (d d' : Document) (filter : TagFilter) (registry : Registry) (failures : List TagFailure)
      (bs : List Block), d.options.order = Order.heuristic → d.options.fullFilter = .ok filter →
      d.options.fullRegistry = .ok registry → d.parse = .ok (d', failures) →
      d'.blocks = .ok bs →
        ∀ r, alikeTo r bs = alikeTo r (keptBlocks d.options filter registry d.source) := by
  intro h
  let kept := keptBlocks twoBlocks.options [] .builtin twoBlocks.source
  let r : Record := [("name", .text "Button"), ("namespace", .text "ui")]
  have hsame : alikeTo r (insertionSort (fun a b => Order.heuristic a.record b.record) kept) =
      alikeTo r kept :=
    h twoBlocks _ [] .builtin _ _ rfl rfl rfl (parse_eq rfl rfl) (shows_of_blocks? rfl).blocks_eq r
  rw [alikeTo_insertionSort, if_neg (by decide)] at hsame
  have hnames : namesOf (alikeTo r kept) = [some "Button", some "Banner"] := by decide +kernel
  have hturned := congrArg namesOf hsame
  rw [namesOf_reverse, hnames] at hturned
  exact absurd hturned (by decide)

end Document

end DocComment
