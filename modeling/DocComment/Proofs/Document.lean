/-
The blocks of a document, whatever is done with it.

`keptBlocks` are the blocks that a text has under its options, in the order of the text: its
comments are filtered, each is interpreted by itself, and the blocks are filtered again.  Parsing
gives a document these blocks in some order, and no action on it adds one, loses one or changes one
(`IsSettled`, carried through an action by `IsSettled.act` and through a run by `IsSettled.run`).
All that is asked of a document is answered from its blocks in their order (`Shows`), so records,
names and texts go together.

* `parse_keeps_blocks` puts this together, with what parsing reports.
-/
import DocComment.Document
import DocComment.Proofs.Order

namespace DocComment

namespace Options

/-- The options for a file: they get its path, and if they have no package the one that the file
belongs to. -/
def forFile (o : Options) (p : Path) : Options :=
  { o with
    settings := { o.settings with filePath := some p }
    package := o.package.or (Package.nearest o.files p).toOption.join }

variable {o : Options}

theorem fullFilter_eq_ok_iff {filter : TagFilter} :
    o.fullFilter = .ok filter ↔
      ∃ written, TagFilter.ofMembers o.settings.filterByTag o.patterns = .ok written ∧
        written.merge o.tagFilter = filter := by
  rw [fullFilter]
  cases TagFilter.ofMembers o.settings.filterByTag o.patterns <;> simp [Except.map]

theorem fullRegistry_eq_ok_iff {registry : Registry} :
    o.fullRegistry = .ok registry ↔ o.registry.withAliases o.settings.tags = .ok registry := by
  rw [fullRegistry]
  cases o.registry.withAliases o.settings.tags <;> simp [Except.mapError]

end Options

namespace Document

/-! ### What a text gives -/

/-- The comments of a text that the filter accepts, each interpreted by itself. -/
def readings (o : Options) (filter : TagFilter) (registry : Registry) (source : String) :
    List (Block × List TagFailure) :=
  ((Comment.comments source).filter filter.accepts).map (Block.ofComment registry o.context)

/-- The blocks that the options keep, in the order of the text. -/
def keptBlocks (o : Options) (filter : TagFilter) (registry : Registry) (source : String) :
    List Block :=
  ((readings o filter registry source).map Prod.fst).filter o.keep

/-- The failures of all comments that were interpreted, in the order of the text. -/
def reported (o : Options) (filter : TagFilter) (registry : Registry) (source : String) :
    List TagFailure :=
  (readings o filter registry source).flatMap Prod.snd

variable {d : Document} {o : Options} {filter : TagFilter} {registry : Registry} {source : String}

theorem toOption_eq_some_iff {ε α : Type} {x : Except ε α} {a : α} :
    x.toOption = some a ↔ x = .ok a := by
  cases x <;> simp [Except.toOption]

/-- A file is opened if it can be read, and otherwise it is not. -/
theorem toOption_ofPath (p : Path) (o : Options) :
    (ofPath p o).toOption = (o.files.read? p).map fun text => ⟨text, o.forFile p, none⟩ := by
  rw [ofPath, FileTree.exists?]
  cases hread : o.files.read? p with
  | none => split <;> rfl
  | some text =>
    have hitem : (o.files.item? p).isSome := by
      unfold FileTree.read? at hread
      split at hread
      · next s hs => rw [hs]; rfl
      · cases hread
    rw [hitem]
    rfl

/-- The document with the blocks of its text, sorted. -/
def parsed (d : Document) (filter : TagFilter) (registry : Registry) : Document :=
  { d with blocks? := some (insertionSort (fun a b => d.options.order a.record b.record)
      (keptBlocks d.options filter registry d.source)) }

theorem parse_eq (hfilter : d.options.fullFilter = .ok filter)
    (hregistry : d.options.fullRegistry = .ok registry) :
    d.parse = .ok (d.parsed filter registry, reported d.options filter registry d.source) := by
  rw [parse, hfilter, hregistry]
  rfl

theorem exists_of_parse_eq_ok {d' : Document} {failures : List TagFailure}
    (h : d.parse = .ok (d', failures)) :
    ∃ filter registry, d.options.fullFilter = .ok filter ∧
      d.options.fullRegistry = .ok registry ∧ d' = d.parsed filter registry ∧
      failures = reported d.options filter registry d.source := by
  cases hfilter : d.options.fullFilter with
  | error e =>
    rw [parse, hfilter] at h
    cases h
  | ok filter =>
    cases hregistry : d.options.fullRegistry with
    | error e =>
      rw [parse, hfilter, hregistry] at h
      cases h
    | ok registry =>
      rw [parse_eq hfilter hregistry] at h
      obtain ⟨rfl, rfl⟩ := Prod.mk.inj (Except.ok.inj h)
      exact ⟨filter, registry, rfl, rfl, rfl, rfl⟩

/-! ### What is asked of a document -/

/-- All that is asked of the document is answered from these blocks, in this order. -/
structure Shows (d : Document) (bs : List Block) : Prop where
  blocks_eq : d.blocks = .ok bs
  records_eq : d.records = .ok (bs.map Block.record)
  names_eq : d.records.map (·.map fun r => Keyed.get? r "name") =
    .ok (bs.map fun b => Keyed.get? b.record "name")
  toJson_eq : d.toJson = .ok (.array (bs.map fun b => (Value.record b.record).toJson))
  toText_eq : d.toText = .ok ("\n".intercalate (bs.map Block.raw))

theorem shows_of_blocks? {bs : List Block} (h : d.blocks? = some bs) : d.Shows bs := by
  have hblocks : d.blocks = .ok bs := by rw [blocks, h]
  have hrecords : d.records = .ok (bs.map Block.record) := by rw [records, hblocks]; rfl
  refine ⟨hblocks, hrecords, ?_, ?_, ?_⟩
  · rw [hrecords, Except.map, List.map_map]
    rfl
  · rw [toJson, hrecords, Except.map, List.map_map]
    rfl
  · rw [toText, hblocks]
    rfl

/-! ### What is done with a document -/

/-- What can be done with a document that may change it. -/
inductive Action where
  | parse
  | sort
  | sortWith (compare : Comparator)

/-- The document after an action, and what the action reports. -/
def act (d : Document) : Action → Except Error (Document × List TagFailure)
  | .parse => d.parse
  | .sort => d.sort.map (·, [])
  | .sortWith compare => (d.sortWith compare).map (·, [])

/-- The document after one action after the other, and all that they report. -/
def run (d : Document) : List Action → Except Error (Document × List TagFailure)
  | [] => .ok (d, [])
  | a :: as => do
    let (d, failures) ← d.act a
    let (d, failures') ← d.run as
    return (d, failures ++ failures')

/-- What an action reports if parsing reports `failures`. -/
def Action.reports (failures : List TagFailure) : Action → List TagFailure
  | .parse => failures
  | .sort | .sortWith _ => []

/-- The document has the blocks that its text has under its options, in some order. -/
structure IsSettled (o : Options) (filter : TagFilter) (registry : Registry) (source : String)
    (d : Document) : Prop where
  options_eq : d.options = o
  source_eq : d.source = source
  exists_blocks : ∃ bs, d.blocks? = some bs ∧ bs.Perm (keptBlocks o filter registry source)

theorem isSettled_parsed (d : Document) (filter : TagFilter) (registry : Registry) :
    IsSettled d.options filter registry d.source (d.parsed filter registry) :=
  ⟨rfl, rfl, _, rfl, insertionSort_perm _ _⟩

namespace IsSettled

theorem sortWith (h : IsSettled o filter registry source d) (compare : Comparator) :
    ∃ d', d.sortWith compare = .ok d' ∧ IsSettled o filter registry source d' := by
  obtain ⟨bs, hbs, hperm⟩ := h.exists_blocks
  rw [Document.sortWith, blocks, hbs]
  exact ⟨_, rfl, h.options_eq, h.source_eq, _, rfl, (insertionSort_perm _ _).trans hperm⟩

/-- One action: it succeeds, and the blocks stay the same but for their order. -/
theorem act (hfilter : o.fullFilter = .ok filter) (hregistry : o.fullRegistry = .ok registry)
    (h : IsSettled o filter registry source d) (a : Action) :
    ∃ d', d.act a = .ok (d', a.reports (reported o filter registry source)) ∧
      IsSettled o filter registry source d' := by
  cases a with
  | parse =>
    obtain ⟨rfl, rfl, -⟩ := h
    exact ⟨_, parse_eq hfilter hregistry, isSettled_parsed d filter registry⟩
  | sort =>
    obtain ⟨d', hd', h'⟩ := h.sortWith d.options.order
    exact ⟨d', by rw [Document.act, sort, hd']; rfl, h'⟩
  | sortWith compare =>
    obtain ⟨d', hd', h'⟩ := h.sortWith compare
    exact ⟨d', by rw [Document.act, hd']; rfl, h'⟩

/-- Any number of actions. -/
theorem run (hfilter : o.fullFilter = .ok filter) (hregistry : o.fullRegistry = .ok registry)
    (h : IsSettled o filter registry source d) (as : List Action) :
    ∃ d', d.run as = .ok (d', as.flatMap (Action.reports (reported o filter registry source))) ∧
      IsSettled o filter registry source d' := by
  induction as generalizing d with
  | nil => exact ⟨d, rfl, h⟩
  | cons a as ih =>
    obtain ⟨d₁, hd₁, h₁⟩ := h.act hfilter hregistry a
    obtain ⟨d₂, hd₂, h₂⟩ := ih h₁
    refine ⟨d₂, ?_, h₂⟩
    rw [Document.run, hd₁]
    show (d₁.run as >>= fun r => pure (r.1, _ ++ r.2)) = _
    rw [hd₂]
    rfl

end IsSettled

/-- **A document neither loses nor invents blocks.**  If its filter and its aliases are in order,
parsing gives it the blocks of its text, sorted, and reports the failures of the comments that it
interpreted.  Whatever is done with it then, its blocks are those, in some order. -/
theorem parse_keeps_blocks (d : Document) {filter : TagFilter} {registry : Registry}
    (hfilter : d.options.fullFilter = .ok filter)
    (hregistry : d.options.fullRegistry = .ok registry) :
    ∃ d₁ bs₁,
      d.parse = .ok (d₁, reported d.options filter registry d.source) ∧
      d₁.Shows bs₁ ∧ bs₁.Perm (keptBlocks d.options filter registry d.source) ∧
      ((∀ r r', d.options.order r r' = .eq) →
        bs₁ = keptBlocks d.options filter registry d.source) ∧
      ∀ as : List Action, ∃ d₂ bs₂,
        d₁.run as = .ok (d₂,
          as.flatMap (Action.reports (reported d.options filter registry d.source))) ∧
        d₂.Shows bs₂ ∧ bs₂.Perm (keptBlocks d.options filter registry d.source) := by
  refine ⟨_, _, parse_eq hfilter hregistry, shows_of_blocks? rfl, insertionSort_perm _ _, ?_, ?_⟩
  · intro horder
    refine insertionSort_of_isChain (List.Pairwise.isChain (List.pairwise_of_forall ?_))
    intro a b
    rw [horder]
    decide
  · intro as
    obtain ⟨d₂, hd₂, h₂⟩ := (isSettled_parsed d filter registry).run hfilter hregistry as
    obtain ⟨bs₂, hbs₂, hperm⟩ := h₂.exists_blocks
    exact ⟨d₂, bs₂, hd₂, shows_of_blocks? hbs₂, hperm⟩

/-- Two rules for one tag, an alias, a predicate on blocks and a comparator that is no order. -/
def sample : Document where
  source := "/**\n * @name b\n * @status wip\n */ '/** @name x */' /**\n * @status wip\n */"
  options := {
    settings := {
      filterByTag := [("status", .array [.string "beta", .string "wip"])]
      tags := [("title", "name")] }
    registry := [("name", Tag.simple)]
    tagFilter := [("status", [.exact "rc"])]
    keep := fun b => Keyed.contains b.record "name"
    order := fun _ _ => .gt }

def sampleFilter : TagFilter := [("status", [.exact "beta", .exact "wip", .exact "rc"])]

def sampleRegistry : Registry := [("name", Tag.simple), ("title", Tag.simple)]

theorem parse_keeps_blocks_sample :
    sample.options.fullFilter = .ok sampleFilter ∧
    sample.options.fullRegistry = .ok sampleRegistry ∧
    ∃ d₁ bs₁,
      sample.parse = .ok (d₁, reported sample.options sampleFilter sampleRegistry sample.source) ∧
      d₁.Shows bs₁ ∧ bs₁.Perm (keptBlocks sample.options sampleFilter sampleRegistry sample.source) ∧
      ((∀ r r', sample.options.order r r' = .eq) →
        bs₁ = keptBlocks sample.options sampleFilter sampleRegistry sample.source) ∧
      ∀ as : List Action, ∃ d₂ bs₂,
        d₁.run as = .ok (d₂, as.flatMap
          (Action.reports (reported sample.options sampleFilter sampleRegistry sample.source))) ∧
        d₂.Shows bs₂ ∧
        bs₂.Perm (keptBlocks sample.options sampleFilter sampleRegistry sample.source) :=
  ⟨rfl, rfl, parse_keeps_blocks sample rfl rfl⟩

end Document

end DocComment
