/-
Whether the index of a folder and the files below it agree on identities.

Each record of the index is the first block of a file, read with the options of the index
(`exists_source_of_get?`).  Opening the file by its path gives the same document but for the package,
which is looked up then and not for the index.  So:

* `namespaceIndex_identifies` — the record has the namespace and the id of the first block that the
  opened file has without its package, and of the one that it has with it if no interpreter tells
  the two apart;
* `not_forall_identifies` — the name of the package makes a difference.
-/
import DocComment.Proofs.Files.Location
import DocComment.Proofs.Interpretation.Package
import DocComment.Proofs.NamespaceIndex

namespace DocComment

/-- No other interpreters come with the further tags of the settings. -/
theorem Options.exists_mem_of_mem_fullRegistry {o : Options} {registry : Registry}
    (h : o.fullRegistry = .ok registry) {p : String × Interpreter} (hp : p ∈ registry) :
    ∃ q ∈ o.registry, q.2 = p.2 :=
  Registry.exists_mem_of_mem_withAliases (fullRegistry_eq_ok_iff.mp h) hp

namespace Document

/-- The same document in another package, or in none. -/
def inPackage (d : Document) (package : Option Package) : Document :=
  { d with options := { d.options with package } }

/-- Parsed, the document has a first block with the namespace and the id of the record. -/
def IsIdentifiedBy (d : Document) (r : Record) : Prop :=
  ∃ d' failures b bs, d.parse = .ok (d', failures) ∧ d'.blocks = .ok (b :: bs) ∧
    ∀ key ∈ ["namespace", "id"], Keyed.get? r key = Keyed.get? b.record key

variable {d : Document} {filter : TagFilter} {registry : Registry}

theorem isIdentifiedBy_of_head? (hfilter : d.options.fullFilter = .ok filter)
    (hregistry : d.options.fullRegistry = .ok registry) {b : Block}
    (hb : (insertionSort (fun a b => d.options.order a.record b.record)
      (keptBlocks d.options filter registry d.source)).head? = some b) {r : Record}
    (hr : ∀ key ∈ ["namespace", "id"], Keyed.get? r key = Keyed.get? b.record key) :
    d.IsIdentifiedBy r := by
  obtain ⟨bs, hbs⟩ := List.head?_eq_some_iff.mp hb
  refine ⟨_, _, b, bs, parse_eq hfilter hregistry, ?_, hr⟩
  exact (shows_of_blocks? rfl).blocks_eq.trans (congrArg Except.ok hbs)

/-- The blocks are the same in packages that no interpreter tells apart. -/
theorem keptBlocks_inPackage {package package' : Option Package}
    (h : ∀ p ∈ registry, Interpretation.AgreesIn package package' p.2) :
    keptBlocks (d.inPackage package).options filter registry d.source =
      keptBlocks (d.inPackage package').options filter registry d.source := by
  have hsame : Block.ofComment registry (d.inPackage package).options.context =
      Block.ofComment registry (d.inPackage package').options.context :=
    Interpretation.ofComment_inPackage d.options.context h
  rw [keptBlocks, keptBlocks, readings, readings, hsame]
  rfl

/-- So is its first block. -/
theorem IsIdentifiedBy.of_inPackage {package package' : Option Package} {r : Record}
    (h : (d.inPackage package').IsIdentifiedBy r)
    (hagrees : ∀ p ∈ d.options.registry, Interpretation.AgreesIn package package' p.2) :
    (d.inPackage package).IsIdentifiedBy r := by
  obtain ⟨d', failures, b, bs, hparse, hblocks, hr⟩ := h
  obtain ⟨filter, registry, hfilter, hregistry, rfl, -⟩ := exists_of_parse_eq_ok hparse
  -- further tags take interpreters of the registry, so nothing new has to be looked at
  have hregistered : ∀ p ∈ registry, Interpretation.AgreesIn package package' p.2 := by
    intro p hp
    obtain ⟨q, hq, hqp⟩ := Options.exists_mem_of_mem_fullRegistry hregistry hp
    exact hqp ▸ hagrees q hq
  have hsorted : insertionSort (fun a b => d.options.order a.record b.record)
      (keptBlocks (d.inPackage package').options filter registry d.source) = b :: bs :=
    Except.ok.inj hblocks
  have hhead : (insertionSort (fun a b => d.options.order a.record b.record)
      (keptBlocks (d.inPackage package).options filter registry d.source)).head? = some b := by
    rw [keptBlocks_inPackage hregistered, hsorted, List.head?_cons]
  exact isIdentifiedBy_of_head? (d := d.inPackage package) hfilter hregistry hhead hr

end Document

namespace NamespaceIndex

variable {o : Options} {folder : Path} {filter : TagFilter} {registry : Registry}

/-! ### Where a record comes from -/

/-- A run over files that ends well found the configuration in order, unless there were none. -/
theorem exists_full_of_foldlM_addFile {sources : List (List String × String)}
    (hne : sources ≠ []) {done result : Keyed Record × List TagFailure}
    (h : sources.foldlM (addFile o folder) done = .ok result) :
    ∃ filter registry, o.fullFilter = .ok filter ∧ o.fullRegistry = .ok registry := by
  obtain ⟨⟨names, text⟩, sources, rfl⟩ := List.exists_cons_of_ne_nil hne
  rw [List.foldlM_cons, addFile] at h
  cases hparse : Document.parse ⟨text, optionsAt o folder names, none⟩ with
  | error e =>
    change ((Document.parse ⟨text, optionsAt o folder names, none⟩ >>= _) >>= _) = _ at h
    rw [hparse] at h
    cases h
  | ok result =>
    obtain ⟨filter, registry, hfilter, hregistry, -⟩ := Document.exists_of_parse_eq_ok hparse
    exact ⟨filter, registry, hfilter, hregistry⟩

/-- What is looked at is a text that the walk finds. -/
theorem mem_filesUnder_of_mem_sources {tree : FileTree} {globs : List Glob} {place : List String}
    {source : List String × String} (h : source ∈ sources tree globs place) :
    (source.1, .text source.2) ∈ tree.filesUnder place := by
  rw [sources_eq] at h
  obtain ⟨file, hfile, hsource⟩ := List.mem_filterMap.mp h
  rwa [(sourceOf?_eq_some_iff.mp hsource).1] at hfile

/-- Each record of an index is what a file adds that the walk through the folder finds. -/
theorem exists_source_of_get? {exclude : List String} {index : Keyed Record}
    {failures : List TagFailure} (hindex : o.namespaceIndex folder exclude = .ok (index, failures))
    {key : String} {r : Record} (hr : Keyed.get? index key = some r) :
    ∃ place filter registry source,
      o.files.locate? folder = some place ∧ (source.1, .text source.2) ∈ o.files.filesUnder place ∧
      o.fullFilter = .ok filter ∧ o.fullRegistry = .ok registry ∧
      contribution? o folder filter registry source = some (key, r) := by
  rcases namespaceIndex_eq_ok_cases hindex with ⟨-, hresult⟩ | ⟨place, globs, hrun⟩
  · cases hresult
    cases hr
  · have hfold := hrun.foldlM_eq
    -- the configuration is looked at with the first file, and without one there is no record
    have hne : sources o.files globs place ≠ [] := by
      intro hnil
      rw [hnil] at hfold
      cases hfold
      cases hr
    obtain ⟨filter, registry, hfilter, hregistry⟩ := exists_full_of_foldlM_addFile hne hfold
    rw [foldlM_addFile hfilter hregistry] at hfold
    cases hfold
    obtain ⟨before, source, after, hsplit, hadds, -⟩ := Keyed.exists_last_of_get?_ofList hr
    have hsource : source ∈ sources o.files globs place := by
      rw [hsplit]
      exact List.mem_append_right before List.mem_cons_self
    exact ⟨place, filter, registry, source, hrun.locate?_eq,
      mem_filesUnder_of_mem_sources hsource, hfilter, hregistry, hadds⟩

/-- What a record adds keeps the namespace and the id, and tells the place. -/
theorem get?_of_entryOf {file : Path} {names : List String} {r r' : Record} {key : String}
    (h : entryOf file names r = some (key, r')) :
    Keyed.get? r' "path" = some (.text ("/".intercalate names)) ∧
      ∀ k ∈ ["namespace", "id"], Keyed.get? r' k = Keyed.get? r k := by
  rw [entryOf] at h
  obtain ⟨v, -, h⟩ := Option.bind_eq_some_iff.mp h
  obtain ⟨ns, -, h⟩ := Option.bind_eq_some_iff.mp h
  cases h
  refine ⟨by rw [Keyed.get?_insert, if_pos rfl], fun k hk => ?_⟩
  have hpath : k ≠ "path" := by rintro rfl; exact absurd hk (by decide)
  have hraw : k ≠ "raw" := by rintro rfl; exact absurd hk (by decide)
  rw [Keyed.get?_insert, if_neg hpath, Keyed.get?_erase_of_ne r hraw]

/-! ### Files opened by their path -/

/-- A file that is there is opened with the package that it is found in. -/
theorem ofPath_of_read? (hpackage : o.package = none) {p : Path} {text : String}
    (hread : o.files.read? p = some text) :
    ∃ package, Document.ofPath p o =
      .ok (Document.inPackage ⟨text, { o with settings := { o.settings with filePath := some p } },
        none⟩ package) := by
  have hopen := Document.toOption_ofPath p o
  rw [hread, Option.map_some, Options.forFile, hpackage, Option.none_or] at hopen
  exact ⟨_, Document.toOption_eq_some_iff.mp hopen⟩

/-- **The index takes the identity of a file from its first block, read without the package.**  A
file of which the index has a record can be opened by its path.  The document has, without its
package, a first block with the namespace and the id of the record; and so it has in its package, if
no interpreter tells the package from none.  For the interpreters known by default this means that
the package has no name of which anything is left in a slug. -/
theorem namespaceIndex_identifies (htree : o.files.IsProper) (hpackage : o.package = none)
    {exclude : List String} {index : Keyed Record} {failures : List TagFailure}
    (hindex : o.namespaceIndex folder exclude = .ok (index, failures)) {key : String} {r : Record}
    (hr : Keyed.get? index key = some r) :
    ∃ place names d,
      o.files.locate? folder = some place ∧
      (names, .text d.source) ∈ o.files.filesUnder place ∧
      Keyed.get? r "path" = some (.text ("/".intercalate names)) ∧
      Document.ofPath (fileAt folder names) o = .ok d ∧
      (d.inPackage none).IsIdentifiedBy r ∧
      ((∀ p ∈ o.registry, Interpretation.AgreesIn d.options.package none p.2) →
        d.IsIdentifiedBy r) ∧
      (o.registry = .builtin → Interpretation.packageSlug d.options.package = [] →
        d.IsIdentifiedBy r) := by
  obtain ⟨place, filter, registry, ⟨names, text⟩, hplace, hfile, hfilter, hregistry, hadds⟩ :=
    exists_source_of_get? hindex hr
  obtain ⟨b, hb, hentry⟩ := Option.bind_eq_some_iff.mp hadds
  obtain ⟨hpath, hidentity⟩ := get?_of_entryOf hentry
  have hread : o.files.read? (fileAt folder names) = some text :=
    FileTree.read?_of_mem_filesUnder htree hplace hfile
  obtain ⟨package, hopen⟩ := ofPath_of_read? hpackage hread
  let d₀ : Document := ⟨text, optionsAt o folder names, none⟩
  have hsame : d₀.inPackage none = d₀ := by
    show ({ d₀ with options := { optionsAt o folder names with package := none } } : Document) = _
    rw [← hpackage]
    rfl
  -- this is what the index has parsed
  have hwithout : (d₀.inPackage none).IsIdentifiedBy r := by
    rw [hsame]
    exact Document.isIdentifiedBy_of_head? hfilter hregistry hb hidentity
  refine ⟨place, names, d₀.inPackage package, hplace, hfile, hpath, hopen, hwithout,
    hwithout.of_inPackage, fun hbuiltin hslug => ?_⟩
  have hslugs : Interpretation.packageSlug package = Interpretation.packageSlug none :=
    hslug.trans Interpretation.packageSlug_none.symm
  have hagrees : ∀ p ∈ o.registry, Interpretation.AgreesIn package none p.2 := by
    intro p hp
    exact Interpretation.agreesIn_of_mem_builtin hslugs (hbuiltin ▸ hp)
  exact hwithout.of_inPackage hagrees

theorem exists_eq_ok_of_toOption {ε α β : Type} {x : Except ε α} {f : α → Option β} {b : β}
    (h : x.toOption.bind f = some b) : ∃ a, x = .ok a ∧ f a = some b := by
  obtain ⟨a, ha, hb⟩ := Option.bind_eq_some_iff.mp h
  exact ⟨a, Document.toOption_eq_some_iff.mp ha, hb⟩

/-- The one file of a folder. -/
def button : List String × String := (["a.ts"], "/**\n * @name Button\n * @namespace ui\n */")

/-- The folder, in a package with this description. -/
def describedBy (description : String) : FileTree :=
  ⟨[(["package.json"], .text description), ("d" :: button.1, .text button.2)]⟩

section Described

variable {description : String}

theorem filesUnder_describedBy :
    (describedBy description).filesUnder ["d"] = [(button.1, .text button.2)] :=
  List.mergeSort_singleton _

theorem names_eq_of_mem_filesUnder {text : String} {place names : List String}
    (hplace : (describedBy description).locate? ⟨"d"⟩ = some place)
    (h : (names, .text text) ∈ (describedBy description).filesUnder place) : names = ["a.ts"] := by
  obtain rfl : ["d"] = place := Option.some.inj hplace
  rw [filesUnder_describedBy, List.mem_singleton] at h
  exact (Prod.mk.inj h).1

/-- The index has what the file adds. -/
theorem exists_index_describedBy {p : String × Record}
    (hadds : contributionOf? { files := describedBy description } ⟨"d"⟩ [] .builtin (globsOf [])
      (button.1, .text button.2) = some p) :
    ∃ failures, Options.namespaceIndex { files := describedBy description } ⟨"d"⟩ [] =
      .ok ([p], failures) := by
  let o : Options := { files := describedBy description }
  have hglobs : readGlobs [] = .ok (globsOf []) := readGlobs_eq_globsOf (by decide +kernel)
  obtain ⟨failures, hindex⟩ : ∃ failures, o.namespaceIndex ⟨"d"⟩ [] =
      .ok (Keyed.ofList ((o.files.filesUnder ["d"]).filterMap
        (contributionOf? o ⟨"d"⟩ [] .builtin (globsOf []))), failures) :=
    namespaceIndex_eq rfl rfl rfl hglobs
  rw [filesUnder_describedBy, List.filterMap_cons_some hadds] at hindex
  exact ⟨failures, hindex⟩

end Described

/-- A package without a name. -/
theorem namespaceIndex_identifies_sample :
    let o : Options := { files := describedBy "\x7b\x7d" }
    ∃ index failures r d,
      o.namespaceIndex ⟨"d"⟩ [] = .ok (index, failures) ∧
      Keyed.get? index "ui.Button" = some r ∧
      Document.ofPath ⟨"d/a.ts"⟩ o = .ok d ∧ d.options.package.isSome = true ∧
      d.IsIdentifiedBy r := by
  intro o
  have hadds : (contributionOf? o ⟨"d"⟩ [] .builtin (globsOf [])
      (button.1, .text button.2)).map Prod.fst = some "ui.Button" := by decide +kernel
  have hpackage : ((Document.ofPath ⟨"d/a.ts"⟩ o).toOption.bind fun d => d.options.package) =
      some { name := none } := by decide +kernel
  obtain ⟨⟨-, r⟩, hr, rfl⟩ := Option.map_eq_some_iff.mp hadds
  obtain ⟨failures, hindex⟩ := exists_index_describedBy hr
  obtain ⟨d, hopen, hnameless⟩ := exists_eq_ok_of_toOption hpackage
  have hget : Keyed.get? [("ui.Button", r)] "ui.Button" = some r := rfl
  obtain ⟨place, names, d', hplace, hfile, -, hopen', -, -, hagrees⟩ :=
    namespaceIndex_identifies (by decide +kernel) rfl hindex hget
  obtain rfl := names_eq_of_mem_filesUnder hplace hfile
  obtain rfl : d = d' := Except.ok.inj (hopen.symm.trans hopen')
  refine ⟨[("ui.Button", r)], failures, r, d, hindex, hget, hopen, by rw [hnameless]; rfl, ?_⟩
  exact hagrees rfl (by rw [hnameless]; decide)

/-- A file can have another namespace in its package than in the index. -/
theorem not_forall_identifies :
    ¬∀ (o : Options) (folder : Path) (exclude : List String) (index : Keyed Record)
      (failures : List TagFailure) (key : String) (r : Record),
      o.files.IsProper → o.package = none →
      o.namespaceIndex folder exclude = .ok (index, failures) → Keyed.get? index key = some r →
        ∃ place names d,
          o.files.locate? folder = some place ∧
          (names, .text d.source) ∈ o.files.filesUnder place ∧
          Keyed.get? r "path" = some (.text ("/".intercalate names)) ∧
          Document.ofPath (fileAt folder names) o = .ok d ∧ d.IsIdentifiedBy r := by
  intro h
  let o : Options := { files := describedBy "\x7b\"name\":\"pkg\"\x7d" }
  have hadds : ((contributionOf? o ⟨"d"⟩ [] .builtin (globsOf []) (button.1, .text button.2)).bind
      fun p => (Keyed.get? p.2 "namespace").bind Value.string?) = some "ui" := by decide +kernel
  have hfirst : ((Document.ofPath ⟨"d/a.ts"⟩ o).toOption.bind fun d =>
      d.parse.toOption.bind fun result => result.1.blocks.toOption.bind fun bs =>
        bs.head?.bind fun b => (Keyed.get? b.record "namespace").bind Value.string?) =
      some "pkg.ui" := by decide +kernel
  obtain ⟨⟨key, r⟩, hr, hindexed⟩ := Option.bind_eq_some_iff.mp hadds
  obtain ⟨failures, hindex⟩ := exists_index_describedBy hr
  have hget : Keyed.get? [(key, r)] key = some r := if_pos rfl
  obtain ⟨place, names, d, hplace, hfile, -, hopen, d', reported, b, bs, hparse, hblocks, hsame⟩ :=
    h o ⟨"d"⟩ [] _ failures key r (by decide +kernel) rfl hindex hget
  obtain rfl := names_eq_of_mem_filesUnder hplace hfile
  have hopened : Document.ofPath ⟨"d/a.ts"⟩ o = .ok d := hopen
  simp only [hopened, hparse, hblocks, Except.toOption, Option.bind_some, List.head?_cons] at hfirst
  rw [← hsame "namespace" (by decide), hindexed] at hfirst
  exact absurd hfirst (by decide)

end NamespaceIndex

end DocComment
