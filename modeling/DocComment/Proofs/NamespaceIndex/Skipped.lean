/-
Which files the index of a folder depends on.

Hidden files, excluded ones, files that are no text and texts that do not mention the tag are
skipped (`IsSkipped`).  The rest is looked at, in the order of the names (`mem_sources_iff`,
`pairwise_sources`), so two trees with the same files besides skipped ones are looked at in the same
way, and what a file adds depends on the tree only through interpreters that read files.

* `foldlM_addFile_congr` — a run over files is the same in both trees if no interpreter reads files,
  from `addFile_congr` for one file;
* `indexes_of_foldlM_addFile` — a run leaves the keys in the order of their first files, each with
  the record of its last one;
* `namespaceIndex_ignores_skipped` — both for the index of a folder.
-/
import DocComment.Proofs.Configuration
import DocComment.Proofs.Files.Location
import DocComment.Proofs.Interpretation.Context
import DocComment.Proofs.NamespaceIndex.Identity

namespace DocComment

namespace Interpretation

/-! ### Interpreters that read no files -/

/-- The interpreter does the same whatever files are around. -/
def ReadsNoFiles (i : Interpreter) : Prop :=
  ∀ (ctx : Context) (files : FileTree) (es : List Entry), i { ctx with files } es = i ctx es

/-- Of the interpreters known by default, only that of interfaces reads files. -/
theorem readsNoFiles_interpreterOf_builtin {tag : String} (htag : tag ≠ "interface") :
    ReadsNoFiles (interpreterOf .builtin tag) := by
  have htable : ∀ q ∈ Tag.ownInterpreters, q.1 ≠ "interface" → ReadsNoFiles q.2 := by
    simp only [Tag.ownInterpreters, List.forall_mem_cons]
    and_intros
    all_goals
      first
      | exact fun _ _ _ _ => rfl
      | exact fun h => absurd rfl h
      | simp
  rcases interpreterOf_builtin tag with h | h
  · exact htable _ h htag
  · rw [h]
    exact fun _ _ _ => rfl

end Interpretation

/-- No tag of the text has an interpreter that reads files. -/
def Options.ReadsNoFiles (o : Options) (text : String) : Prop :=
  ∀ registry, o.fullRegistry = .ok registry → ∀ comment ∈ Comment.comments text,
    ∀ p ∈ Comment.entries comment,
      Interpretation.ReadsNoFiles (Interpretation.interpreterOf registry p.1)

theorem Options.readsNoFiles_of_builtin {o : Options} (hregistry : o.registry = .builtin)
    (htags : o.settings.tags = []) {text : String}
    (h : ∀ comment ∈ Comment.comments text, ∀ p ∈ Comment.entries comment, p.1 ≠ "interface") :
    o.ReadsNoFiles text := by
  intro registry hfull comment hcomment p hp
  rw [fullRegistry, hregistry, htags] at hfull
  obtain rfl : Registry.builtin = registry := Except.ok.inj hfull
  exact Interpretation.readsNoFiles_interpreterOf_builtin (h comment hcomment p hp)

namespace NamespaceIndex

variable {o : Options} {folder : Path} {filter : TagFilter} {registry : Registry}
  {exclude : List String} {globs : List Glob}

/-! ### Skipped files -/

/-- A glob of the list, or of the usual one if that is empty, is for the file or for a folder on the
way to it. -/
def IsExcluded (exclude names : List String) : Prop :=
  ∃ s ∈ (if exclude.isEmpty then defaultExcludes else exclude), ∃ g, Glob.parse? s = some g ∧
    ∃ place, place ≠ [] ∧ place <+: names ∧ g.isAt place (place.length < names.length) = true

/-- Why a file below a folder, given by its names from there on, is not looked at. -/
inductive IsSkipped (exclude names : List String) : FileItem → Prop where
  | hidden {item : FileItem} {name : String} (hname : name ∈ names)
      (hdot : name.toList.head? = some '.') : IsSkipped exclude names item
  | excluded {item : FileItem} (h : IsExcluded exclude names) : IsSkipped exclude names item
  | silent {s : String} (h : ¬"@namespace".toList <:+: s.toList) :
      IsSkipped exclude names (.text s)
  | binary : IsSkipped exclude names .binary
  | folder : IsSkipped exclude names .folder

/-- The file lies below the folder and is not skipped. -/
def IsLookedAt (tree : FileTree) (folder : Path) (exclude : List String)
    (file : List String × FileItem) : Prop :=
  tree.isFolder folder = true ∧ ∃ place, tree.locate? folder = some place ∧
    (place ++ file.1, file.2) ∈ tree.items ∧ ¬IsSkipped exclude file.1 file.2

theorem mem_wayTo_iff {names place : List String} :
    place ∈ wayTo names ↔ place ≠ [] ∧ place <+: names := by
  simp only [wayTo, List.mem_map, List.mem_range]
  constructor
  · rintro ⟨i, hi, rfl⟩
    refine ⟨List.ne_nil_of_length_pos ?_, List.take_prefix _ _⟩
    rw [List.length_take]
    omega
  · rintro ⟨hne, hprefix⟩
    have hpos := List.length_pos_of_ne_nil hne
    have hle := hprefix.length_le
    refine ⟨place.length - 1, by omega, ?_⟩
    rw [Nat.sub_add_cancel hpos]
    exact (List.prefix_iff_eq_take.mp hprefix).symm

/-- The globs are those of the list. -/
theorem mem_globs_iff (hglobs : readGlobs exclude = .ok globs) {g : Glob} :
    g ∈ globs ↔ ∃ s ∈ (if exclude.isEmpty then defaultExcludes else exclude),
      Glob.parse? s = some g := by
  have hread : List.Forall₂ (fun s g => Glob.parse? s = some g)
      (if exclude.isEmpty then defaultExcludes else exclude) globs :=
    (mapM_eq_ok_iff.mp hglobs).imp fun s g hsg => by
      split at hsg
      · next g' hg' => rw [hg', Except.ok.inj hsg]
      · cases hsg
  constructor
  · exact exists_mem_of_forall₂ (List.Forall₂.flip hread)
  · rintro ⟨s, hs, hsg⟩
    obtain ⟨g', hg', hsg'⟩ := exists_mem_of_forall₂ hread hs
    rwa [Option.some.inj (hsg.symm.trans hsg')]

theorem isExcluded_iff (hglobs : readGlobs exclude = .ok globs) {names : List String} :
    IsExcluded exclude names ↔
      ∃ place ∈ wayTo names, ∃ g ∈ globs, g.isAt place (place.length < names.length) = true := by
  simp only [IsExcluded, mem_globs_iff hglobs, mem_wayTo_iff]
  constructor
  · rintro ⟨s, hs, g, hsg, place, hne, hplace, hat⟩
    exact ⟨place, ⟨hne, hplace⟩, g, ⟨s, hs, hsg⟩, hat⟩
  · rintro ⟨place, ⟨hne, hplace⟩, g, ⟨s, hs, hsg⟩, hat⟩
    exact ⟨s, hs, g, hsg, place, hne, hplace, hat⟩

theorem isVisited_iff (hglobs : readGlobs exclude = .ok globs) {names : List String} :
    isVisited globs names = true ↔
      (∀ name ∈ names, name.toList.head? ≠ some '.') ∧ ¬IsExcluded exclude names := by
  simp [isVisited, isExcluded_iff hglobs, isHidden]

theorem not_isSkipped_iff (hglobs : readGlobs exclude = .ok globs) {names : List String}
    {s : String} : ¬IsSkipped exclude names (.text s) ↔
      isVisited globs names = true ∧ mentionsTag s = true := by
  rw [isVisited_iff hglobs, mentionsTag_iff]
  constructor
  · intro h
    have hmentions : "@namespace".toList <:+: s.toList := by
      by_contra hsilent
      exact h (.silent hsilent)
    exact ⟨⟨fun name hname hdot => h (.hidden hname hdot), fun hexcluded =>
      h (.excluded hexcluded)⟩, hmentions⟩
  · rintro ⟨⟨hvisible, hincluded⟩, hmentions⟩ hskipped
    cases hskipped with
    | hidden hname hdot => exact hvisible _ hname hdot
    | excluded h => exact hincluded h
    | silent h => exact h hmentions

/-! ### The files that are looked at -/

theorem mem_sources_iff (hglobs : readGlobs exclude = .ok globs) {tree : FileTree}
    {place : List String} {source : List String × String} :
    source ∈ sources tree globs place ↔
      (place ++ source.1, .text source.2) ∈ tree.items ∧
        ¬IsSkipped exclude source.1 (.text source.2) := by
  simp only [sources_eq, List.mem_filterMap, sourceOf?_eq_some_iff, not_isSkipped_iff hglobs]
  constructor
  · rintro ⟨_, hfile, rfl, hlooked⟩
    exact ⟨(FileTree.mem_filesUnder_iff.mp hfile).1, hlooked⟩
  · rintro ⟨hitem, hlooked⟩
    exact ⟨_, FileTree.mem_filesUnder_iff.mpr ⟨hitem, by simp⟩, rfl, hlooked⟩

theorem pairwise_sources {tree : FileTree} (htree : tree.IsProper) (globs : List Glob)
    (place : List String) : (sources tree globs place).Pairwise fun a b => a.1 < b.1 := by
  rw [sources_eq]
  refine (htree.pairwise_filesUnder place).filterMap _ fun a b hab c hc d hd => ?_
  obtain ⟨rfl, -⟩ := sourceOf?_eq_some_iff.mp hc
  obtain ⟨rfl, -⟩ := sourceOf?_eq_some_iff.mp hd
  exact hab

theorem eq_of_pairwise_of_mem_iff {l l' : List (List String × String)}
    (hl : l.Pairwise fun a b => a.1 < b.1) (hl' : l'.Pairwise fun a b => a.1 < b.1)
    (h : ∀ source, source ∈ l ↔ source ∈ l') : l = l' := by
  have : Std.Irrefl fun (a b : List String × String) => a.1 < b.1 := ⟨fun a => lt_irrefl a.1⟩
  exact hl.eq_of_mem_iff hl' h

theorem sources_eq_of_perm {tree : FileTree} (htree : tree.IsProper) {place : List String}
    {l : List (List String × String)} (hl : l.Pairwise fun a b => a.1 < b.1)
    (h : ((tree.items.filterMap (FileTree.fileBelow? place)).filterMap (sourceOf? globs)).Perm l) :
    sources tree globs place = l := by
  refine eq_of_pairwise_of_mem_iff (pairwise_sources htree globs place) hl fun source => ?_
  rw [← h.mem_iff]
  simp only [sources_eq, FileTree.filesUnder_eq, List.mem_filterMap, List.mem_mergeSort]

/-! ### Runs over files in two trees -/

variable {tree' : FileTree}

theorem readings_congr {text : String} (hregistry : o.fullRegistry = .ok registry)
    (hreads : o.ReadsNoFiles text) (names : List String) :
    Document.readings (optionsAt { o with files := tree' } folder names) filter registry text =
      Document.readings (optionsAt o folder names) filter registry text := by
  refine List.map_congr_left fun comment hcomment => ?_
  have halike : (optionsAt { o with files := tree' } folder names).context.RendersAlike
      (optionsAt o folder names).context := ⟨rfl, rfl, rfl, rfl⟩
  refine Interpretation.ofComment_congr halike fun p hp => ?_
  exact hreads registry hregistry comment (List.mem_filter.mp hcomment).1 p hp
    (optionsAt o folder names).context tree' p.2

/-- Nothing is added if the configuration is at fault. -/
theorem addFile_eq_error {e : Error}
    (h : o.fullFilter = .error e ∨
      (∃ filter, o.fullFilter = .ok filter) ∧ o.fullRegistry = .error e)
    (done : Keyed Record × List TagFailure) (source : List String × String) :
    addFile o folder done source = .error e := by
  have hparse : Document.parse ⟨source.2, optionsAt o folder source.1, none⟩ = .error e := by
    have hfilter : (optionsAt o folder source.1).fullFilter = o.fullFilter := rfl
    have hregistry : (optionsAt o folder source.1).fullRegistry = o.fullRegistry := rfl
    rw [Document.parse, hfilter, hregistry]
    obtain h | ⟨⟨filter, h⟩, h'⟩ := h
    · rw [h]
      rfl
    · rw [h, h']
      rfl
  show (Document.parse ⟨source.2, optionsAt o folder source.1, none⟩ >>= _) = _
  rw [hparse]
  rfl

/-- A file adds the same, and fails in the same way. -/
theorem addFile_congr {source : List String × String} (hreads : o.ReadsNoFiles source.2)
    (done : Keyed Record × List TagFailure) :
    addFile { o with files := tree' } folder done source = addFile o folder done source := by
  let o' : Options := { o with files := tree' }
  have hfilter' : o'.fullFilter = o.fullFilter := rfl
  have hregistry' : o'.fullRegistry = o.fullRegistry := rfl
  cases hfilter : o.fullFilter with
  | error e =>
    rw [addFile_eq_error (.inl hfilter), addFile_eq_error (.inl (hfilter'.trans hfilter))]
  | ok filter =>
    cases hregistry : o.fullRegistry with
    | error e =>
      rw [addFile_eq_error (.inr ⟨⟨filter, hfilter⟩, hregistry⟩),
        addFile_eq_error (.inr ⟨⟨filter, hfilter'.trans hfilter⟩, hregistry'.trans hregistry⟩)]
    | ok registry =>
      have hsame : Document.readings (optionsAt o' folder source.1) filter registry source.2 =
          Document.readings (optionsAt o folder source.1) filter registry source.2 :=
        readings_congr hregistry hreads source.1
      rw [addFile_eq hfilter hregistry, addFile_eq (hfilter'.trans hfilter)
        (hregistry'.trans hregistry)]
      simp only [contribution?, blocksIn, Document.keptBlocks, Document.reported, hsame]
      rfl

/-- So do several files. -/
theorem foldlM_addFile_congr {sources : List (List String × String)}
    (hreads : ∀ source ∈ sources, o.ReadsNoFiles source.2)
    (done : Keyed Record × List TagFailure) :
    sources.foldlM (addFile { o with files := tree' } folder) done =
      sources.foldlM (addFile o folder) done := by
  induction sources generalizing done with
  | nil => rfl
  | cons source sources ih =>
    obtain ⟨hsource, hsources⟩ := List.forall_mem_cons.mp hreads
    rw [List.foldlM_cons, List.foldlM_cons, addFile_congr hsource]
    exact bind_congr fun done => ih hsources done

/-! ### What a run over files leaves -/

section Run

variable (o folder)

/-- What a file has for the index: the block that its document comes with, if that has a namespace.
The key is the namespace with the name of the block, or else with the stem of the file; the record
is the block without its text and with the place of the file. -/
def keyedRecord? (source : List String × String) : Option (String × Record) :=
  (Document.parse ⟨source.2, optionsAt o folder source.1, none⟩).toOption.bind fun result =>
    (result.1.blocks?.getD []).head?.bind fun b =>
      ((Keyed.get? b.record "namespace").bind Value.string?).map fun ns =>
        (ns ++ "." ++ ((Keyed.get? b.record "name").bind Value.string?).getD
            ((fileAt folder source.1).stem?.getD ""),
          Keyed.insert (Keyed.erase b.record "raw") "path" (.text ("/".intercalate source.1)))

/-- The keys are in the order of the first files that have them, and under each is the record of the
last one. -/
structure Indexes (sources : List (List String × String)) (index : Keyed Record) : Prop where
  keys_eq : index.keys = ((sources.filterMap (keyedRecord? o folder)).map Prod.fst).eraseDups
  exists_last : ∀ key r, Keyed.get? index key = some r →
    ∃ before source after, sources = before ++ source :: after ∧
      keyedRecord? o folder source = some (key, r) ∧
      (∀ later ∈ after, ∀ r', keyedRecord? o folder later ≠ some (key, r')) ∧
      Keyed.get? r "raw" = none ∧
      Keyed.get? r "path" = some (.text ("/".intercalate source.1))

end Run

theorem entryOf_eq_map (file : Path) (names : List String) (r : Record) :
    entryOf file names r = ((Keyed.get? r "namespace").bind Value.string?).map fun ns =>
      (ns ++ "." ++ ((Keyed.get? r "name").bind Value.string?).getD (file.stem?.getD ""),
        Keyed.insert (Keyed.erase r "raw") "path" (.text ("/".intercalate names))) := by
  cases hns : (Keyed.get? r "namespace").bind Value.string? with
  | some ns => rw [entryOf_eq hns, Option.map_some]
  | none =>
    rw [entryOf]
    simp only [Keyed.get?_erase_of_ne r (show "namespace" ≠ "raw" by decide), Option.bind_eq_bind]
    rw [← Option.bind_assoc, hns]
    rfl

/-- This is what the run adds for the file. -/
theorem contribution?_eq_keyedRecord? (hfilter : o.fullFilter = .ok filter)
    (hregistry : o.fullRegistry = .ok registry) (source : List String × String) :
    contribution? o folder filter registry source = keyedRecord? o folder source := by
  have hparse : Document.parse ⟨source.2, optionsAt o folder source.1, none⟩ =
      .ok (Document.parsed _ filter registry, _) := Document.parse_eq hfilter hregistry
  rw [contribution?, keyedRecord?, hparse]
  exact Option.bind_congr fun b _ => entryOf_eq_map _ _ _

theorem get?_raw_of_keyedRecord? {source : List String × String} {key : String} {r : Record}
    (h : keyedRecord? o folder source = some (key, r)) :
    Keyed.get? r "raw" = none ∧
      Keyed.get? r "path" = some (.text ("/".intercalate source.1)) := by
  obtain ⟨result, -, h⟩ := Option.bind_eq_some_iff.mp h
  obtain ⟨b, -, h⟩ := Option.bind_eq_some_iff.mp h
  obtain ⟨ns, -, h⟩ := Option.map_eq_some_iff.mp h
  obtain ⟨-, rfl⟩ := Prod.mk.inj h
  refine ⟨?_, by rw [Keyed.get?_insert, if_pos rfl]⟩
  rw [Keyed.get?_insert, if_neg (by decide), Keyed.get?_erase_self]

/-- A run over files leaves an index of them. -/
theorem indexes_of_foldlM_addFile {sources : List (List String × String)} {index : Keyed Record}
    {failures : List TagFailure}
    (h : sources.foldlM (addFile o folder) ([], []) = .ok (index, failures)) :
    Indexes o folder sources index := by
  cases sources with
  | nil =>
    cases h
    exact ⟨rfl, fun _ _ hr => absurd hr (by simp [Keyed.get?])⟩
  | cons source sources =>
    obtain ⟨filter, registry, hfilter, hregistry⟩ :=
      exists_full_of_foldlM_addFile (List.cons_ne_nil source sources) h
    have hsame : contribution? o folder filter registry = keyedRecord? o folder :=
      funext (contribution?_eq_keyedRecord? hfilter hregistry)
    rw [foldlM_addFile hfilter hregistry, hsame] at h
    cases h
    refine ⟨Keyed.keys_ofList _, fun key r hr => ?_⟩
    obtain ⟨before, last, after, hsplit, hlast, hafter⟩ := Keyed.exists_last_of_get?_ofList hr
    exact ⟨before, last, after, hsplit, hlast, hafter, get?_raw_of_keyedRecord? hlast⟩

/-! ### The index of a folder -/

theorem isLookedAt_iff {tree : FileTree} {place : List String}
    (hfolder : tree.isFolder folder = true) (hplace : tree.locate? folder = some place)
    (hglobs : readGlobs exclude = .ok globs) {source : List String × String} :
    IsLookedAt tree folder exclude (source.1, .text source.2) ↔
      source ∈ sources tree globs place := by
  rw [mem_sources_iff hglobs]
  constructor
  · rintro ⟨-, place', hplace', h⟩
    rwa [Option.some.inj (hplace.symm.trans hplace')]
  · exact fun h => ⟨hfolder, place, hplace, h⟩

/-- Only texts are looked at. -/
theorem isLookedAt_congr {tree tree' : FileTree}
    (h : ∀ source : List String × String,
      IsLookedAt tree folder exclude (source.1, .text source.2) ↔
        IsLookedAt tree' folder exclude (source.1, .text source.2))
    (file : List String × FileItem) :
    IsLookedAt tree folder exclude file ↔ IsLookedAt tree' folder exclude file := by
  have hskipped {tree : FileTree} (hskipped : IsSkipped exclude file.1 file.2) :
      ¬IsLookedAt tree folder exclude file := fun ⟨_, _, _, _, hlooked⟩ => hlooked hskipped
  obtain ⟨names, item⟩ := file
  cases item with
  | text s => exact h (names, s)
  | binary => exact iff_of_false (hskipped .binary) (hskipped .binary)
  | folder => exact iff_of_false (hskipped .folder) (hskipped .folder)

theorem namespaceIndex_congr {tree' : FileTree} (htree : o.files.IsProper)
    (htree' : tree'.IsProper) (hfolder : o.files.isFolder folder = true)
    (hfolder' : tree'.isFolder folder = true)
    (hsame : ∀ file,
      IsLookedAt o.files folder exclude file ↔ IsLookedAt tree' folder exclude file)
    (hreads : ∀ names text,
      IsLookedAt o.files folder exclude (names, .text text) → o.ReadsNoFiles text) :
    Options.namespaceIndex { o with files := tree' } folder exclude =
      o.namespaceIndex folder exclude := by
  let o' : Options := { o with files := tree' }
  have hfolder' : o'.files.isFolder folder = true := hfolder'
  cases hglobs : readGlobs exclude with
  | error e =>
    rw [namespaceIndex_eq_error hfolder hglobs, namespaceIndex_eq_error hfolder' hglobs]
  | ok globs =>
    obtain ⟨place, hplace⟩ := exists_locate? hfolder
    obtain ⟨place', hplace'⟩ := exists_locate? hfolder'
    obtain rfl := FileTree.locate?_unique hplace hplace'
    have hsources : sources o.files globs place = sources tree' globs place := by
      refine eq_of_pairwise_of_mem_iff (pairwise_sources htree globs place)
        (pairwise_sources htree' globs place) fun source => ?_
      rw [← isLookedAt_iff hfolder hplace hglobs, ← isLookedAt_iff hfolder' hplace' hglobs]
      exact hsame _
    have hplace' : o'.files.locate? folder = some place := hplace'
    rw [namespaceIndex_eq_foldlM hfolder hplace hglobs,
      namespaceIndex_eq_foldlM hfolder' hplace' hglobs, ← hsources]
    refine foldlM_addFile_congr (fun source hsource => ?_) _
    exact hreads source.1 source.2 ((isLookedAt_iff hfolder hplace hglobs).mpr hsource)

theorem exists_indexes {index : Keyed Record} {failures : List TagFailure}
    (htree : o.files.IsProper)
    (hindex : o.namespaceIndex folder exclude = .ok (index, failures)) :
    ∃ sources : List (List String × String),
      (∀ source, source ∈ sources ↔
        IsLookedAt o.files folder exclude (source.1, .text source.2)) ∧
      (sources.Pairwise fun a b => a.1 < b.1) ∧ Indexes o folder sources index := by
  rcases namespaceIndex_eq_ok_cases hindex with ⟨hfolder, hresult⟩ | ⟨place, globs, hrun⟩
  · cases hresult
    refine ⟨[], fun source => ⟨fun h => absurd h List.not_mem_nil, fun h => ?_⟩, .nil, rfl,
      fun _ _ hr => by cases hr⟩
    exact absurd (hfolder.symm.trans h.1) (by decide)
  · exact ⟨sources o.files globs place,
      fun source => (isLookedAt_iff hrun.isFolder hrun.locate?_eq hrun.readGlobs_eq).symm,
      pairwise_sources htree globs place, indexes_of_foldlM_addFile hrun.foldlM_eq⟩

/-- **Skipped files do not matter for the index.**  If no file that is looked at has a tag that
reads files, two trees with the same files besides skipped ones have the same index of a folder that
both have, or the same error, and report the same failures.  The index has the keys of the files
that are looked at, in the order of the names and each at its first file; under a key is the record
of its last file, without the text and with the path of that file. -/
theorem namespaceIndex_ignores_skipped (o : Options) (folder : Path) (exclude : List String)
    (htree : o.files.IsProper) :
    (∀ tree' : FileTree, tree'.IsProper → o.files.isFolder folder = true →
      tree'.isFolder folder = true →
      (∀ file, IsLookedAt o.files folder exclude file ↔ IsLookedAt tree' folder exclude file) →
      (∀ names text,
        IsLookedAt o.files folder exclude (names, .text text) → o.ReadsNoFiles text) →
      Options.namespaceIndex { o with files := tree' } folder exclude =
        o.namespaceIndex folder exclude) ∧
    ∀ index failures, o.namespaceIndex folder exclude = .ok (index, failures) →
      ∃ sources : List (List String × String),
        (∀ source, source ∈ sources ↔
          IsLookedAt o.files folder exclude (source.1, .text source.2)) ∧
        (sources.Pairwise fun a b => a.1 < b.1) ∧ Indexes o folder sources index :=
  ⟨fun _ htree' hfolder hfolder' hsame hreads =>
    namespaceIndex_congr htree htree' hfolder hfolder' hsame hreads,
  fun _ _ hindex => exists_indexes htree hindex⟩

/-- Two files with one key. -/
def bothTwins : List (List String × String) := [button, (["b.ts"], button.2)]

theorem isLookedAt_iff_mem_bothTwins {tree : FileTree} (htree : tree.IsProper)
    (hfolder : tree.isFolder ⟨"d"⟩ = true) (hplace : tree.locate? ⟨"d"⟩ = some ["d"])
    (hfiles : ((tree.items.filterMap (FileTree.fileBelow? ["d"])).filterMap
      (sourceOf? (globsOf []))).Perm bothTwins) (source : List String × String) :
    IsLookedAt tree ⟨"d"⟩ [] (source.1, .text source.2) ↔ source ∈ bothTwins := by
  have hglobs : readGlobs [] = .ok (globsOf []) := readGlobs_eq_globsOf (by decide +kernel)
  rw [isLookedAt_iff hfolder hplace hglobs, sources_eq_of_perm htree (by decide +kernel) hfiles]

theorem readsNoFiles_of_mem_bothTwins {o : Options} (hregistry : o.registry = .builtin)
    (htags : o.settings.tags = []) {source : List String × String} (h : source ∈ bothTwins) :
    o.ReadsNoFiles source.2 := by
  have htext : source.2 = button.2 := by
    simp only [bothTwins, List.mem_cons, List.not_mem_nil] at h
    grind
  rw [htext]
  exact Options.readsNoFiles_of_builtin hregistry htags (by decide +kernel)

/-- The two files, among files that are skipped. -/
def twins : FileTree := ⟨[
  (["d", ".git", "head.ts"], .text button.2), (["d", "__wip__", "draft.ts"], .text button.2),
  ("d" :: button.1, .text button.2), (["d", "b.ts"], .text button.2), (["d", "logo"], .binary)]⟩

/-- The two files alone. -/
def bareTwins : FileTree := ⟨[
  (["d", "b.ts"], .text button.2), ("d" :: button.1, .text button.2), (["d", "c"], .folder)]⟩

theorem namespaceIndex_ignores_skipped_sample :
    ∃ index failures,
      Options.namespaceIndex { files := twins } ⟨"d"⟩ [] = .ok (index, failures) ∧
      Options.namespaceIndex { files := bareTwins } ⟨"d"⟩ [] = .ok (index, failures) ∧
      index.keys = ["ui.Button"] ∧
      ∀ r, Keyed.get? index "ui.Button" = some r →
        Keyed.get? r "raw" = none ∧ Keyed.get? r "path" = some (.text "b.ts") := by
  let o : Options := { files := twins }
  have htwins : twins.IsProper := by decide +kernel
  have hbare : bareTwins.IsProper := by decide +kernel
  have hlooked := isLookedAt_iff_mem_bothTwins htwins (by decide +kernel) (by decide +kernel)
    (by decide +kernel)
  have hlooked' := isLookedAt_iff_mem_bothTwins hbare (by decide +kernel) (by decide +kernel)
    (by decide +kernel)
  obtain ⟨hignores, hindexes⟩ := namespaceIndex_ignores_skipped o ⟨"d"⟩ [] htwins
  have hsame := hignores bareTwins hbare (by decide +kernel) (by decide +kernel)
    (isLookedAt_congr fun source => (hlooked source).trans (hlooked' source).symm)
    fun names text h => readsNoFiles_of_mem_bothTwins rfl rfl ((hlooked (names, text)).mp h)
  have hfilter : o.fullFilter = .ok [] := rfl
  have hregistry : o.fullRegistry = .ok .builtin := rfl
  have hfolder : o.files.isFolder ⟨"d"⟩ = true := by decide +kernel
  have hglobs : readGlobs [] = .ok (globsOf []) := readGlobs_eq_globsOf (by decide +kernel)
  obtain ⟨failures, hindex⟩ := namespaceIndex_eq hfilter hregistry hfolder hglobs
  obtain ⟨files, hmem, hsorted, hkeys, hlast⟩ := hindexes _ failures hindex
  obtain rfl : files = bothTwins :=
    eq_of_pairwise_of_mem_iff hsorted (by decide +kernel) fun source =>
      (hmem source).trans (hlooked source)
  refine ⟨_, failures, hindex, hsame.trans hindex, ?_, fun r hr => ?_⟩
  · rw [hkeys]
    decide +kernel
  · obtain ⟨before, source, after, hsplit, -, hafter, hraw, hpath⟩ := hlast _ _ hr
    have hsecond : (keyedRecord? o ⟨"d"⟩ (["b.ts"], button.2)).map Prod.fst = some "ui.Button" := by
      decide +kernel
    obtain ⟨⟨-, r'⟩, hr', rfl⟩ := Option.map_eq_some_iff.mp hsecond
    refine ⟨hraw, ?_⟩
    match before, hsplit with
    | [], hsplit =>
      obtain ⟨-, rfl⟩ := List.cons.inj hsplit
      exact absurd hr' (hafter _ List.mem_cons_self r')
    | [_], hsplit =>
      obtain ⟨rfl, -⟩ := List.cons.inj (List.cons.inj hsplit).2
      exact hpath
    | _ :: _ :: _, hsplit =>
      simp [bothTwins] at hsplit

end NamespaceIndex

end DocComment
