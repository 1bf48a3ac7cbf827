/-
What the index of a folder holds.

A file that is looked at adds what comes out first when its blocks are sorted (`contribution?`), and
the index is the keyed list of what the files add, one file after the other (`namespaceIndex_eq`).

* `mentionsTag_of_namespace` — the search for the tag passes over no file with a namespace;
* `namespaceIndex_holds_first` — with the default options a file adds its first block, provided the
  sorting leaves that block in front;
* `not_forall_holds_first` — otherwise it adds another one: a later block is moved in front of a
  first block that has a namespace too, or a longer name.
-/
import DocComment.NamespaceIndex
import DocComment.Proofs.Comment.Extraction
import DocComment.Proofs.Comment.Mention
import DocComment.Proofs.Document
import DocComment.Proofs.Interpretation.Identifier

namespace DocComment

namespace NamespaceIndex

variable (o : Options) (folder : Path)

/-! ### The files that are looked at -/

/-- A file that is looked at, with its text. -/
def sourceOf? (globs : List Glob) (file : List String × FileItem) :
    Option (List String × String) :=
  match file.2 with
  | .text s => if isVisited globs file.1 && mentionsTag s then some (file.1, s) else none
  | _ => none

theorem sourceOf?_eq_some_iff {globs : List Glob} {file : List String × FileItem}
    {source : List String × String} :
    sourceOf? globs file = some source ↔
      file = (source.1, .text source.2) ∧ isVisited globs source.1 = true ∧
        mentionsTag source.2 = true := by
  obtain ⟨names, item⟩ := file
  obtain ⟨names', text⟩ := source
  cases item with
  | text s =>
    simp only [sourceOf?, Option.ite_none_right_eq_some, Bool.and_eq_true, Option.some.injEq,
      Prod.mk.injEq, FileItem.text.injEq]
    grind
  | binary => simp [sourceOf?]
  | folder => simp [sourceOf?]

theorem sourceOf?_text {globs : List Glob} {names : List String} {s : String}
    (hvisited : isVisited globs names = true) (hmentions : mentionsTag s = true) :
    sourceOf? globs (names, .text s) = some (names, s) :=
  sourceOf?_eq_some_iff.mpr ⟨rfl, hvisited, hmentions⟩

theorem sources_eq (tree : FileTree) (globs : List Glob) (names : List String) :
    sources tree globs names = (tree.filesUnder names).filterMap (sourceOf? globs) := rfl

theorem isSome_cutAtWord?_iff {w t : Text} : (Text.cutAtWord? w t).isSome = true ↔ w <:+: t := by
  induction t with
  | nil => cases w <;> simp [Text.cutAtWord?]
  | cons c t ih =>
    rw [List.infix_cons_iff, ← ih]
    conv_lhs => unfold Text.cutAtWord?
    cases hafter : Text.after? w (c :: t) with
    | some rest => simp [Text.after?_eq_some_iff.mp hafter]
    | none => simp [Text.after?_eq_none_iff.mp hafter]

theorem mentionsTag_iff {s : String} :
    mentionsTag s = true ↔ "@namespace".toList <:+: s.toList := isSome_cutAtWord?_iff

/-! ### What a file adds -/

/-- The path of a file, given by its names below the folder. -/
def fileAt (names : List String) : Path := names.foldl (fun p name => p.join ⟨name⟩) folder

/-- The options that the file is parsed with. -/
def optionsAt (names : List String) : Options :=
  { o with settings := { o.settings with filePath := some (fileAt folder names) } }

variable (filter : TagFilter) (registry : Registry)

/-- The blocks of a file, in the order of its text. -/
def blocksIn (source : List String × String) : List Block :=
  Document.keptBlocks (optionsAt o folder source.1) filter registry source.2

/-- What a text adds: the block that comes out first, if it has a namespace. -/
def contribution? (source : List String × String) : Option (String × Record) :=
  (insertionSort (fun a b => o.order a.record b.record)
    (blocksIn o folder filter registry source)).head?.bind fun b =>
      entryOf (fileAt folder source.1) source.1 b.record

/-- What a file adds. -/
def contributionOf? (globs : List Glob) (file : List String × FileItem) :
    Option (String × Record) :=
  (sourceOf? globs file).bind (contribution? o folder filter registry)

variable {o folder filter registry}

theorem addFile_eq (hfilter : o.fullFilter = .ok filter) (hregistry : o.fullRegistry = .ok registry)
    (done : Keyed Record × List TagFailure) (source : List String × String) :
    addFile o folder done source =
      .ok ((contribution? o folder filter registry source).toList.foldl
          (fun m p => Keyed.insert m p.1 p.2) done.1,
        done.2 ++ Document.reported (optionsAt o folder source.1) filter registry source.2) := by
  obtain ⟨names, text⟩ := source
  have hparse := Document.parse_eq (d := ⟨text, optionsAt o folder names, none⟩) hfilter hregistry
  rw [addFile]
  show (Document.parse ⟨text, optionsAt o folder names, none⟩ >>= _) = _
  rw [hparse]
  dsimp only [bind, Except.bind]
  split
  · next key r hadds =>
    have hadds : contribution? o folder filter registry (names, text) = some (key, r) := hadds
    rw [hadds]
    rfl
  · next hadds =>
    have hadds : contribution? o folder filter registry (names, text) = none := hadds
    rw [hadds]
    rfl

/-- A run over files adds what they add, in order. -/
theorem foldlM_addFile (hfilter : o.fullFilter = .ok filter)
    (hregistry : o.fullRegistry = .ok registry) (l : List (List String × String))
    (done : Keyed Record × List TagFailure) :
    l.foldlM (addFile o folder) done =
      .ok ((l.filterMap (contribution? o folder filter registry)).foldl
          (fun m p => Keyed.insert m p.1 p.2) done.1,
        done.2 ++ l.flatMap fun source =>
          Document.reported (optionsAt o folder source.1) filter registry source.2) := by
  induction l generalizing done with
  | nil => rw [List.flatMap_nil, List.append_nil]; rfl
  | cons source l ih =>
    rw [List.foldlM_cons, addFile_eq hfilter hregistry]
    show l.foldlM (addFile o folder) _ = _
    rw [ih, List.flatMap_cons, List.append_assoc]
    cases hadds : contribution? o folder filter registry source with
    | none => rw [List.filterMap_cons_none hadds]; rfl
    | some p => rw [List.filterMap_cons_some hadds]; rfl

theorem exists_locate? {tree : FileTree} (hfolder : tree.isFolder folder = true) :
    ∃ place, tree.locate? folder = some place := by
  obtain ⟨place, hplace, -⟩ := Option.bind_eq_some_iff.mp (eq_of_beq hfolder)
  exact ⟨place, hplace⟩

/-- The index of a folder that is there is a run over the files that are looked at. -/
theorem namespaceIndex_eq_foldlM {exclude : List String} {globs : List Glob} {place : List String}
    (hfolder : o.files.isFolder folder = true) (hplace : o.files.locate? folder = some place)
    (hglobs : readGlobs exclude = .ok globs) :
    o.namespaceIndex folder exclude =
      (sources o.files globs place).foldlM (addFile o folder) ([], []) := by
  rw [Options.namespaceIndex, hfolder, hglobs, hplace]
  rfl

/-- Nothing is looked at if a glob cannot be read. -/
theorem namespaceIndex_eq_error {exclude : List String}
    (hfolder : o.files.isFolder folder = true) {e : Error} (hglobs : readGlobs exclude = .error e) :
    o.namespaceIndex folder exclude = .error e := by
  rw [Options.namespaceIndex, hfolder, hglobs]
  rfl

/-- The run from which the index of a folder comes. -/
structure IsRun (o : Options) (folder : Path) (exclude : List String) (place : List String)
    (globs : List Glob) (result : Keyed Record × List TagFailure) : Prop where
  isFolder : o.files.isFolder folder = true
  locate?_eq : o.files.locate? folder = some place
  readGlobs_eq : readGlobs exclude = .ok globs
  foldlM_eq : (sources o.files globs place).foldlM (addFile o folder) ([], []) = .ok result

/-- An index is empty, as the folder is not there, or it comes from a run. -/
theorem namespaceIndex_eq_ok_cases {exclude : List String}
    {result : Keyed Record × List TagFailure}
    (hindex : o.namespaceIndex folder exclude = .ok result) :
    (o.files.isFolder folder = false ∧ result = ([], [])) ∨
      ∃ place globs, IsRun o folder exclude place globs result := by
  cases hfolder : o.files.isFolder folder with
  | false =>
    rw [Options.namespaceIndex, hfolder] at hindex
    cases hindex
    exact .inl ⟨rfl, rfl⟩
  | true =>
    obtain ⟨place, hplace⟩ := exists_locate? hfolder
    cases hglobs : readGlobs exclude with
    | error e =>
      rw [namespaceIndex_eq_error hfolder hglobs] at hindex
      cases hindex
    | ok globs =>
      rw [namespaceIndex_eq_foldlM hfolder hplace hglobs] at hindex
      exact .inr ⟨place, globs, hfolder, hplace, hglobs, hindex⟩

theorem namespaceIndex_eq (hfilter : o.fullFilter = .ok filter)
    (hregistry : o.fullRegistry = .ok registry) {exclude : List String} {globs : List Glob}
    (hfolder : o.files.isFolder folder = true) (hglobs : readGlobs exclude = .ok globs) :
    ∃ failures, o.namespaceIndex folder exclude =
      .ok (Keyed.ofList ((o.files.filesUnder ((o.files.locate? folder).getD [])).filterMap
        (contributionOf? o folder filter registry globs)), failures) := by
  obtain ⟨place, hplace⟩ := exists_locate? hfolder
  rw [namespaceIndex_eq_foldlM hfolder hplace hglobs, hplace, sources_eq,
    foldlM_addFile hfilter hregistry, List.filterMap_filterMap]
  exact ⟨_, rfl⟩

/-! ### The first block -/

theorem entryOf_eq {r : Record} {ns : String}
    (hns : (Keyed.get? r "namespace").bind Value.string? = some ns) (file : Path)
    (names : List String) :
    entryOf file names r = some
      (ns ++ "." ++ ((Keyed.get? r "name").bind Value.string?).getD (file.stem?.getD ""),
        Keyed.insert (Keyed.erase r "raw") "path" (.text ("/".intercalate names))) := by
  obtain ⟨v, hv, hstring⟩ := Option.bind_eq_some_iff.mp hns
  have hget : Keyed.get? (Keyed.erase r "raw") "namespace" = some v := by
    rw [Keyed.get?_erase_of_ne r (by decide), hv]
  rw [entryOf]
  simp only [hget, Keyed.get?_erase_of_ne r (show "name" ≠ "raw" by decide)]
  show (v.string? >>= _) = _
  rw [hstring]
  rfl

/-- A text of which some block has a namespace mentions the tag. -/
theorem mentionsTag_of_namespace (hrender : o.settings.renderMarkdown = false)
    {source : List String × String} {b : Block}
    (hb : b ∈ blocksIn o folder filter .builtin source) {v : Value}
    (hv : Keyed.get? b.record "namespace" = some v) : mentionsTag source.2 = true := by
  obtain ⟨result, hresult, rfl⟩ := List.mem_map.mp (List.mem_filter.mp hb).1
  obtain ⟨comment, haccepted, rfl⟩ := List.mem_map.mp hresult
  have hcomment := (List.mem_filter.mp haccepted).1
  obtain ⟨c, body, hc, -⟩ := Comment.isComment_of_mem_comments hcomment
  have hbody : comment.toList = "/**".toList ++ c :: body ++ "*/".toList := by simpa using hc
  have hentry : (Comment.entries comment).first? "namespace" ≠ none := by
    intro hnone
    rw [Interpretation.record_ofComment, Record.get?_complete_of_ne _ _ (by decide) (by decide),
      Interpretation.get?_namespace _ hrender (Interpretation.nodup_tags_entries comment)
        (Interpretation.hasSolidInlines_entries comment), hnone] at hv
    cases hv
  have hmention : Comment.mention "namespace".toList <:+: comment.toList := by
    by_contra hnot
    exact hentry (Comment.first?_eq_none_of_not_mention hbody
      ⟨by decide, List.all_eq_true.mp (by decide)⟩ (by decide) hnot)
  exact mentionsTag_iff.mpr (hmention.trans (Comment.infix_of_mem_comments hcomment))

/-- With the default options, a file has a block for each of its comments. -/
theorem blocksIn_default (tree : FileTree) (folder : Path) (source : List String × String) :
    let o : Options := { files := tree }
    blocksIn o folder [] .builtin source = (Comment.comments source.2).map fun comment =>
      (Block.ofComment .builtin (optionsAt o folder source.1).context comment).1 := by
  intro o
  have haccepts : (Comment.comments source.2).filter (TagFilter.accepts []) =
      Comment.comments source.2 := List.filter_true _
  rw [blocksIn, Document.keptBlocks, Document.readings, haccepts, List.map_map]
  exact List.filter_true _

/-- **With the default options, a file that is looked at adds its first block** if that block has a
namespace and the sorting leaves it in front; the index has it, unless a later file takes its
key. -/
theorem namespaceIndex_holds_first {tree : FileTree} {folder : Path} {exclude : List String}
    {globs : List Glob} (hfolder : tree.isFolder folder = true)
    (hglobs : readGlobs exclude = .ok globs) :
    let o : Options := { files := tree }
    let files := tree.filesUnder ((tree.locate? folder).getD [])
    let adds := contributionOf? o folder [] .builtin globs
    ∃ failures,
      o.namespaceIndex folder exclude = .ok (Keyed.ofList (files.filterMap adds), failures) ∧
      ∀ before names text after b bs ns,
        files = before ++ (names, .text text) :: after → isVisited globs names = true →
        blocksIn o folder [] .builtin (names, text) = b :: bs →
        (Keyed.get? b.record "namespace").bind Value.string? = some ns →
        StaysFirst (fun a b => Order.heuristic a.record b.record) b bs →
          let name := ((Keyed.get? b.record "name").bind Value.string?).getD
            ((fileAt folder names).stem?.getD "")
          let r := Keyed.insert (Keyed.erase b.record "raw") "path"
            (.text ("/".intercalate names))
          adds (names, .text text) = some (ns ++ "." ++ name, r) ∧
            ((∀ file ∈ after, ∀ p, adds file = some p → p.1 ≠ ns ++ "." ++ name) →
              Keyed.get? (Keyed.ofList (files.filterMap adds)) (ns ++ "." ++ name) = some r) := by
  intro o files adds
  have hfilter : o.fullFilter = .ok [] := rfl
  have hregistry : o.fullRegistry = .ok .builtin := rfl
  obtain ⟨failures, hindex⟩ := namespaceIndex_eq hfilter hregistry hfolder hglobs
  refine ⟨failures, hindex, ?_⟩
  intro before names text after b bs ns hfiles hvisited hblocks hns hfirst name r
  have hadds : adds (names, .text text) = some (ns ++ "." ++ name, r) := by
    obtain ⟨v, hv, -⟩ := Option.bind_eq_some_iff.mp hns
    have hmem : b ∈ blocksIn o folder [] .builtin (names, text) :=
      hblocks ▸ List.mem_cons_self
    have hmentions : mentionsTag text = true := mentionsTag_of_namespace rfl hmem hv
    show (sourceOf? globs (names, .text text)).bind _ = _
    rw [sourceOf?_text hvisited hmentions, Option.bind_some, contribution?, hblocks,
      head?_insertionSort_of_staysFirst hfirst, Option.bind_some, entryOf_eq hns]
  refine ⟨hadds, fun hafter => ?_⟩
  have hlast : ns ++ "." ++ name ∉ (after.filterMap adds).map Prod.fst := by
    intro hmem
    obtain ⟨p, hp, hkey⟩ := List.mem_map.mp hmem
    obtain ⟨file, hfile, hfileadds⟩ := List.mem_filterMap.mp hp
    exact hafter file hfile p hfileadds hkey
  rw [hfiles, List.filterMap_append, List.filterMap_cons_some hadds,
    Keyed.get?_ofList_append_cons hlast]

/-- A folder with one file. -/
def folderWith (text : String) : FileTree := ⟨[(["d", "a.ts"], .text text)]⟩

/-- The globs of a list that can be read. -/
def globsOf (exclude : List String) : List Glob := (readGlobs exclude).toOption.getD []

theorem readGlobs_eq_globsOf {exclude : List String}
    (h : (readGlobs exclude).toOption.isSome = true) : readGlobs exclude = .ok (globsOf exclude) := by
  rw [globsOf]
  cases hread : readGlobs exclude with
  | error e => rw [hread] at h; cases h
  | ok globs => rfl

/-- A block with a namespace, and a block without one behind it. -/
def sample : String :=
  "/**\n * @name Button\n * @namespace ui\n */ /** @name other */"

theorem namespaceIndex_holds_first_sample :
    ∃ index failures r,
      Options.namespaceIndex { files := folderWith sample } ⟨"d"⟩ [] = .ok (index, failures) ∧
        Keyed.get? index "ui.Button" = some r := by
  have hglobs : readGlobs [] = .ok (globsOf []) := readGlobs_eq_globsOf (by decide +kernel)
  have hfolder : (folderWith sample).isFolder ⟨"d"⟩ = true := by decide +kernel
  have hfiles : (folderWith sample).filesUnder (((folderWith sample).locate? ⟨"d"⟩).getD []) =
      [] ++ (["a.ts"], .text sample) :: [] := by decide +kernel
  have hcomments : Comment.comments sample =
      ["/**\n * @name Button\n * @namespace ui\n */", "/** @name other */"] := by decide +kernel
  have hblocks := blocksIn_default (folderWith sample) ⟨"d"⟩ (["a.ts"], sample)
  dsimp only at hblocks
  rw [hcomments] at hblocks
  obtain ⟨failures, hindex, hfirst⟩ := namespaceIndex_holds_first hfolder hglobs
  obtain ⟨-, hget⟩ := hfirst [] ["a.ts"] sample [] _ _ "ui" hfiles (by decide +kernel) hblocks
    (by decide +kernel) (staysFirst_of_forall (by decide +kernel))
  have hname : (Keyed.get? (Block.ofComment .builtin
      (optionsAt { files := folderWith sample } ⟨"d"⟩ ["a.ts"]).context
        "/**\n * @name Button\n * @namespace ui\n */").1.record "name").bind Value.string? =
          some "Button" := by decide +kernel
  rw [hname] at hget
  exact ⟨_, failures, _, hindex, hget fun file hfile => absurd hfile List.not_mem_nil⟩

/-- Two blocks of one namespace: the first one moves behind the second. -/
def moved : String :=
  "/**\n * @name Button\n * @namespace ui\n */\n/**\n * @name Link\n * @namespace ui\n */"

/-- A file can add another block than its first one, also when it is the only file. -/
theorem not_forall_holds_first :
    ¬∀ (tree : FileTree) (folder : Path) (exclude : List String) (globs : List Glob)
      (names : List String) (text : String) (b : Block) (bs : List Block) (ns name : String)
      (index : Keyed Record) (failures : List TagFailure),
      tree.isFolder folder = true → readGlobs exclude = .ok globs →
      tree.filesUnder ((tree.locate? folder).getD []) = [(names, .text text)] →
      isVisited globs names = true →
      blocksIn { files := tree } folder [] .builtin (names, text) = b :: bs →
      (Keyed.get? b.record "namespace").bind Value.string? = some ns →
      (Keyed.get? b.record "name").bind Value.string? = some name →
      Options.namespaceIndex { files := tree } folder exclude = .ok (index, failures) →
        Keyed.contains index (ns ++ "." ++ name) = true := by
  intro h
  have hglobs : readGlobs [] = .ok (globsOf []) := readGlobs_eq_globsOf (by decide +kernel)
  have hcomments : Comment.comments moved =
      ["/**\n * @name Button\n * @namespace ui\n */",
        "/**\n * @name Link\n * @namespace ui\n */"] := by decide +kernel
  have hblocks := blocksIn_default (folderWith moved) ⟨"d"⟩ (["a.ts"], moved)
  dsimp only at hblocks
  rw [hcomments] at hblocks
  have hkeys : (Options.namespaceIndex { files := folderWith moved } ⟨"d"⟩ []).toOption.map
      (fun r => Keyed.keys r.1) = some ["ui.Link"] := by decide +kernel
  obtain ⟨⟨index, failures⟩, hindex, hlink⟩ := Option.map_eq_some_iff.mp hkeys
  have hok : Options.namespaceIndex { files := folderWith moved } ⟨"d"⟩ [] =
      .ok (index, failures) := by
    cases hrun : Options.namespaceIndex { files := folderWith moved } ⟨"d"⟩ [] with
    | error e => rw [hrun] at hindex; cases hindex
    | ok r => rw [hrun] at hindex; exact congrArg _ (Option.some.inj hindex)
  have hbutton := h (folderWith moved) ⟨"d"⟩ [] _ ["a.ts"] moved _ _ "ui" "Button" index failures
    (by decide +kernel) hglobs (by decide +kernel) (by decide +kernel) hblocks (by decide +kernel)
    (by decide +kernel) hok
  rw [Keyed.contains_iff_mem_keys, hlink] at hbutton
  exact absurd hbutton (by decide)

end NamespaceIndex

end DocComment
