/-
Where a walk through a folder comes to.

In a tree as file systems have them (`FileTree.IsProper`) every item lies at a place of its own, and
the names on the way to it are names: not empty, without slashes, neither `.` nor `..`.

* `locate?_foldl_join` — joining names to the path of a folder leads down by these names;
* `locate?_unique` — a path leads to the same place in all trees in which it leads anywhere;
* `mem_filesUnder_iff` — a walk finds the files below its folder, each under the rest of its names;
* `IsProper.pairwise_filesUnder` — it comes to them in the order of these names, and to each once;
* `read?_of_mem_filesUnder` — reading the path of a text that a walk finds gives the text.

So two walks from one folder find the same files in the same order as soon as the trees have the
same files below it.
-/
import DocComment.Files.Tree
import Mathlib.Data.List.Lex
import Mathlib.Data.List.Nodup
import Mathlib.Data.List.Sort
import Mathlib.Data.String.Basic

namespace DocComment

/-- A name that a file or a folder can have. -/
structure IsFileName (name : String) : Prop where
  ne_empty : name ≠ ""
  slash_notMem : '/' ∉ name.toList
  ne_dot : name ≠ "."
  ne_dots : name ≠ ".."

instance (name : String) : Decidable (IsFileName name) :=
  decidable_of_iff (name ≠ "" ∧ '/' ∉ name.toList ∧ name ≠ "." ∧ name ≠ "..")
    ⟨fun ⟨h₁, h₂, h₃, h₄⟩ => ⟨h₁, h₂, h₃, h₄⟩, fun ⟨h₁, h₂, h₃, h₄⟩ => ⟨h₁, h₂, h₃, h₄⟩⟩

namespace FileTree

/-- Every item has a place of its own, with proper names on the way to it. -/
structure IsProper (tree : FileTree) : Prop where
  ne_nil : ∀ item ∈ tree.items, item.1 ≠ []
  isFileName : ∀ item ∈ tree.items, ∀ name ∈ item.1, IsFileName name
  nodup : (tree.items.map Prod.fst).Nodup

instance (tree : FileTree) : Decidable tree.IsProper :=
  decidable_of_iff ((∀ item ∈ tree.items, item.1 ≠ []) ∧
      (∀ item ∈ tree.items, ∀ name ∈ item.1, IsFileName name) ∧ (tree.items.map Prod.fst).Nodup)
    ⟨fun ⟨h₁, h₂, h₃⟩ => ⟨h₁, h₂, h₃⟩, fun ⟨h₁, h₂, h₃⟩ => ⟨h₁, h₂, h₃⟩⟩

variable {tree tree' : FileTree}

/-! ### Following a path -/

/-- A name is one step down. -/
theorem follow?_of_isFileName {name : String} (h : IsFileName name) (names : List String) :
    tree.follow? names name.toList = some (names ++ [name]) := by
  have hne (s : String) (hs : name ≠ s) : name.toList ≠ s.toList :=
    fun heq => hs (String.toList_inj.mp heq)
  have hempty : name.toList.isEmpty = false := by
    rw [List.isEmpty_eq_false_iff]
    exact hne "" h.ne_empty
  have hdot : (name.toList == ['.']) = false := beq_false_of_ne (hne "." h.ne_dot)
  have hdots : (name.toList == ['.', '.']) = false := beq_false_of_ne (hne ".." h.ne_dots)
  rw [follow?, hempty, hdot, hdots, String.ofList_toList]
  rfl

/-- The empty segment behind the last slash leads nowhere else. -/
theorem eq_of_follow?_nil {names names' : List String} (h : tree.follow? names [] = some names') :
    names = names' := by
  rw [follow?] at h
  split at h
  · split at h
    · exact Option.some.inj h
    · cases h
  · next hfiller => exact absurd rfl hfiller

/-- Where a relative path leads, read from its text. -/
structure LeadsTo (tree : FileTree) (t : Text) (names : List String) : Prop where
  starts : ∃ c rest, t = c :: rest ∧ c ≠ '/'
  follows : (t.splitOn '/').foldlM tree.follow? [] = some names

theorem locate?_eq_some_iff {p : Path} {names : List String} :
    tree.locate? p = some names ↔ tree.LeadsTo p.text.toList names := by
  have hstarts : (p.text.isEmpty || p.isAbsolute) = false ↔
      ∃ c rest, p.text.toList = c :: rest ∧ c ≠ '/' := by
    rw [Bool.or_eq_false_iff, String.isEmpty_eq_false_iff, ne_eq, ← String.toList_inj,
      Path.isAbsolute]
    cases p.text.toList <;> simp
  rw [locate?, Path.reversedSegments, List.reverse_reverse]
  constructor
  · intro h
    split at h
    · cases h
    · next hpath => exact ⟨hstarts.mp (by simpa using hpath), h⟩
  · rintro ⟨hpath, h⟩
    rw [hstarts.mpr hpath]
    exact h

namespace LeadsTo

variable {t : Text} {names : List String}

/-- A slash at the end leads nowhere else. -/
theorem of_append_slash (h : tree.LeadsTo (t ++ ['/']) names) : tree.LeadsTo t names := by
  obtain ⟨⟨c, rest, hstart, hc⟩, hfollows⟩ := h
  constructor
  · cases t with
    | nil => exact absurd (List.cons.inj hstart).1.symm hc
    | cons c' t => exact ⟨c', t, rfl, (List.cons.inj hstart).1 ▸ hc⟩
  · rw [List.splitOn_append_cons_self, List.splitOn_nil, List.foldlM_append] at hfollows
    obtain ⟨names', hnames', hlast⟩ := Option.bind_eq_some_iff.mp hfollows
    have hnil : tree.follow? names' [] = some names := by simpa using hlast
    rw [hnames', eq_of_follow?_nil hnil]

/-- A name behind a slash is one step further down. -/
theorem append_name (h : tree.LeadsTo t names) {name : String} (hname : IsFileName name) :
    tree.LeadsTo (t ++ '/' :: name.toList) (names ++ [name]) := by
  obtain ⟨⟨c, rest, rfl, hc⟩, hfollows⟩ := h
  refine ⟨⟨c, rest ++ '/' :: name.toList, List.cons_append, hc⟩, ?_⟩
  rw [List.splitOn_append_cons_self (c :: rest) name.toList,
    List.splitOn_eq_singleton hname.slash_notMem, List.foldlM_append, hfollows]
  show [name.toList].foldlM tree.follow? names = _
  rw [List.foldlM_cons, follow?_of_isFileName hname]
  rfl

end LeadsTo

/-- One name joined to a path is one step further down. -/
theorem locate?_join {p : Path} {names : List String} (hp : tree.locate? p = some names)
    {name : String} (hname : IsFileName name) :
    tree.locate? (p.join ⟨name⟩) = some (names ++ [name]) := by
  have hleads := locate?_eq_some_iff.mp hp
  have hrelative : (Path.isAbsolute ⟨name⟩ || p.text.isEmpty) = false := by
    obtain ⟨c, rest, hstart, -⟩ := hleads.starts
    have hslash : name.toList.head? ≠ some '/' :=
      fun h => hname.slash_notMem (List.mem_of_head? h)
    rw [Bool.or_eq_false_iff, String.isEmpty_eq_false_iff, ne_eq, ← String.toList_inj, hstart]
    exact ⟨beq_false_of_ne hslash, List.cons_ne_nil c rest⟩
  rw [locate?_eq_some_iff, Path.join, hrelative]
  -- the slash before the name is the path's own, or it is put in
  by_cases hlast : p.text.toList.getLast? = some '/'
  · obtain ⟨t, ht⟩ := List.getLast?_eq_some_iff.mp hlast
    rw [ht] at hleads
    have htext : (p.text ++ name).toList = t ++ '/' :: name.toList := by
      rw [String.toList_append, ht, List.append_assoc]
      rfl
    rw [if_pos hlast]
    exact htext ▸ hleads.of_append_slash.append_name hname
  · have htext : (p.text ++ "/" ++ name).toList = p.text.toList ++ '/' :: name.toList := by
      simp [String.toList_append]
    rw [if_neg hlast]
    exact htext ▸ hleads.append_name hname

/-- So are several names, one after the other. -/
theorem locate?_foldl_join {folder : Path} {place names : List String}
    (hfolder : tree.locate? folder = some place) (hnames : ∀ name ∈ names, IsFileName name) :
    tree.locate? (names.foldl (fun p name => p.join ⟨name⟩) folder) = some (place ++ names) := by
  induction names generalizing folder place with
  | nil => rwa [List.append_nil]
  | cons name names ih =>
    obtain ⟨hname, hrest⟩ := List.forall_mem_cons.mp hnames
    rw [List.foldl_cons, ih (locate?_join hfolder hname) hrest, List.append_assoc]
    rfl

/-- A step leads to the same names in all trees in which it leads anywhere. -/
theorem follow?_unique {place names names' : List String} {segment : Text}
    (h : tree.follow? place segment = some names) (h' : tree'.follow? place segment = some names') :
    names = names' := by
  rw [follow?] at h h'
  split at h
  · next hfiller =>
    rw [if_pos hfiller] at h'
    grind
  · grind

/-- So does a path. -/
theorem locate?_unique {p : Path} {names names' : List String} (h : tree.locate? p = some names)
    (h' : tree'.locate? p = some names') : names = names' := by
  rw [locate?] at h h'
  split at h
  · cases h
  · next hrelative =>
    rw [if_neg hrelative] at h'
    revert h h'
    generalize p.reversedSegments.reverse = segments
    generalize [] = place
    induction segments generalizing place with
    | nil => exact fun h' h => (Option.some.inj h).symm.trans (Option.some.inj h')
    | cons segment segments ih =>
      intro h' h
      obtain ⟨next, hnext, h⟩ := Option.bind_eq_some_iff.mp h
      obtain ⟨next', hnext', h'⟩ := Option.bind_eq_some_iff.mp h'
      obtain rfl := follow?_unique hnext hnext'
      exact ih next h' h

/-! ### What a walk finds -/

/-- A file, with its names from the folder on. -/
def fileBelow? (place : List String) (item : List String × FileItem) :
    Option (List String × FileItem) :=
  if item.2 = .folder then none else (place.isPrefixOf? item.1).map (·, item.2)

theorem filesUnder_eq (tree : FileTree) (place : List String) :
    tree.filesUnder place =
      (tree.items.filterMap (fileBelow? place)).mergeSort fun a b => !decide (b.1 < a.1) := rfl

theorem fileBelow?_eq_some_iff {place : List String} {item file : List String × FileItem} :
    fileBelow? place item = some file ↔ item = (place ++ file.1, file.2) ∧ file.2 ≠ .folder := by
  obtain ⟨names, item⟩ := item
  obtain ⟨rest, item'⟩ := file
  rw [fileBelow?]
  split
  · next hfolder =>
    simp_all
  · next hfile =>
    rw [Option.map_eq_some_iff]
    simp only [List.isPrefixOf?_eq_some_iff_append_eq, Prod.mk.injEq]
    constructor
    · rintro ⟨_, rfl, rfl, rfl⟩
      exact ⟨⟨rfl, rfl⟩, hfile⟩
    · rintro ⟨⟨rfl, rfl⟩, -⟩
      exact ⟨rest, rfl, rfl, rfl⟩

/-- A walk finds the files below its folder. -/
theorem mem_filesUnder_iff {place names : List String} {item : FileItem} :
    (names, item) ∈ tree.filesUnder place ↔
      (place ++ names, item) ∈ tree.items ∧ item ≠ .folder := by
  simp only [filesUnder_eq, List.mem_mergeSort, List.mem_filterMap, fileBelow?_eq_some_iff]
  constructor
  · rintro ⟨_, hitem, rfl, hfile⟩
    exact ⟨hitem, hfile⟩
  · rintro ⟨hitem, hfile⟩
    exact ⟨_, hitem, rfl, hfile⟩

/-- A walk comes to the files in the order of their names, and to each once. -/
theorem IsProper.pairwise_filesUnder (htree : tree.IsProper) (place : List String) :
    (tree.filesUnder place).Pairwise fun a b => a.1 < b.1 := by
  rw [filesUnder_eq]
  have hsorted : ((tree.items.filterMap (fileBelow? place)).mergeSort
      fun a b => !decide (b.1 < a.1)).Pairwise fun a b => a.1 ≤ b.1 := by
    refine (List.pairwise_mergeSort ?_ ?_ _).imp fun h => by simpa using h
    · intro a b c hab hbc
      simp only [Bool.not_eq_true', decide_eq_false_iff_not, not_lt] at hab hbc ⊢
      exact le_trans hab hbc
    · intro a b
      simpa [or_comm] using le_total a.1 b.1
  have hdistinct : ((tree.items.filterMap (fileBelow? place)).mergeSort
      fun a b => !decide (b.1 < a.1)).Pairwise fun a b => a.1 ≠ b.1 := by
    refine ((List.mergeSort_perm _ _).pairwise_iff fun h => Ne.symm h).mpr ?_
    -- files with the same names below the folder have the same names altogether
    refine (List.pairwise_map.mp htree.nodup).filterMap _ fun a b hab c hc d hd heq => hab ?_
    rw [(fileBelow?_eq_some_iff.mp hc).1, (fileBelow?_eq_some_iff.mp hd).1, heq]
  exact hsorted.imp₂ (fun _ _ hle hne => lt_of_le_of_ne hle hne) hdistinct

/-! ### Reading what a walk finds -/

/-- An item is found at its place. -/
theorem IsProper.at?_of_mem (htree : tree.IsProper) {item : List String × FileItem}
    (hitem : item ∈ tree.items) : tree.at? item.1 = some item.2 := by
  -- the first item at the place is the only one
  have hfind : tree.items.find? (·.1 = item.1) = some item := by
    cases hfound : tree.items.find? (·.1 = item.1) with
    | none => exact absurd (decide_eq_true rfl) (List.find?_eq_none.mp hfound item hitem)
    | some found =>
      have hplace : found.1 = item.1 := by simpa using List.find?_some hfound
      rw [List.inj_on_of_nodup_map htree.nodup (List.mem_of_find?_eq_some hfound) hitem hplace]
  rw [at?, List.isEmpty_eq_false_iff.mpr (htree.ne_nil item hitem), hfind]
  rfl

/-- A text that a walk finds is what its path reads. -/
theorem read?_of_mem_filesUnder (htree : tree.IsProper) {folder : Path} {place names : List String}
    (hfolder : tree.locate? folder = some place) {text : String}
    (h : (names, .text text) ∈ tree.filesUnder place) :
    tree.read? (names.foldl (fun p name => p.join ⟨name⟩) folder) = some text := by
  have hitem := (mem_filesUnder_iff.mp h).1
  have hnames : ∀ name ∈ names, IsFileName name := fun name hname =>
    htree.isFileName _ hitem name (List.mem_append_right place hname)
  have hat : tree.at? (place ++ names) = some (.text text) := htree.at?_of_mem hitem
  rw [read?, item?, locate?_foldl_join hfolder hnames, Option.bind_eq_bind, Option.bind_some, hat]

end FileTree

end DocComment
