/-
Which layer a configuration takes its settings from.

What the merged layers have at a path is what the configuration has there (`Reads.at?_eq`), and the
merged layers have there what the highest layer has that sets the path.

* `isTidy_of_mem_layers` — every layer is an object with distinct keys at all levels, whatever it
  was read from, so layers merge path by path (`isStack_layers`);
* `at?_of_mem_layers` — at each path the highest layer that sets it decides;
* `at?_environmentLayer` — the layer of the environment has what its variables say;
* `get?_merge_layers` — flags leave the members alone that they do not set;
* `load_takes_highest` puts this together: a configuration `TakesHighest` of its layers.
-/
import DocComment.Proofs.Configuration.Environment
import DocComment.Proofs.Configuration.Reading
import DocComment.Proofs.Toml.Reader

namespace DocComment

namespace Configuration

open Json

/-! ### The layers -/

/-- The layers below the flags, the highest first. -/
def lowerLayers (file : Option Json) (environment : List (String × String)) : List Json :=
  environmentLayer environment :: file.toList ++ [defaults]

/-- All layers, the highest first. -/
def layers (file : Option Json) (environment : List (String × String)) (flags : Flags) :
    List Json :=
  flags.layer :: lowerLayers file environment

/-- The file, if there is one, describes an object in which each key stands once, at every level. -/
def IsFileLayer (file : Option Json) : Prop := ∀ layer ∈ file, layer.IsTidy ∧ layer.IsMap

section Layers

variable {tree : FileTree} {asked : Option Path} {environment : List (String × String)}
  {flags : Flags} {file : Option Json} {c : Configuration}

theorem reverse_lowerLayers : (lowerLayers file environment).reverse =
    defaults :: file.toList ++ [environmentLayer environment] := by
  cases file <;> rfl

/-- The merged layers are read. -/
theorem ofLayers_eq_ok_iff : ofLayers file environment flags = .ok c ↔
    ofJson? (merge (layers file environment flags).reverse) = some c := by
  rw [ofLayers]
  simp only [layers, List.reverse_cons, reverse_lowerLayers, List.cons_append, List.append_assoc,
    List.nil_append]
  cases ofJson? _ <;> simp

theorem load_eq_ok_iff : load tree asked environment flags = .ok c ↔
    ∃ file, fileLayer? tree asked = .ok file ∧ ofLayers file environment flags = .ok c := by
  rw [load]
  cases fileLayer? tree asked <;> simp [bind, Except.bind]

theorem isTidy_flagsLayer (f : Flags) : f.layer.IsTidy := by
  refine .object f.nodup_keys_members fun p hp => ?_
  have hget := Keyed.get?_of_mem f.nodup_keys_members hp
  rw [f.get?_members] at hget
  simp only [Option.or_eq_some_iff, Option.ite_none_right_eq_some, Option.some.injEq] at hget
  rcases hget with (⟨-, h⟩ | ⟨-, -, h⟩) | ⟨-, -, h⟩
  · exact h ▸ .bool true
  · refine h ▸ isTidy_ofList fun q hq => ?_
    obtain ⟨t, -, rfl⟩ := List.mem_map.mp hq
    exact .string t.value
  · exact h ▸ isTidy_strings f.exclude

theorem isTidy_defaults : defaults.IsTidy := by
  have hgfm : (MarkdownOptions.toJson {}).IsTidy :=
    .object (by decide) (by simp [IsTidy.bool])
  have hprops : (Json.array []).IsTidy := isTidy_strings []
  refine .object (by decide) ?_
  simp [Settings.toJson, object?, IsTidy.bool, hprops, isTidy_emptyObject, hgfm]

theorem isTidy_of_mem_variables {layer : Json} (h : layer ∈ environment.filterMap fun
    (name, value) => Environment.layerOf? name value) : layer.IsTidy ∧ layer.IsMap := by
  obtain ⟨p, -, hp⟩ := List.mem_filterMap.mp h
  obtain ⟨members, rfl⟩ := Environment.exists_object_of_layerOf? hp
  exact ⟨Environment.isTidy_of_layerOf? hp, .object members⟩

theorem isTidy_fileLayer {p : Path} {layer : Json} (h : fileLayer tree p = .ok layer) :
    layer.IsTidy ∧ layer.IsMap := by
  rw [fileLayer] at h
  split at h
  · cases h
  · next read hread =>
    split at h
    · next members hmembers =>
      cases h
      obtain ⟨s, -, hs⟩ := Option.bind_eq_some_iff.mp hmembers
      refine ⟨?_, .object members⟩
      split at hread
      · cases hread
        obtain ⟨j, hj, hmembers⟩ := Option.bind_eq_some_iff.mp hs
        exact eq_of_object? hmembers ▸ isTidy_of_parseText? hj
      · cases hread
        exact Toml.isTidy_of_parse? hs
      · cases hread
    · cases h

/-- Whatever a file is read from, it describes such a layer. -/
theorem isFileLayer_of_fileLayer? (h : fileLayer? tree asked = .ok file) : IsFileLayer file := by
  rintro layer rfl
  rw [fileLayer?] at h
  cases hfile : file? tree asked with
  | error e => simp [hfile, bind, Except.bind] at h
  | ok p? =>
    cases p? with
    | none => simp [hfile, bind, Except.bind, pure, Except.pure] at h
    | some p =>
      cases hlayer : fileLayer tree p with
      | error e => simp [hfile, hlayer, bind, Except.bind] at h
      | ok layer' =>
        simp only [hfile, hlayer, bind, Except.bind, pure, Except.pure, Except.ok.injEq,
          Option.some.injEq] at h
        exact isTidy_fileLayer (h ▸ hlayer)

/-- Every layer is an object in which each key stands once, at every level. -/
theorem isTidy_of_mem_layers (hfile : IsFileLayer file) {layer : Json}
    (hlayer : layer ∈ layers file environment flags) : layer.IsTidy ∧ layer.IsMap := by
  simp only [layers, lowerLayers, List.mem_cons, List.mem_append, Option.mem_toList,
    List.not_mem_nil, or_false] at hlayer
  rcases hlayer with rfl | (rfl | hlayer) | rfl
  · exact ⟨isTidy_flagsLayer flags, .object _⟩
  · exact ⟨isTidy_stack fun _ h => (isTidy_of_mem_variables h).1,
      isMap_stack fun _ h => (isTidy_of_mem_variables h).2⟩
  · exact hfile layer hlayer
  · exact ⟨isTidy_defaults, .object _⟩

/-! ### What the layers come to -/

theorem isStack_layers (hfile : IsFileLayer file)
    (hshape : (layers file environment flags).Pairwise SameShape) :
    IsStack (layers file environment flags) (stack (layers file environment flags).reverse) :=
  isStack_stack (List.cons_ne_nil _ _) (fun _ h => (isTidy_of_mem_layers hfile h).1)
    (fun _ h => (isTidy_of_mem_layers hfile h).2) hshape

theorem exists_members_merge {ls : List Json} (h : ∀ layer ∈ ls, layer.IsMap) :
    ∃ members, merge ls = .object members :=
  ((sorted_isMap_iff _).mpr (isMap_stack h)).exists_members

/-- At a path that means something, a configuration has what the highest layer has there. -/
theorem at?_of_mem_layers (hfile : IsFileLayer file)
    (hc : ofJson? (merge (layers file environment flags).reverse) = some c)
    (hshape : (layers file environment flags).Pairwise SameShape) {path : List String}
    (hpath : IsKnown path) {layer : Json} (hlayer : layer ∈ layers file environment flags)
    {v : Json} (hv : layer.at? path = some v) :
    c.toJson.at? path ≠ none ∧
      (¬v.IsMap →
        c.toJson.at? path = (firstAt? (layers file environment flags) path).map sorted) := by
  have hstack := isStack_layers hfile hshape
  obtain ⟨members, hmembers⟩ := exists_members_merge fun layer h =>
    (isTidy_of_mem_layers hfile (List.mem_reverse.mp h)).2
  rw [hmembers] at hc
  have hat (path : List String) : (Json.object members).at? path =
      ((stack (layers file environment flags).reverse).at? path).map sorted := by
    rw [← hmembers, merge, at?_sorted hstack.isTidy]
  -- the merged layers have the shape of each of them
  have hsame {layer : Json} (hlayer : layer ∈ layers file environment flags) :
      SameShape layer (stack (layers file environment flags).reverse) :=
    hstack.sameShape fun _ hother => .of_pairwise hshape hlayer hother
  have hmarkdown : ∀ u, Keyed.get? members "markdown" = some u → u.IsMap := by
    intro u hu
    have hdefaults : defaults ∈ layers file environment flags := by simp [layers, lowerLayers]
    have hset : (Json.object members).at? ["markdown"] = some u := by simp [get?, hu]
    rw [hat] at hset
    obtain ⟨w, hw, rfl⟩ := Option.map_eq_some_iff.mp hset
    exact (sorted_isMap_iff w).mpr ((hsame hdefaults ["markdown"] _ w rfl hw).mp (.object _))
  obtain ⟨u, hu⟩ := exists_firstAt?_of_mem hlayer hv
  obtain ⟨w, hw, hwu, hleaf⟩ := hstack.eq_some path u hu
  have hread : (Json.object members).at? path = some w.sorted := by rw [hat, hw]; rfl
  obtain ⟨hset, hvalue⟩ := (ofJson?_eq_some_iff.mp hc).at?_eq hpath hmarkdown hread
  refine ⟨hset, fun hv' => ?_⟩
  have hw' : ¬w.IsMap := fun h => hv' ((hsame hlayer path v w hv hw).mpr h)
  rw [hvalue fun h => hw' ((sorted_isMap_iff w).mp h), hu, hleaf fun h => hw' (hwu.mpr h)]
  rfl

theorem isTidy_of_mem_lowerLayers (hfile : IsFileLayer file) {layer : Json}
    (hlayer : layer ∈ (lowerLayers file environment).reverse) : layer.IsTidy ∧ layer.IsMap := by
  have hmem : layer ∈ layers file environment {} :=
    List.mem_cons_of_mem _ (List.mem_reverse.mp hlayer)
  exact isTidy_of_mem_layers hfile hmem

/-- The flags are put over the members of the lower layers. -/
theorem exists_stack_layers (hfile : IsFileLayer file)
    (environment : List (String × String)) :
    ∃ low : Keyed Json, low.keys.Nodup ∧
      stack (lowerLayers file environment).reverse = .object low ∧
      ∀ flags : Flags, stack (layers file environment flags).reverse =
        .object (overlayMembers flags.members low) := by
  have htidy : (stack (lowerLayers file environment).reverse).IsTidy :=
    isTidy_stack fun _ h => (isTidy_of_mem_lowerLayers hfile h).1
  have hmap : (stack (lowerLayers file environment).reverse).IsMap :=
    isMap_stack fun _ h => (isTidy_of_mem_lowerLayers hfile h).2
  obtain ⟨low, hlow⟩ := hmap.exists_members
  rw [hlow] at htidy
  refine ⟨low, htidy.nodup_keys, hlow, fun flags => ?_⟩
  rw [layers, stack_reverse_cons, hlow]
  rfl

/-- A member that no flag sets is that of the lower layers. -/
theorem get?_merge_layers (hfile : IsFileLayer file)
    (environment : List (String × String)) {key : String}
    (hkey : Keyed.get? flags.members key = none) :
    (merge (layers file environment flags).reverse).get? key =
      (merge (lowerLayers file environment).reverse).get? key := by
  obtain ⟨low, hnodup, hlow, hlayers⟩ := exists_stack_layers hfile environment
  rw [merge, merge, hlayers, hlow, get?_sorted hnodup,
    get?_sorted (nodup_keys_overlayMembers flags.members hnodup),
    get?_overlayMembers flags.nodup_keys_members, hkey]

/-- Without flags, the lower layers are all there is. -/
theorem merge_layers_noFlags (hfile : IsFileLayer file)
    (environment : List (String × String)) :
    merge (layers file environment {}).reverse = merge (lowerLayers file environment).reverse := by
  obtain ⟨low, -, hlow, hlayers⟩ := exists_stack_layers hfile environment
  rw [merge, merge, hlayers, hlow]
  rfl

/-- The member that a given flag sets. -/
inductive Flags.Sets (f : Flags) : String → Prop where
  | renderMarkdown (h : f.renderMarkdown = true) : Sets f "renderMarkdown"
  | filterByTag (h : f.filterTags ≠ []) : Sets f "filterByTag"
  | exclude (h : f.exclude ≠ []) : Sets f "exclude"

theorem Flags.get?_members_eq_none {f : Flags} {key : String} (h : ¬f.Sets key) :
    Keyed.get? f.members key = none := by
  rw [f.get?_members, Option.or_eq_none_iff, Option.or_eq_none_iff]
  refine ⟨⟨if_neg ?_, if_neg ?_⟩, if_neg ?_⟩
  · rintro ⟨hflag, rfl⟩
    exact h (.renderMarkdown hflag)
  · rintro ⟨hflag, rfl⟩
    exact h (.filterByTag hflag)
  · rintro ⟨hflag, rfl⟩
    exact h (.exclude hflag)

/-- No two variables set the same. -/
def SetsEachOnce (environment : List (String × String)) : Prop :=
  (environment.filterMap fun (name, value) => Environment.layerOf? name value).Pairwise AreApart

/-- The environment has what its variables say. -/
theorem at?_environmentLayer (h : SetsEachOnce environment) {p : String × String}
    (hp : p ∈ environment) {layer : Json} (hlayer : Environment.layerOf? p.1 p.2 = some layer)
    {path : List String} {v : Json} (hv : layer.at? path = some v) (hleaf : ¬v.IsMap) :
    (environmentLayer environment).at? path = some v :=
  at?_stack_of_areApart (fun _ hother => (isTidy_of_mem_variables hother).1)
    (fun _ hother => (isTidy_of_mem_variables hother).2) h
    (List.mem_filterMap.mpr ⟨p, hp, hlayer⟩) hv hleaf

/-- A configuration has what its layers set, key by key. -/
structure TakesHighest (file : Option Json) (environment : List (String × String)) (flags : Flags)
    (c : Configuration) : Prop where
  /-- At each path that means something, what the highest layer has that sets the path, but for the
  order of keys in it. -/
  value : (layers file environment flags).Pairwise SameShape → ∀ path, IsKnown path →
    ∀ layer ∈ layers file environment flags, ∀ v, layer.at? path = some v → ¬v.IsMap →
      c.toJson.at? path = (firstAt? (layers file environment flags) path).map sorted
  /-- Nothing is lost where the layers have objects. -/
  kept : (layers file environment flags).Pairwise SameShape → ∀ path, IsKnown path →
    ∀ layer ∈ layers file environment flags, layer.at? path ≠ none → c.toJson.at? path ≠ none
  /-- The layer of the environment has what its variables say, if no two of them set the same. -/
  ofVariables : SetsEachOnce environment → ∀ p ∈ environment, ∀ layer,
    Environment.layerOf? p.1 p.2 = some layer → ∀ path v, layer.at? path = some v → ¬v.IsMap →
      (environmentLayer environment).at? path = some v
  /-- Without flags the merged lower layers are read. -/
  noFlags : ∀ c₀, ofLayers file environment {} = .ok c₀ ↔
    ofJson? (merge (lowerLayers file environment).reverse) = some c₀
  /-- Flags that are not given change nothing. -/
  unset : ∀ c₀, ofLayers file environment {} = .ok c₀ → ∀ key, ¬flags.Sets key →
    c.toJson.get? key = c₀.toJson.get? key

theorem takesHighest_of_ofLayers (hfile : IsFileLayer file)
    (hc : ofLayers file environment flags = .ok c) : TakesHighest file environment flags c := by
  have hread := ofLayers_eq_ok_iff.mp hc
  have hnoFlags : ∀ c₀, ofLayers file environment {} = .ok c₀ ↔
      ofJson? (merge (lowerLayers file environment).reverse) = some c₀ := by
    intro c₀
    rw [ofLayers_eq_ok_iff, merge_layers_noFlags hfile environment]
  refine ⟨fun hshape path hpath layer hlayer v hv =>
    (at?_of_mem_layers hfile hread hshape hpath hlayer hv).2,
    fun hshape path hpath layer hlayer hset => ?_,
    fun honce p hp layer hlayer path v hv hleaf =>
      at?_environmentLayer honce hp hlayer hv hleaf, hnoFlags, fun c₀ hc₀ key hkey => ?_⟩
  · obtain ⟨v, hv⟩ := Option.ne_none_iff_exists'.mp hset
    exact (at?_of_mem_layers hfile hread hshape hpath hlayer hv).1
  · have hget := get?_merge_layers hfile environment (flags.get?_members_eq_none hkey)
    obtain ⟨members, hmembers⟩ := exists_members_merge fun layer h =>
      (isTidy_of_mem_layers hfile
        (List.mem_reverse.mp h : layer ∈ layers file environment flags)).2
    obtain ⟨members₀, hmembers₀⟩ := exists_members_merge fun layer h =>
      (isTidy_of_mem_lowerLayers hfile h : layer.IsTidy ∧ layer.IsMap).2
    have hread₀ := (hnoFlags c₀).mp hc₀
    rw [hmembers] at hread hget
    rw [hmembers₀] at hread₀ hget
    exact (ofJson?_eq_some_iff.mp hread).get?_congr (ofJson?_eq_some_iff.mp hread₀) hget

/-- **Configuration layers override key by key.**  As long as no layer has an object where another
one has something else, a configuration that is loaded has, at each path that means something and
that some layer sets, the value of the highest layer that sets it: flags come before the
environment, the file and the defaults.  Flags that are not given change nothing.  All of this also
holds with the layer of a file that is read in another way. -/
theorem load_takes_highest (environment : List (String × String)) (flags : Flags)
    (c : Configuration) :
    (∀ tree asked, load tree asked environment flags = .ok c →
      ∃ file, fileLayer? tree asked = .ok file ∧ TakesHighest file environment flags c ∧
        ∀ c₀, load tree asked environment {} = .ok c₀ ↔ ofLayers file environment {} = .ok c₀) ∧
    ∀ file, IsFileLayer file → ofLayers file environment flags = .ok c →
      TakesHighest file environment flags c := by
  refine ⟨fun tree asked hload => ?_, fun file => takesHighest_of_ofLayers⟩
  obtain ⟨file, hfile, hc⟩ := load_eq_ok_iff.mp hload
  refine ⟨file, hfile, takesHighest_of_ofLayers (isFileLayer_of_fileLayer? hfile) hc, fun c₀ => ?_⟩
  rw [load_eq_ok_iff, hfile]
  simp

end Layers

/-! ### Four layers -/

def sampleText : String :=
  "\x7b\"renderMarkdown\": false, \"exclude\": [\"dist\"], " ++
  "\"filterByTag\": \x7b\"platform\": \"node\"\x7d\x7d"

def sampleTree : FileTree := ⟨[(["docblock.config.json"], .text sampleText)]⟩

def sampleFile : Json := .object
  [("renderMarkdown", .bool false), ("exclude", .array [.string "dist"]),
   ("filterByTag", .object [("platform", .string "node")])]

def sampleVariables : List (String × String) := [("DOCBLOCK_RENDER_MARKDOWN", "true")]

def sampleFlags : Flags := { filterTags := [⟨"status", "beta"⟩] }

/-- The layers put over each other. -/
def sampleMembers : Keyed Json :=
  [("renderMarkdown", .bool true), ("renderMarkdownProps", .array []),
   ("markdown", .object [("gfm", .bool false)]),
   ("filterByTag", .object [("platform", .string "node"), ("status", .string "beta")]),
   ("tags", .object []), ("exclude", .array [.string "dist"])]

theorem fileLayer?_sample : fileLayer? sampleTree none = .ok (some sampleFile) := by
  have hfile : file? sampleTree none = .ok (some ⟨"docblock.config.json"⟩) := by decide +kernel
  have hread : sampleTree.read? ⟨"docblock.config.json"⟩ = some sampleText := by decide +kernel
  have hextension : Path.extension? ⟨"docblock.config.json"⟩ = some "json" := by decide +kernel
  have hparse : Json.parse? sampleText = some sampleFile := by cbv
  rw [fileLayer?, hfile]
  simp only [bind, Except.bind, fileLayer, hextension, hread, Option.bind_some, hparse]
  rfl

theorem environmentLayer_sample :
    environmentLayer sampleVariables = .object [("renderMarkdown", .bool true)] := by
  have hpath : Environment.pathOf? "DOCBLOCK_RENDER_MARKDOWN" = some ["renderMarkdown"] := by
    decide +kernel
  have hvalue : Environment.valueOf "true" = .bool true := eq_of_bool? (by decide +kernel)
  simp only [environmentLayer, sampleVariables, List.filterMap_cons, List.filterMap_nil,
    Environment.layerOf?, hpath, hvalue, Option.map_some]
  rfl

theorem layers_sample : layers (some sampleFile) sampleVariables sampleFlags =
    [sampleFlags.layer, .object [("renderMarkdown", .bool true)], sampleFile, defaults] := by
  rw [layers, lowerLayers, environmentLayer_sample]
  rfl

theorem ofLayers_sample :
    ∃ c, ofLayers (some sampleFile) sampleVariables sampleFlags = .ok c := by
  let c : Configuration :=
    { settings :=
        { renderMarkdown := true
          filterByTag := byKey [("platform", .string "node"), ("status", .string "beta")] }
      exclude := ["dist"] }
  have hstack : stack (layers (some sampleFile) sampleVariables sampleFlags).reverse =
      .object sampleMembers := by
    rw [layers_sample]
    rfl
  have hkeys : Keyed.keys sampleMembers |>.Nodup := by decide
  have hget (key : String) : Keyed.get? (byKey (sortedMembers sampleMembers)) key =
      (Keyed.get? sampleMembers key).map sorted := get?_sorted hkeys key
  have hmarkdown : Keyed.get? (byKey (sortedMembers sampleMembers)) "markdown" =
      some (MarkdownOptions.toJson {}) :=
    (hget _).trans (congrArg (fun ms => some (Json.object ms)) (List.mergeSort_singleton _))
  have htags : Keyed.get? (byKey (sortedMembers sampleMembers)) "tags" = some (.object []) :=
    (hget _).trans (congrArg (fun ms => some (Json.object ms)) List.mergeSort_nil)
  have hreads : Reads (byKey (sortedMembers sampleMembers)) c := by
    refine ⟨?_, ?_, ?_, by rw [member?, hmarkdown]; rfl, ?_, by rw [member?, htags]; rfl, ?_⟩
    all_goals
      rw [member?, hget]
      rfl
  refine ⟨c, ofLayers_eq_ok_iff.mpr ?_⟩
  rw [merge, hstack]
  exact ofJson?_eq_some_iff.mpr hreads

theorem load_takes_highest_sample :
    ∃ c, load sampleTree none sampleVariables sampleFlags = .ok c ∧
      ofLayers (some sampleFile) sampleVariables sampleFlags = .ok c ∧
      TakesHighest (some sampleFile) sampleVariables sampleFlags c ∧
      c.toJson.at? ["renderMarkdown"] = some (.bool true) ∧
      c.toJson.at? ["exclude"] = some (.array [.string "dist"]) ∧
      c.toJson.at? ["filterByTag", "platform"] = some (.string "node") ∧
      c.toJson.at? ["filterByTag", "status"] = some (.string "beta") ∧
      c.toJson.at? ["markdown", "gfm"] = some (.bool false) := by
  obtain ⟨c, hc⟩ := ofLayers_sample
  have hload : load sampleTree none sampleVariables sampleFlags = .ok c :=
    load_eq_ok_iff.mpr ⟨_, fileLayer?_sample, hc⟩
  obtain ⟨hloaded, hany⟩ := load_takes_highest sampleVariables sampleFlags c
  obtain ⟨file, hfile, hhighest, -⟩ := hloaded sampleTree none hload
  obtain rfl : some sampleFile = file := Except.ok.inj (fileLayer?_sample.symm.trans hfile)
  have hvalue := hhighest.value
  rw [layers_sample] at hvalue
  have hshape : [sampleFlags.layer, .object [("renderMarkdown", .bool true)], sampleFile,
      defaults].Pairwise fun j j' => shapesAgree j j' = true := by
    decide +kernel
  have hvalue := hvalue (hshape.imp sameShape_of_shapesAgree)
  refine ⟨c, hload, hc, hany _ (isFileLayer_of_fileLayer? hfile) hc, ?_, ?_, ?_, ?_, ?_⟩
  · exact hvalue ["renderMarkdown"] (.setting (by decide))
      (.object [("renderMarkdown", .bool true)]) (by simp) _ rfl nofun
  · exact hvalue ["exclude"] (.setting (by decide)) sampleFile (by simp) _ rfl nofun
  · exact hvalue ["filterByTag", "platform"] (.within (.inl rfl) _) sampleFile (by simp) _ rfl nofun
  · exact hvalue ["filterByTag", "status"] (.within (.inl rfl) _) sampleFlags.layer (by simp) _ rfl
      nofun
  · exact hvalue ["markdown", "gfm"] .gfm defaults (by simp) _ rfl nofun

end Configuration

end DocComment
