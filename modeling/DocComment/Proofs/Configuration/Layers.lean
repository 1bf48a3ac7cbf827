/-
Layers put over each other, seen through look-ups.

* `get?_overlayMembers` — under each key stands what the higher layer has, put over what the lower
  one has; keys that only one of them has stay as they are;
* `get?_sorted` — sorting the keys of a document changes no look-up;
* `load_of_flags` — what a configuration is that only flags make up: each flag sets its member, and
  all else is the default.
-/
import DocComment.Configuration.Layers
import DocComment.Proofs.Keyed

namespace DocComment

/-! ### Overlays -/

namespace Json

/-- Under each key, the higher layer is put over the lower one. -/
theorem get?_overlayMembers {ms : Keyed Json} (hms : ms.keys.Nodup) (low : Keyed Json)
    (key : String) :
    Keyed.get? (overlayMembers ms low) key =
      match Keyed.get? ms key with
      | none => Keyed.get? low key
      | some v => some ((Keyed.get? low key).elim v (overlay v)) := by
  induction ms generalizing low with
  | nil => rfl
  | cons p ms ih =>
    obtain ⟨k, v⟩ := p
    obtain ⟨hk, hms⟩ := List.nodup_cons.mp hms
    rw [overlayMembers]
    by_cases hkey : k = key
    · -- the members that follow have other keys
      subst hkey
      rw [get?_overlayMembers_of_notMem _ _ _ hk, Keyed.get?_insert, if_pos rfl, Keyed.get?,
        if_pos rfl]
      cases Keyed.get? low k <;> rfl
    · rw [ih hms, Keyed.get?_insert, if_neg (Ne.symm hkey), Keyed.get?, if_neg hkey]

theorem nodup_keys_overlayMembers (ms : Keyed Json) {low : Keyed Json} (hlow : low.keys.Nodup) :
    (Keyed.keys (overlayMembers ms low)).Nodup := by
  induction ms generalizing low with
  | nil => exact hlow
  | cons p ms ih =>
    obtain ⟨k, v⟩ := p
    rw [overlayMembers]
    exact ih (Keyed.nodup_keys_alter hlow k _)

/-- Over a layer with other keys, all members come behind those of the layer. -/
theorem overlayMembers_of_disjoint {ms low : Keyed Json} (h : (low.keys ++ ms.keys).Nodup) :
    overlayMembers ms low = low ++ ms := by
  induction ms generalizing low with
  | nil => exact (List.append_nil low).symm
  | cons p ms ih =>
    obtain ⟨k, v⟩ := p
    have hk : k ∉ low.keys := fun hmem =>
      (List.nodup_append.mp h).2.2 k hmem k List.mem_cons_self rfl
    rw [overlayMembers, Keyed.get?_eq_none_iff.mpr hk, Keyed.insert_of_notMem hk, ih,
      List.append_assoc]
    · rfl
    · rwa [Keyed.keys_append, List.append_assoc]

/-- Over nothing a layer is what it is. -/
theorem overlayMembers_nil {ms : Keyed Json} (h : ms.keys.Nodup) : overlayMembers ms [] = ms :=
  overlayMembers_of_disjoint h

/-! ### Sorted documents -/

theorem sortedItems_map_string (ss : List String) :
    sortedItems (ss.map .string) = ss.map .string := by
  induction ss with
  | nil => rfl
  | cons s ss ih => rw [List.map_cons, sortedItems, ih, sorted]

theorem sortedMembers_of_strings {ms : Keyed Json} (h : ∀ p ∈ ms, ∃ s, p.2 = .string s) :
    sortedMembers ms = ms := by
  induction ms with
  | nil => rfl
  | cons p ms ih =>
    obtain ⟨⟨s, hs⟩, hms⟩ := List.forall_mem_cons.mp h
    rw [sortedMembers, ih hms, hs, sorted, ← hs]

theorem keys_sortedMembers (ms : Keyed Json) : Keyed.keys (sortedMembers ms) = ms.keys := by
  induction ms with
  | nil => rfl
  | cons p ms ih => exact congrArg (p.1 :: ·) ih

theorem get?_sortedMembers (ms : Keyed Json) (key : String) :
    Keyed.get? (sortedMembers ms) key = (Keyed.get? ms key).map sorted := by
  induction ms with
  | nil => rfl
  | cons p ms ih =>
    obtain ⟨k, v⟩ := p
    rw [sortedMembers, Keyed.get?, Keyed.get?, ih]
    split <;> rfl

/-- Members in the order of their keys. -/
def byKey (ms : Keyed Json) : Keyed Json := ms.mergeSort fun a b => !decide (b.1 < a.1)

theorem byKey_perm (ms : Keyed Json) : (byKey ms).Perm ms := List.mergeSort_perm _ _

theorem get?_byKey {ms : Keyed Json} (hms : ms.keys.Nodup) (key : String) :
    Keyed.get? (byKey ms) key = Keyed.get? ms key :=
  (Keyed.get?_eq_of_perm hms (byKey_perm ms).symm key).symm

theorem sorted_object (ms : Keyed Json) :
    sorted (.object ms) = .object (byKey (sortedMembers ms)) :=
  rfl

theorem get?_sorted {ms : Keyed Json} (hms : ms.keys.Nodup) (key : String) :
    (sorted (.object ms)).get? key = (Keyed.get? ms key).map sorted := by
  rw [sorted_object, get?, get?_byKey (keys_sortedMembers ms ▸ hms), get?_sortedMembers]

end Json

namespace Configuration

/-! ### Flags alone -/

/-- What flags ask of the texts of tags: each tag with the last text given for it, in the order of
the tags. -/
def tagRules (flags : List TagValue) : Keyed Json :=
  Json.byKey (Keyed.ofList (flags.map fun t => (t.tag, .string t.value)))

/-- The members that the flags set. -/
def Flags.members (f : Flags) : Keyed Json := f.layer.object?.getD []

theorem get?_ite_singleton {c : Prop} [Decidable c] (k key : String) (v : Json) :
    Keyed.get? (if c then [(k, v)] else []) key = if c ∧ k = key then some v else none := by
  split <;> simp_all [Keyed.get?]

theorem Flags.get?_members (f : Flags) (key : String) :
    Keyed.get? f.members key =
      ((if f.renderMarkdown = true ∧ "renderMarkdown" = key then some (.bool true) else none).or
        (if f.filterTags ≠ [] ∧ "filterByTag" = key then
          some (.object (Keyed.ofList (f.filterTags.map fun t => (t.tag, .string t.value))))
        else none)).or
      (if f.exclude ≠ [] ∧ "exclude" = key then some (.array (f.exclude.map .string))
        else none) := by
  simp only [← get?_ite_singleton, ← Keyed.get?_append, members, layer, Json.object?,
    Option.getD_some, List.isEmpty_iff, ne_eq, ite_not]

theorem Flags.nodup_keys_members (f : Flags) : f.members.keys.Nodup := by
  rw [members, layer]
  simp only [Json.object?, Option.getD_some, Keyed.keys_append]
  split <;> split <;> split <;> simp [Keyed.keys]

/-- The members of the defaults. -/
def defaultMembers : Keyed Json := defaults.object?.getD []

theorem merge_defaults_layer (f : Flags) :
    merge [defaults, .object [], f.layer] =
      (Json.object (Json.overlayMembers f.members defaultMembers)).sorted := by
  have hempty : Json.overlayMembers defaultMembers [] = defaultMembers :=
    Json.overlayMembers_nil (by decide)
  show (Json.object
    (Json.overlayMembers f.members (Json.overlayMembers defaultMembers []))).sorted = _
  rw [hempty]

theorem nodup_keys_merged (f : Flags) :
    (Keyed.keys (Json.overlayMembers f.members defaultMembers)).Nodup :=
  Json.nodup_keys_overlayMembers f.members (by decide)

/-- A member that no flag sets is the default. -/
theorem get?_merge_of_none {f : Flags} {key : String} (h : Keyed.get? f.members key = none) :
    (merge [defaults, .object [], f.layer]).get? key =
      (Keyed.get? defaultMembers key).map Json.sorted := by
  rw [merge_defaults_layer, Json.get?_sorted (nodup_keys_merged f),
    Json.get?_overlayMembers f.nodup_keys_members, h]

theorem get?_merge_of_some {f : Flags} {key : String} {v low : Json}
    (h : Keyed.get? f.members key = some v) (hlow : Keyed.get? defaultMembers key = some low) :
    (merge [defaults, .object [], f.layer]).get? key = some (Json.overlay v low).sorted := by
  rw [merge_defaults_layer, Json.get?_sorted (nodup_keys_merged f),
    Json.get?_overlayMembers f.nodup_keys_members, h, hlow]
  rfl

theorem get?_merge_renderMarkdown (f : Flags) :
    (merge [defaults, .object [], f.layer]).get? "renderMarkdown" =
      some (.bool f.renderMarkdown) := by
  cases hflag : f.renderMarkdown with
  | false =>
    rw [get?_merge_of_none (by simp [f.get?_members, hflag])]
    rfl
  | true =>
    have hmember : Keyed.get? f.members "renderMarkdown" = some (.bool true) := by
      simp [f.get?_members, hflag]
    rw [get?_merge_of_some hmember rfl]
    rfl

theorem get?_merge_filterByTag (f : Flags) :
    (merge [defaults, .object [], f.layer]).get? "filterByTag" =
      some (.object (tagRules f.filterTags)) := by
  by_cases hflags : f.filterTags = []
  · rw [get?_merge_of_none (by simp [f.get?_members, hflags]), tagRules, hflags]
    rfl
  · have hmember : Keyed.get? f.members "filterByTag" =
        some (.object (Keyed.ofList (f.filterTags.map fun t => (t.tag, .string t.value)))) := by
      simp [f.get?_members, hflags]
    have hstrings : ∀ p ∈ Keyed.ofList (f.filterTags.map fun t => (t.tag, Json.string t.value)),
        ∃ s, p.2 = .string s := by
      intro p hp
      obtain ⟨t, -, rfl⟩ := List.mem_map.mp (Keyed.mem_of_mem_ofList hp)
      exact ⟨t.value, rfl⟩
    rw [get?_merge_of_some hmember rfl, Json.overlay,
      Json.overlayMembers_nil (Keyed.nodup_keys_ofList _), Json.sorted_object,
      Json.sortedMembers_of_strings hstrings, tagRules]

theorem get?_merge_exclude (f : Flags) :
    (merge [defaults, .object [], f.layer]).get? "exclude" =
      some (.array (f.exclude.map .string)) := by
  by_cases hflags : f.exclude = []
  · rw [get?_merge_of_none (by simp [f.get?_members, hflags]), hflags]
    rfl
  · have hmember : Keyed.get? f.members "exclude" = some (.array (f.exclude.map .string)) := by
      simp [f.get?_members, hflags]
    rw [get?_merge_of_some hmember rfl, Json.overlay, Json.sorted, Json.sortedItems_map_string]

theorem strings?_array_map (ss : List String) :
    (Json.array (ss.map .string)).strings? = some ss := by
  show (ss.map Json.string).mapM Json.string? = some ss
  induction ss with
  | nil => rfl
  | cons s ss ih => rw [List.map_cons, List.mapM_cons, ih]; rfl

theorem ofJson?_merge (f : Flags) : ofJson? (merge [defaults, .object [], f.layer]) = some
    { settings := { renderMarkdown := f.renderMarkdown, filterByTag := tagRules f.filterTags }
      exclude := f.exclude } := by
  obtain ⟨members, hmembers⟩ : ∃ members, merge [defaults, .object [], f.layer] = .object members :=
    ⟨_, merge_defaults_layer f⟩
  have hget : ∀ key, Keyed.get? members key = (merge [defaults, .object [], f.layer]).get? key := by
    intro key
    rw [hmembers, Json.get?]
  -- the flags set none of these
  have hfilePath : Keyed.get? members "filePath" = none := by
    rw [hget, get?_merge_of_none (by simp [f.get?_members])]
    rfl
  have hprops : Keyed.get? members "renderMarkdownProps" = some (.array []) := by
    rw [hget, get?_merge_of_none (by simp [f.get?_members])]
    rfl
  have hmarkdown : Keyed.get? members "markdown" = some (MarkdownOptions.toJson {}) := by
    rw [hget, get?_merge_of_none (by simp [f.get?_members])]
    exact congrArg (fun ms => some (Json.object ms)) (List.mergeSort_singleton _)
  have htags : Keyed.get? members "tags" = some (.object []) := by
    rw [hget, get?_merge_of_none (by simp [f.get?_members])]
    exact congrArg (fun ms => some (Json.object ms)) List.mergeSort_nil
  rw [hmembers, ofJson?]
  simp only [Json.object?, Settings.ofMembers?, Json.member?, Option.bind_eq_bind,
    Option.bind_some, hfilePath, hprops, hmarkdown, htags, hget "renderMarkdown",
    hget "filterByTag", hget "exclude", get?_merge_renderMarkdown, get?_merge_filterByTag,
    get?_merge_exclude, strings?_array_map]
  rfl

/-- Where there is neither a file nor a variable, each flag sets its member and all else is the
default. -/
theorem load_of_flags {tree : FileTree} (hfiles : ∀ p ∈ defaultFiles, tree.isFile p = false)
    {environment : List (String × String)}
    (hvariables : ∀ p ∈ environment, Environment.layerOf? p.1 p.2 = none) (f : Flags) :
    load tree none environment f = .ok
      { settings := { renderMarkdown := f.renderMarkdown, filterByTag := tagRules f.filterTags }
        exclude := f.exclude } := by
  have hfile : file? tree none = .ok none := by
    rw [file?, List.find?_eq_none.mpr fun p hp => by simp [hfiles p hp]]
  have hfileLayer : fileLayer? tree none = .ok none := by
    rw [fileLayer?, hfile]
    rfl
  have henvironment : environmentLayer environment = .object [] := by
    rw [environmentLayer, List.filterMap_eq_nil_iff.mpr hvariables]
    rfl
  rw [load, hfileLayer]
  simp only [bind, Except.bind, ofLayers, henvironment, Option.toList_none, List.cons_append,
    List.nil_append, ofJson?_merge]

end Configuration

end DocComment
