/-
What a configuration is read from.

A configuration is read from members (`Reads`, `ofJson?_eq_some_iff`), and each of them comes back
where the configuration is written as plain data (`Configuration.toJson`): a value that is accepted
is the value that is written for what was read (`eq_of_strings?` and others).

* `Reads.at?_eq` — what the members have at a path that means something (`IsKnown`), the
  configuration has there;
* `Reads.get?_congr` — and it depends on the member alone.
-/
import DocComment.Proofs.Configuration.Overlay

namespace DocComment

namespace Configuration

open Json

/-! ### Configurations as plain data -/

/-- The configuration as plain data. -/
def toJson (c : Configuration) : Json :=
  .object
    [("filePath", (c.settings.filePath.map fun p => Json.string p.text).getD .null),
     ("renderMarkdown", .bool c.settings.renderMarkdown),
     ("renderMarkdownProps", .array (c.settings.renderMarkdownProps.map .string)),
     ("markdown", c.settings.markdown.toJson),
     ("filterByTag", .object c.settings.filterByTag),
     ("tags", .object (c.settings.tags.map fun (k, v) => (k, .string v))),
     ("exclude", .array (c.exclude.map .string))]

def settingNames : List String := Settings.fieldNames ++ ["exclude"]

/-- Where a layer can set something. -/
inductive IsKnown : List String → Prop where
  | setting {key : String} (h : key ∈ settingNames) : IsKnown [key]
  | gfm : IsKnown ["markdown", "gfm"]
  | within {key : String} (h : key = "filterByTag" ∨ key = "tags") (path : List String) :
      IsKnown (key :: path)

/-- The members that a configuration is read from. -/
structure Reads (members : Keyed Json) (c : Configuration) : Prop where
  filePath : Json.member? members "filePath" Settings.path? none = some c.settings.filePath
  renderMarkdown :
    Json.member? members "renderMarkdown" Json.bool? false = some c.settings.renderMarkdown
  renderMarkdownProps : Json.member? members "renderMarkdownProps" Json.strings? [] =
    some c.settings.renderMarkdownProps
  markdown : Json.member? members "markdown" MarkdownOptions.ofJson? {} = some c.settings.markdown
  filterByTag : Json.member? members "filterByTag" Json.object? [] = some c.settings.filterByTag
  tags : Json.member? members "tags" Settings.stringMap? [] = some c.settings.tags
  exclude : Json.member? members "exclude" Json.strings? [] = some c.exclude

theorem ofJson?_eq_some_iff {members : Keyed Json} {c : Configuration} :
    ofJson? (.object members) = some c ↔ Reads members c := by
  simp only [ofJson?, Settings.ofMembers?, object?, Option.bind_eq_bind, Option.bind_some,
    Option.bind_eq_some_iff]
  constructor
  · rintro ⟨settings, ⟨filePath, hfilePath, renderMarkdown, hrenderMarkdown, props, hprops,
      markdown, hmarkdown, filterByTag, hfilterByTag, tags, htags, hsettings⟩, exclude, hexclude,
      hc⟩
    cases hsettings
    cases hc
    exact ⟨hfilePath, hrenderMarkdown, hprops, hmarkdown, hfilterByTag, htags, hexclude⟩
  · intro h
    exact ⟨_, ⟨_, h.filePath, _, h.renderMarkdown, _, h.renderMarkdownProps, _, h.markdown, _,
      h.filterByTag, _, h.tags, rfl⟩, _, h.exclude, rfl⟩

/-! ### Values that are read come back -/

theorem eq_of_path? {v : Json} {p : Option Path} (h : Settings.path? v = some p) :
    v = (p.map fun p => Json.string p.text).getD .null := by
  unfold Settings.path? at h
  split at h <;> cases h <;> rfl

theorem eq_of_bool? {v : Json} {b : Bool} (h : v.bool? = some b) : v = .bool b := by
  unfold Json.bool? at h
  split at h <;> cases h
  rfl

theorem eq_of_string? {v : Json} {s : String} (h : v.string? = some s) : v = .string s := by
  unfold Json.string? at h
  split at h <;> cases h
  rfl

theorem eq_of_object? {v : Json} {members : Keyed Json} (h : v.object? = some members) :
    v = .object members := by
  unfold Json.object? at h
  split at h <;> cases h
  rfl

theorem eq_map_of_mapM {α β : Type} {f : α → Option β} {g : β → α}
    (hfg : ∀ a b, f a = some b → a = g b) {as : List α} {bs : List β}
    (h : as.mapM f = some bs) : as = bs.map g := by
  induction as generalizing bs with
  | nil =>
    cases h
    rfl
  | cons a as ih =>
    rw [List.mapM_cons] at h
    obtain ⟨b, hb, h⟩ := Option.bind_eq_some_iff.mp h
    obtain ⟨bs', hbs', h⟩ := Option.bind_eq_some_iff.mp h
    cases h
    rw [hfg a b hb, List.map_cons, ← ih hbs']

theorem eq_of_strings? {v : Json} {ss : List String} (h : v.strings? = some ss) :
    v = .array (ss.map .string) := by
  obtain ⟨items, hitems, hss⟩ := Option.bind_eq_some_iff.mp h
  unfold Json.array? at hitems
  split at hitems <;> cases hitems
  exact congrArg Json.array (eq_map_of_mapM (fun _ _ hs => eq_of_string? hs) hss)

theorem eq_of_stringMap? {v : Json} {m : Keyed String} (h : Settings.stringMap? v = some m) :
    v = .object (m.map fun (k, v) => (k, .string v)) := by
  obtain ⟨members, hmembers, hm⟩ := Option.bind_eq_some_iff.mp h
  obtain rfl := eq_of_object? hmembers
  refine congrArg Json.object (eq_map_of_mapM (fun p q hq => ?_) hm)
  obtain ⟨s, hs, hq⟩ := Option.bind_eq_some_iff.mp hq
  cases hq
  exact Prod.ext rfl (eq_of_string? hs)

theorem member?_of_get? {α : Type} {members : Keyed Json} {key : String} {f : Json → Option α}
    {default a : α} (h : Json.member? members key f default = some a) {v : Json}
    (hv : Keyed.get? members key = some v) : f v = some a := by
  rwa [Json.member?, hv] at h

namespace Reads

variable {members : Keyed Json} {c : Configuration} {key : String} {v : Json}

/-- A member that is no object with members of its own is there as it was read. -/
theorem get?_eq (h : Reads members c) (hkey : key ∈ settingNames) (hmarkdown : key ≠ "markdown")
    (hv : Keyed.get? members key = some v) : c.toJson.get? key = some v := by
  simp only [settingNames, Settings.fieldNames, List.cons_append, List.nil_append, List.mem_cons,
    List.not_mem_nil, or_false] at hkey
  rcases hkey with rfl | rfl | rfl | rfl | rfl | rfl | rfl
  · rw [eq_of_path? (member?_of_get? h.filePath hv)]
    rfl
  · rw [eq_of_bool? (member?_of_get? h.renderMarkdown hv)]
    rfl
  · rw [eq_of_strings? (member?_of_get? h.renderMarkdownProps hv)]
    rfl
  · exact absurd rfl hmarkdown
  · rw [eq_of_object? (member?_of_get? h.filterByTag hv)]
    rfl
  · rw [eq_of_stringMap? (member?_of_get? h.tags hv)]
    rfl
  · rw [eq_of_strings? (member?_of_get? h.exclude hv)]
    rfl

/-- So is what the renderer is told. -/
theorem gfm_eq (h : Reads members c) {inner : Keyed Json}
    (hinner : Keyed.get? members "markdown" = some (.object inner))
    (hv : Keyed.get? inner "gfm" = some v) : v = .bool c.settings.markdown.gfm := by
  have hread := member?_of_get? h.markdown hinner
  simp only [MarkdownOptions.ofJson?, fields?, Option.bind_eq_bind, Option.bind_some,
    Option.bind_eq_some_iff] at hread
  obtain ⟨b, hb, hread⟩ := hread
  rw [← Option.some.inj hread]
  exact eq_of_bool? (member?_of_get? hb hv)

/-- Members that agree are read alike. -/
theorem get?_congr {members' : Keyed Json} {c' : Configuration} (h : Reads members c)
    (h' : Reads members' c') (hget : Keyed.get? members key = Keyed.get? members' key) :
    c.toJson.get? key = c'.toJson.get? key := by
  have hsame {α : Type} {f : Json → Option α} {default a a' : α}
      (ha : Json.member? members key f default = some a)
      (ha' : Json.member? members' key f default = some a') : a = a' := by
    rw [Json.member?, hget] at ha
    exact Option.some.inj (ha.symm.trans ha')
  by_cases hkey : key ∈ settingNames
  · simp only [settingNames, Settings.fieldNames, List.cons_append, List.nil_append,
      List.mem_cons, List.not_mem_nil, or_false] at hkey
    simp only [toJson]
    rcases hkey with rfl | rfl | rfl | rfl | rfl | rfl | rfl
    · rw [hsame h.filePath h'.filePath]
      rfl
    · rw [hsame h.renderMarkdown h'.renderMarkdown]
      rfl
    · rw [hsame h.renderMarkdownProps h'.renderMarkdownProps]
      rfl
    · rw [hsame h.markdown h'.markdown]
      rfl
    · rw [hsame h.filterByTag h'.filterByTag]
      rfl
    · rw [hsame h.tags h'.tags]
      rfl
    · rw [hsame h.exclude h'.exclude]
      rfl
  · have hnone (c : Configuration) : c.toJson.get? key = none :=
      Keyed.get?_eq_none_iff.mpr hkey
    rw [hnone, hnone]

/-- What stands at a path that means something is in the configuration. -/
theorem at?_eq (h : Reads members c) {path : List String} (hpath : IsKnown path)
    (hmarkdown : ∀ v, Keyed.get? members "markdown" = some v → v.IsMap)
    (hv : (Json.object members).at? path = some v) :
    c.toJson.at? path ≠ none ∧ (¬v.IsMap → c.toJson.at? path = some v) := by
  cases hpath with
  | @setting key hkey =>
    have hget : Keyed.get? members key = some v := by simpa [get?] using hv
    by_cases hname : key = "markdown"
    · subst hname
      exact ⟨Option.some_ne_none _, fun hleaf => absurd (hmarkdown v hget) hleaf⟩
    · have hat : c.toJson.at? [key] = some v := by
        rw [at?_cons, h.get?_eq hkey hname hget]
        rfl
      exact ⟨hat ▸ Option.some_ne_none v, fun _ => hat⟩
  | gfm =>
    obtain ⟨u, hu, hv⟩ := Option.bind_eq_some_iff.mp hv
    obtain ⟨inner⟩ := hmarkdown u hu
    have hgfm : Keyed.get? inner "gfm" = some v := by simpa [get?] using hv
    have hat : c.toJson.at? ["markdown", "gfm"] = some v := by
      rw [h.gfm_eq hu hgfm]
      rfl
    exact ⟨hat ▸ Option.some_ne_none v, fun _ => hat⟩
  | @within key hkey path =>
    obtain ⟨u, hu, hv⟩ := Option.bind_eq_some_iff.mp hv
    have hname : key ∈ settingNames ∧ key ≠ "markdown" := by
      rcases hkey with rfl | rfl <;> decide
    have hat : c.toJson.at? (key :: path) = some v := by
      rw [at?_cons, h.get?_eq hname.1 hname.2 hu]
      exact hv
    exact ⟨hat ▸ Option.some_ne_none v, fun _ => hat⟩

end Reads

end Configuration

end DocComment
