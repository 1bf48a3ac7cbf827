/-
The order of the tags.

A tag that hands out no list of keys adds its own key or nothing, so the tags of a comment do not
meet: each adds to a record what it adds to the empty one (`addTag_eq_append`), and a run is what its
tags add by themselves, one after the other (`ofEntries_eq_flatMap`).  In another order the same
things are added in another order.  Completing the record only looks things up in it
(`Record.get?_complete_congr`), so the identifier is the same too.

* `interpret_permuted` puts this together.
-/
import DocComment.Proofs.Interpretation.FirstWriter
import DocComment.Proofs.Interpretation.Keys

namespace DocComment.Interpretation

/-- The interpreter never hands out a list of keys. -/
def HandsOutNoBundle (i : Interpreter) : Prop :=
  ∀ ctx es v, i ctx es = .ok (some v) → ∀ bundle, v.get? Tag.bundleKey ≠ some (.record bundle)

theorem HandsOutOne.handsOutNoBundle {i : Interpreter} (h : HandsOutOne i) :
    HandsOutNoBundle i := by
  intro ctx es v hv bundle hbundle
  rw [h ctx es v hv] at hbundle
  cases hbundle

theorem handsOutNoBundle_interpreterOf {registry : Registry}
    (h : ∀ p ∈ registry, HandsOutNoBundle p.2) (tag : String) :
    HandsOutNoBundle (interpreterOf registry tag) := by
  rcases interpreterOf_cases registry tag with hmem | hsimple
  · exact h _ hmem
  · exact hsimple ▸ handsOutOne_simple.handsOutNoBundle

/-- A value that is no list of keys stands under the key of its tag. -/
theorem exists_keysOf_eq {v : Value} (h : ∀ bundle, v.get? Tag.bundleKey ≠ some (.record bundle))
    (tag : String) : ∃ w, keysOf tag v = [(tag, w)] := by
  unfold keysOf
  split
  · exact ⟨v, rfl⟩
  · next bundle hbundle => exact absurd hbundle (h bundle)
  · exact ⟨_, rfl⟩

variable (registry : Registry) (ctx : Context) (raw : String)

/-- A new key is added as it is added to the empty record. -/
theorem addKey_eq_append {i : Interpretation} {p : String × Value}
    (h : p.1 ∉ Keyed.keys i.record) :
    addKey ctx raw i p = ⟨i.record ++ (addKey ctx raw {} p).record,
      i.failures ++ (addKey ctx raw {} p).failures⟩ := by
  obtain ⟨key, value⟩ := p
  have hkey : Keyed.contains i.record key = false := by
    rwa [Bool.eq_false_iff, Ne, Keyed.contains_iff_mem_keys]
  have hempty : Keyed.contains ([] : Record) key = false := rfl
  by_cases hrender : ctx.renderMarkdown = true
  · cases hvalue : value.renderAt ctx [key] with
    | ok rendered => simp [addKey, hkey, hempty, hrender, hvalue]
    | error cause => simp [addKey, hkey, hempty, hrender, hvalue]
  · simp [addKey, hkey, hempty, hrender]

variable {registry}

/-- A tag that is new is added as it is added to the empty record. -/
theorem addTag_eq_append {i : Interpretation} {p : String × List Entry}
    (hone : HandsOutNoBundle (interpreterOf registry p.1)) (h : p.1 ∉ Keyed.keys i.record) :
    addTag registry ctx raw i p = ⟨i.record ++ (addTag registry ctx raw {} p).record,
      i.failures ++ (addTag registry ctx raw {} p).failures⟩ := by
  obtain ⟨tag, es⟩ := p
  have hnew : Keyed.contains i.record tag = false := by
    rwa [Bool.eq_false_iff, Ne, Keyed.contains_iff_mem_keys]
  have hempty : Keyed.contains ([] : Record) tag = false := rfl
  cases hprivate : isPrivate tag with
  | true =>
    rw [addTag_of_skipped registry ctx raw es (by rw [hnew, hprivate]; rfl),
      addTag_of_skipped registry ctx raw es (by rw [hempty, hprivate]; rfl), List.append_nil,
      List.append_nil]
  | false =>
    rw [addTag_of_reached registry ctx raw es (by rw [hnew, hprivate]; rfl),
      addTag_of_reached registry ctx raw es (by rw [hempty, hprivate]; rfl)]
    split
    · rw [List.append_nil, List.append_nil]
    · next v hv =>
      obtain ⟨w, hw⟩ := exists_keysOf_eq (hone ctx es v hv) tag
      rw [hw]
      exact addKey_eq_append ctx raw (p := (tag, w)) h
    · rw [List.append_nil, List.nil_append]

/-- What a tag adds by itself has no other key than its own. -/
theorem keys_addTag_empty {p : String × List Entry}
    (hone : HandsOutNoBundle (interpreterOf registry p.1)) {key : String}
    (hkey : key ∈ Keyed.keys (addTag registry ctx raw {} p).record) : key = p.1 := by
  obtain ⟨tag, es⟩ := p
  have hempty : Keyed.contains ([] : Record) tag = false := rfl
  cases hprivate : isPrivate tag with
  | true =>
    rw [addTag_of_skipped registry ctx raw es (by rw [hempty, hprivate]; rfl)] at hkey
    cases hkey
  | false =>
    rw [addTag_of_reached registry ctx raw es (by rw [hempty, hprivate]; rfl)] at hkey
    split at hkey
    · cases hkey
    · next v hv =>
      obtain ⟨w, hw⟩ := exists_keysOf_eq (hone ctx es v hv) tag
      rw [hw, List.foldl_cons, List.foldl_nil, keys_addKey, hempty] at hkey
      exact List.mem_singleton.mp hkey
    · cases hkey

/-- A run is what its tags add by themselves, one after the other. -/
theorem ofEntries_eq_flatMap (hone : ∀ tag, HandsOutNoBundle (interpreterOf registry tag))
    {es : Entries} (hnodup : es.tags.Nodup) :
    ofEntries registry ctx raw es =
      ⟨es.flatMap fun p => (addTag registry ctx raw {} p).record,
        es.flatMap fun p => (addTag registry ctx raw {} p).failures⟩ := by
  -- the record that the run comes with has none of the keys that are still to come
  have hrun : ∀ i : Interpretation, (∀ p ∈ es, p.1 ∉ Keyed.keys i.record) →
      es.foldl (addTag registry ctx raw) i =
        ⟨i.record ++ es.flatMap fun p => (addTag registry ctx raw {} p).record,
          i.failures ++ es.flatMap fun p => (addTag registry ctx raw {} p).failures⟩ := by
    induction es with
    | nil =>
      intro i _
      rw [List.foldl_nil, List.flatMap_nil, List.flatMap_nil, List.append_nil, List.append_nil]
    | cons p es ih =>
      intro i hi
      obtain ⟨hp, hes⟩ := List.nodup_cons.mp hnodup
      rw [List.foldl_cons, addTag_eq_append ctx raw (hone p.1) (hi p List.mem_cons_self), ih hes,
        List.flatMap_cons, List.flatMap_cons, List.append_assoc, List.append_assoc]
      intro q hq hmem
      rw [Keyed.keys_append, List.mem_append] at hmem
      rcases hmem with hmem | hmem
      · exact hi q (List.mem_cons_of_mem p hq) hmem
      · have heq : q.1 = p.1 := keys_addTag_empty ctx raw (hone p.1) hmem
        exact hp (heq ▸ List.mem_map_of_mem hq)
  exact hrun {} fun _ _ => List.not_mem_nil

/-- **The order of the tags does not matter**, where no interpreter hands out a list of keys: with
the same entries under each tag, the record has the same value under each key, the identifier among
them, and the same failures are reported in some order. -/
theorem interpret_permuted (hregistry : ∀ p ∈ registry, HandsOutNoBundle p.2) {es es' : Entries}
    (hnodup : es.tags.Nodup) (hnodup' : es'.tags.Nodup)
    (hsame : ∀ tag, Keyed.get? es tag = Keyed.get? es' tag) :
    (∀ key, Keyed.get? (es.interpret registry ctx raw).record key =
      Keyed.get? (es'.interpret registry ctx raw).record key) ∧
    (es.interpret registry ctx raw).failures.Perm (es'.interpret registry ctx raw).failures := by
  have hone := handsOutNoBundle_interpreterOf hregistry
  have hperm : es.Perm es' := Keyed.perm_of_get?_eq hnodup hnodup' hsame
  have hrecord : (ofEntries registry ctx raw es).record.Perm
      (ofEntries registry ctx raw es').record := by
    rw [ofEntries_eq_flatMap ctx raw hone hnodup, ofEntries_eq_flatMap ctx raw hone hnodup']
    exact hperm.flatMap_right _
  have hfailures : (ofEntries registry ctx raw es).failures.Perm
      (ofEntries registry ctx raw es').failures := by
    rw [ofEntries_eq_flatMap ctx raw hone hnodup, ofEntries_eq_flatMap ctx raw hone hnodup']
    exact hperm.flatMap_right _
  have hget := Keyed.get?_eq_of_perm (nodup_keys_ofEntries registry ctx raw es) hrecord
  exact ⟨fun key => Record.get?_complete_congr raw (hget _) (hget _) (hget key), hfailures⟩

/-- Tags with a namespace and a name, a private one and two that fail. -/
def shuffledSample : Entries :=
  [("status", [⟨"status", none, []⟩]), ("name", [⟨"name", some "Button", []⟩]),
    ("x", [⟨"x", none, []⟩]), ("namespace", [⟨"namespace", some "ui", []⟩]),
    ("state", [⟨"state", none, []⟩, ⟨"state", some "beta", []⟩])]

/-- The registry of `shuffledSample`, with an interpreter whose value has a plain text under the key
of bundles. -/
def shuffledRegistry : Registry :=
  [("status", fun _ _ => .error (.worded ["status exploded"])),
    ("state", fun _ es => .error (.worded [toString es.length])),
    ("kind", fun _ _ => .ok (some (.record [(Tag.bundleKey, .text "a"), ("b", .null)])))]

/-- Read backwards, `shuffledSample` has the same identifier. -/
theorem interpret_permuted_shuffledSample :
    (∀ p ∈ shuffledRegistry, HandsOutNoBundle p.2) ∧
      shuffledSample.tags.Nodup ∧ (Entries.tags shuffledSample.reverse).Nodup ∧
      Keyed.get? (Entries.interpret shuffledRegistry { renderer := .plain } ""
        shuffledSample.reverse).record "id" = some (.text "ui.button") ∧
      (shuffledSample.interpret shuffledRegistry { renderer := .plain } "").failures.Perm
        (Entries.interpret shuffledRegistry { renderer := .plain } ""
          shuffledSample.reverse).failures := by
  have hregistry : ∀ p ∈ shuffledRegistry, HandsOutNoBundle p.2 := by
    intro p hp ctx es v hv bundle hbundle
    simp only [shuffledRegistry, List.mem_cons, List.not_mem_nil, or_false] at hp
    rcases hp with rfl | rfl | rfl
    · cases hv
    · cases hv
    · cases hv
      cases hbundle
  have hnodup : shuffledSample.tags.Nodup := by decide
  have hnodup' : (Entries.tags shuffledSample.reverse).Nodup := by decide
  have hid : Keyed.get? (shuffledSample.interpret shuffledRegistry { renderer := .plain } "").record
      "id" = some (.text "ui.button") := by rfl
  have hsame : ∀ tag, Keyed.get? shuffledSample tag = Keyed.get? shuffledSample.reverse tag :=
    Keyed.get?_eq_of_perm hnodup (List.reverse_perm _).symm
  obtain ⟨hget, hfailures⟩ :=
    interpret_permuted { renderer := .plain } "" hregistry hnodup hnodup' hsame
  exact ⟨hregistry, hnodup, hnodup', (hget "id").symm.trans hid, hfailures⟩

end DocComment.Interpretation
