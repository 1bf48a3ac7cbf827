/-
Runs with rendering and without.

The interpreters known by default do not look at whether values are rendered, so a run with
rendering goes along the run without it, key by key (`Accompanies`, carried through a key, a tag and a
run).  Under each key it has the rendered value, or the value whole as it was and one failure more.

* `isLabel_of_get?` — under `name`, `namespace` and `id` there are plain texts and mere marks, which
  nothing renders that is not told to;
* `interpret_rendering` puts this together.
-/
import DocComment.Proofs.Interpretation.FirstWriter
import DocComment.Proofs.Interpretation.Keys

namespace DocComment

/-- The same context, with rendering or without. -/
def Context.rendering (ctx : Context) (on : Bool) : Context := { ctx with renderMarkdown := on }

namespace Interpretation

/-! ### Two runs -/

/-- What stands under a key where values are rendered: the rendered value, or all of the value as it
was. -/
def shownAt (ctx : Context) (p : String × Value) : Value :=
  match p.2.renderAt ctx [p.1] with
  | .ok rendered => rendered
  | .error _ => p.2

/-- What is reported of a key whose value cannot be rendered. -/
def renderFailure? (ctx : Context) (raw : String) (p : String × Value) : Option TagFailure :=
  match p.2.renderAt ctx [p.1] with
  | .ok _ => none
  | .error cause => some ⟨p.1, raw, .rendering cause⟩

/-- What is reported of all keys of a record. -/
def renderFailures (ctx : Context) (raw : String) (r : Record) : List TagFailure :=
  r.filterMap (renderFailure? ctx raw)

/-- The second run renders what the first one has, and reports besides what it could not render. -/
structure Accompanies (ctx : Context) (raw : String) (off on : Interpretation) : Prop where
  record_eq : on.record = off.record.map fun p => (p.1, shownAt ctx p)
  sublist : off.failures.Sublist on.failures
  perm : on.failures.Perm (off.failures ++ renderFailures ctx raw off.record)

variable {ctx : Context} {raw : String} {off on : Interpretation}

namespace Accompanies

theorem keys_eq (h : Accompanies ctx raw off on) : Keyed.keys on.record = Keyed.keys off.record := by
  rw [h.record_eq, Keyed.keys_mapValues]

theorem contains_eq (h : Accompanies ctx raw off on) (key : String) :
    Keyed.contains on.record key = Keyed.contains off.record key :=
  Keyed.contains_congr h.keys_eq key

theorem get?_eq (h : Accompanies ctx raw off on) (key : String) :
    Keyed.get? on.record key = (Keyed.get? off.record key).map fun v => shownAt ctx (key, v) := by
  rw [h.record_eq, Keyed.get?_mapValues]

/-- Both runs report the same. -/
theorem report (h : Accompanies ctx raw off on) (failure : TagFailure) :
    Accompanies ctx raw { off with failures := off.failures ++ [failure] }
      { on with failures := on.failures ++ [failure] } where
  record_eq := h.record_eq
  sublist := h.sublist.append (List.Sublist.refl _)
  perm := by
    refine (h.perm.append_right [failure]).trans ?_
    rw [List.append_assoc, List.append_assoc]
    exact List.perm_append_comm.append_left off.failures

end Accompanies

theorem Accompanies.addKey (h : Accompanies (ctx.rendering true) raw off on)
    (p : String × Value) :
    Accompanies (ctx.rendering true) raw (addKey (ctx.rendering false) raw off p)
      (addKey (ctx.rendering true) raw on p) := by
  obtain ⟨key, value⟩ := p
  -- both runs have the key or neither has it; where it is new, only rendering it may fail
  have hoff : (ctx.rendering false).renderMarkdown = false := rfl
  have hon : (ctx.rendering true).renderMarkdown = true := rfl
  cases hkey : Keyed.contains off.record key with
  | true =>
    have hkey' : Keyed.contains on.record key = true := (h.contains_eq key).trans hkey
    simpa only [Interpretation.addKey, hkey, hkey', if_true] using h
  | false =>
    have hkey' : Keyed.contains on.record key = false := (h.contains_eq key).trans hkey
    obtain ⟨hrecord, hsublist, hperm⟩ := h
    cases hvalue : value.renderAt (ctx.rendering true) [key] with
    | ok rendered =>
      simp only [Interpretation.addKey, hkey, hkey', hoff, hon, hvalue, Bool.false_eq_true,
        if_false, if_true]
      refine ⟨?_, hsublist, ?_⟩
      · rw [hrecord, List.map_append, List.map_singleton, shownAt, hvalue]
      · have hnone : renderFailure? (ctx.rendering true) raw (key, value) = none := by
          rw [renderFailure?, hvalue]
        rwa [renderFailures, List.filterMap_append, List.filterMap_cons_none hnone,
          List.filterMap_nil, List.append_nil]
    | error cause =>
      simp only [Interpretation.addKey, hkey, hkey', hoff, hon, hvalue, Bool.false_eq_true,
        if_false, if_true]
      refine ⟨?_, hsublist.trans (List.sublist_append_left _ _), ?_⟩
      · rw [hrecord, List.map_append, List.map_singleton, shownAt, hvalue]
      · have hsome : renderFailure? (ctx.rendering true) raw (key, value) =
            some ⟨key, raw, .rendering cause⟩ := by
          rw [renderFailure?, hvalue]
        rw [renderFailures, List.filterMap_append, List.filterMap_cons_some hsome,
          List.filterMap_nil, ← List.append_assoc]
        exact hperm.append_right _

theorem Accompanies.foldl_addKey (h : Accompanies (ctx.rendering true) raw off on)
    (ps : Record) :
    Accompanies (ctx.rendering true) raw (ps.foldl (Interpretation.addKey (ctx.rendering false) raw) off)
      (ps.foldl (Interpretation.addKey (ctx.rendering true) raw) on) := by
  induction ps generalizing off on with
  | nil => exact h
  | cons p ps ih => exact ih (h.addKey p)

/-- The interpreter does not look at whether values are rendered. -/
def IgnoresRendering (i : Interpreter) : Prop :=
  ∀ (ctx : Context) (on : Bool) (es : List Entry), i (ctx.rendering on) es = i ctx es

variable {registry : Registry}

theorem Accompanies.addTag (h : Accompanies (ctx.rendering true) raw off on)
    (hignores : ∀ tag, IgnoresRendering (interpreterOf registry tag)) (p : String × List Entry) :
    Accompanies (ctx.rendering true) raw (addTag registry (ctx.rendering false) raw off p)
      (addTag registry (ctx.rendering true) raw on p) := by
  obtain ⟨tag, es⟩ := p
  cases hskip : Keyed.contains off.record tag || isPrivate tag with
  | true =>
    rw [addTag_of_skipped registry _ raw es hskip,
      addTag_of_skipped registry _ raw es (by rw [h.contains_eq, hskip])]
    exact h
  | false =>
    rw [addTag_of_reached registry _ raw es hskip,
      addTag_of_reached registry _ raw es (by rw [h.contains_eq, hskip]),
      hignores tag ctx false es, hignores tag ctx true es]
    split
    · exact h
    · next v _ => exact h.foldl_addKey (keysOf tag v)
    · next fault _ => exact h.report ⟨tag, raw, fault⟩

/-- The run with rendering goes along the run without it. -/
theorem accompanies_ofEntries (hignores : ∀ tag, IgnoresRendering (interpreterOf registry tag))
    (ctx : Context) (raw : String) (es : Entries) :
    Accompanies (ctx.rendering true) raw (ofEntries registry (ctx.rendering false) raw es)
      (ofEntries registry (ctx.rendering true) raw es) := by
  have hrun : ∀ off on : Interpretation, Accompanies (ctx.rendering true) raw off on →
      Accompanies (ctx.rendering true) raw
        (es.foldl (Interpretation.addTag registry (ctx.rendering false) raw) off)
        (es.foldl (Interpretation.addTag registry (ctx.rendering true) raw) on) := by
    induction es with
    | nil => exact fun _ _ h => h
    | cons p es ih => exact fun off on h => ih _ _ (h.addTag hignores p)
  exact hrun {} {} ⟨rfl, List.Sublist.refl _, List.Perm.refl _⟩

theorem ignoresRendering_builtin (tag : String) :
    IgnoresRendering (interpreterOf .builtin tag) := by
  have htable : ∀ q ∈ Tag.ownInterpreters, IgnoresRendering q.2 := by
    simp only [Tag.ownInterpreters, List.forall_mem_cons]
    and_intros
    all_goals first | exact fun _ _ _ => rfl | simp
  rcases interpreterOf_builtin tag with hown | hsimple
  · exact htable _ hown
  · rw [hsimple]
    exact fun _ _ _ => rfl

/-! ### Namespace, name and identifier -/

/-- The value is a plain text or a mere mark. -/
def IsLabel (v : Value) : Prop := (∃ s, v = .text s) ∨ ∃ b, v = .bool b

theorem shownAt_of_isLabel {v : Value} (h : IsLabel v) {key : String}
    (hkey : Selector.anySelects ctx.renderMarkdownProps [key] = false) :
    shownAt ctx (key, v) = v := by
  rcases h with ⟨s, rfl⟩ | ⟨b, rfl⟩
  · simp [shownAt, Value.renderAt, hkey]
  · simp [shownAt, Value.renderAt]

theorem isLabel_entryValue (e : Entry) : IsLabel (Tag.entryValue e) := by
  unfold Tag.entryValue
  split
  · split
    · exact Or.inr ⟨_, rfl⟩
    · exact Or.inl ⟨_, rfl⟩
  · exact Or.inr ⟨_, rfl⟩

/-- The keys that make up an identifier. -/
def identifierKeys : List String := ["namespace", "name", "id"]

/-- The tags of identifiers hand out a label each. -/
theorem handsOutOne_isLabel_of_mem {tag : String} (h : tag ∈ identifierKeys) :
    HandsOutOne (interpreterOf .builtin tag) ∧
      ∀ ctx es v, interpreterOf .builtin tag ctx es = .ok (some v) → IsLabel v := by
  have hsimple : ∀ ctx es v, Tag.simple ctx es = .ok (some v) → IsLabel v := by
    intro ctx es v hv
    obtain ⟨e, -, rfl⟩ := Option.map_eq_some_iff.mp (Except.ok.inj hv)
    exact isLabel_entryValue e
  have hnamespace : ∀ ctx es v, Tag.namespace_ ctx es = .ok (some v) → IsLabel v := by
    intro ctx es v hv
    obtain ⟨e, -, rfl⟩ := Option.map_eq_some_iff.mp (Except.ok.inj hv)
    split
    · exact Or.inr ⟨_, rfl⟩
    · exact Or.inl ⟨_, rfl⟩
  simp only [identifierKeys, List.mem_cons, List.not_mem_nil, or_false] at h
  rcases h with rfl | rfl | rfl
  · rw [show interpreterOf .builtin "namespace" = Tag.namespace_ from rfl]
    exact ⟨handsOutOne_namespace, hnamespace⟩
  · rw [show interpreterOf .builtin "name" = Tag.simple from rfl]
    exact ⟨handsOutOne_simple, hsimple⟩
  · rw [show interpreterOf .builtin "id" = Tag.simple from rfl]
    exact ⟨handsOutOne_simple, hsimple⟩

/-- The name of a parameter and of a style class is a text. -/
theorem IsMembers.isLabel_name {bundle : Record} (h : IsMembers bundle) {v : Value}
    (hv : Keyed.get? bundle "name" = some v) : IsLabel v := by
  cases h with
  | param h =>
    obtain rfl := Value.record.inj h
    exact Or.inl ⟨_, (Option.some.inj hv).symm⟩
  | styleClass h =>
    obtain rfl := Value.record.inj h
    exact Or.inl ⟨_, (Option.some.inj hv).symm⟩

/-- Whatever tag hands out a key of identifiers, it hands out a label. -/
theorem isLabel_contribution {p : String × List Entry} {key : String} (hkey : key ∈ identifierKeys)
    {v : Value} (h : Keyed.get? (contribution .builtin ctx p) key = some v) : IsLabel v := by
  have hbuiltin : ∀ key ∈ identifierKeys,
      key ∉ ["interface", "definition"] ∧ (key ∈ memberKeys → key = "name") := by decide
  unfold contribution at h
  split at h
  · next w hw =>
    unfold keysOf at h
    split at h
    · obtain ⟨htag, rfl⟩ := Keyed.get?_singleton_eq_some_iff.mp h
      exact (handsOutOne_isLabel_of_mem (htag ▸ hkey)).2 _ _ _ hw
    · next bundle hbundle =>
      have hmem : key ∈ Keyed.keys bundle := Keyed.mem_keys_of_get? h
      rcases bundle_builtin hw hbundle with hkeys | ⟨-, hmembers⟩
      · exact absurd (hkeys ▸ hmem) (hbuiltin key hkey).1
      · have hname : key = "name" :=
          (hbuiltin key hkey).2 (hmembers.mem_memberKeys key hmem)
        exact hmembers.isLabel_name (hname ▸ h)
    · next other _ hother =>
      -- the tag of the key has no keys of its own
      obtain ⟨htag, -⟩ := Keyed.get?_singleton_eq_some_iff.mp h
      have hnone := (handsOutOne_isLabel_of_mem (htag ▸ hkey)).1 _ _ _ hw
      rw [hnone] at hother
      cases hother
  · cases h

theorem isLabel_of_get? {es : Entries} {key : String} (hkey : key ∈ identifierKeys) {v : Value}
    (h : Keyed.get? (ofEntries .builtin (ctx.rendering false) raw es).record key = some v) :
    IsLabel v := by
  rcases exists_contribution_of_get? .builtin raw rfl h with hnil | ⟨p, -, hp⟩
  · cases hnil
  · exact isLabel_contribution hkey hp

/-- Apart from the comment and the identifier, an interpretation has the keys of its tags. -/
theorem get?_interpret_of_ne (registry : Registry) (ctx : Context) (raw : String) (es : Entries)
    {key : String} (hraw : key ≠ "raw") (hid : key ≠ "id") :
    Keyed.get? (es.interpret registry ctx raw).record key =
      Keyed.get? (ofEntries registry ctx raw es).record key :=
  Record.get?_complete_of_ne _ raw hraw hid

/-- **Rendering changes rendered values and nothing else.**  If it is not told to render names,
namespaces and identifiers, a run with rendering gives the same keys in the same order as the run
without it, and the same `raw` and `id`.  Under each other key stands the rendered value, or the
value as it was if rendering it failed; each such key is reported once, in addition to what the other
run reports. -/
theorem interpret_rendering (ctx : Context) (raw : String) (es : Entries)
    (hselects : ∀ key ∈ identifierKeys,
      Selector.anySelects ctx.renderMarkdownProps [key] = false) :
    let off := es.interpret .builtin (ctx.rendering false) raw
    let on := es.interpret .builtin (ctx.rendering true) raw
    Keyed.keys on.record = Keyed.keys off.record ∧
    Keyed.get? on.record "raw" = Keyed.get? off.record "raw" ∧
    Keyed.get? on.record "id" = Keyed.get? off.record "id" ∧
    (∀ key v, key ≠ "raw" → key ≠ "id" → Keyed.get? off.record key = some v →
      Keyed.get? on.record key = some
        (match v.renderAt (ctx.rendering true) [key] with
          | .ok rendered => rendered
          | .error _ => v)) ∧
    off.failures.Sublist on.failures ∧
    on.failures.Perm (off.failures ++ renderFailures (ctx.rendering true) raw
      (ofEntries .builtin (ctx.rendering false) raw es).record) := by
  have hruns := accompanies_ofEntries ignoresRendering_builtin ctx raw es
  have hlabels : ∀ key ∈ identifierKeys,
      Keyed.get? (ofEntries .builtin (ctx.rendering true) raw es).record key =
        Keyed.get? (ofEntries .builtin (ctx.rendering false) raw es).record key := by
    intro key hkey
    rw [hruns.get?_eq]
    cases hv : Keyed.get? (ofEntries .builtin (ctx.rendering false) raw es).record key with
    | none => rfl
    | some v =>
      have hshown : shownAt (ctx.rendering true) (key, v) = v :=
        shownAt_of_isLabel (isLabel_of_get? hkey hv) (hselects key hkey)
      rw [Option.map_some, hshown]
  refine ⟨Record.keys_complete_congr raw hruns.keys_eq, ?_, ?_, ?_, hruns.sublist, hruns.perm⟩
  · exact (Record.get?_complete_raw _ raw).trans (Record.get?_complete_raw _ raw).symm
  · exact Record.get?_complete_congr raw (hlabels _ (by decide)) (hlabels _ (by decide))
      (hlabels _ (by decide))
  · intro key v hraw hid hv
    rw [get?_interpret_of_ne _ _ _ _ hraw hid] at hv ⊢
    rw [hruns.get?_eq, hv]
    rfl

/-- Tags of which one selects rendering by its key and two are markdown. -/
def renderedSample : Entries :=
  [("name", [⟨"name", some "Button", []⟩]), ("namespace", [⟨"namespace", some "ui", []⟩]),
    ("since", [⟨"since", some "1.0", []⟩]), ("description", [⟨"description", none, ["A b."]⟩]),
    ("desc", [⟨"desc", some "boom", []⟩])]

/-- Renders every line but one. -/
def renderedContext : Context where
  renderMarkdownProps := ["since", "param.*"]
  renderer := ⟨fun _ s => .ok s, fun _ s =>
    if s = "boom" then .error (.worded ["refused"]) else .ok ("<" ++ s ++ ">")⟩

/-- In `renderedSample` one value cannot be rendered and stays as it is. -/
theorem interpret_rendering_renderedSample :
    (∀ key ∈ identifierKeys,
      Selector.anySelects renderedContext.renderMarkdownProps [key] = false) ∧
    let on := renderedSample.interpret .builtin (renderedContext.rendering true) ""
    Keyed.keys on.record = ["name", "namespace", "since", "description", "desc", "raw", "id"] ∧
      Keyed.get? on.record "id" = some (.text "ui.button") ∧
      Keyed.get? on.record "since" = some (.text "<1.0>") ∧
      Keyed.get? on.record "description" = some (.text "<A b.>") ∧
      Keyed.get? on.record "desc" = some (.markdown "boom") ∧
      on.failures.Perm [⟨"desc", "", .rendering (.worded ["refused"])⟩] := by
  have hselects : ∀ key ∈ identifierKeys,
      Selector.anySelects renderedContext.renderMarkdownProps [key] = false := by decide
  have hread : ofEntries .builtin (renderedContext.rendering false) "" renderedSample =
      ⟨[("name", .text "Button"), ("namespace", .text "ui"), ("since", .text "1.0"),
        ("description", .markdown "A b."), ("desc", .markdown "boom")], []⟩ := by
    have hname : interpreterOf .builtin "name" = Tag.simple := rfl
    have hnamespace : interpreterOf .builtin "namespace" = Tag.namespace_ := rfl
    have hsince : interpreterOf .builtin "since" = Tag.simple := rfl
    have hdescription : interpreterOf .builtin "description" = Tag.description := rfl
    have hdesc : interpreterOf .builtin "desc" = Tag.description := rfl
    simp only [ofEntries, renderedSample, List.foldl_cons, List.foldl_nil, addTag, hname,
      hnamespace, hsince, hdescription, hdesc]
    rfl
  have hoff : renderedSample.interpret .builtin (renderedContext.rendering false) "" =
      ⟨[("name", .text "Button"), ("namespace", .text "ui"), ("since", .text "1.0"),
        ("description", .markdown "A b."), ("desc", .markdown "boom"), ("raw", .text ""),
        ("id", .text "ui.button")], []⟩ := by
    unfold Entries.interpret
    rw [hread]
    rfl
  obtain ⟨hkeys, -, hid, hshown, -, hfailures⟩ :=
    interpret_rendering renderedContext "" renderedSample hselects
  rw [hoff] at hkeys hid hfailures
  simp only [hoff] at hshown
  rw [hread] at hfailures
  refine ⟨hselects, hkeys, hid, ?_, ?_, ?_, hfailures⟩
  · exact hshown "since" (.text "1.0") (by decide) (by decide) rfl
  · exact hshown "description" (.markdown "A b.") (by decide) (by decide) rfl
  · exact hshown "desc" (.markdown "boom") (by decide) (by decide) rfl

end Interpretation

end DocComment
