/-
Which keys a tag adds.

What a tag hands out (`contribution`) depends on the tag and its entries alone; the run adds what is
new of it.  Without rendering, the record is therefore looked up as the contributions are, the first
one first (`get?_foldl_addKey`), and a key that no other tag hands out holds what its own tag gives
it (`get?_ofEntries`).

* `bundle_builtin` — of the tags known by default, only `interface` hands out several keys by design.
  A parameter or a style class by the name `tags` is taken for a list of keys as well, and then its
  own members become keys of the comment;
* `keys_contribution_builtin` — so a tag adds its own key or one of those.
-/
import DocComment.Proofs.Interpretation.Run
import DocComment.Tag.Builtin

namespace DocComment.Interpretation

/-! ### Contributions -/

/-- The keys that a tag hands out, with their values; none if it means nothing or fails. -/
def contribution (registry : Registry) (ctx : Context) (p : String × List Entry) : Record :=
  match interpreterOf registry p.1 ctx p.2 with
  | .ok (some v) => keysOf p.1 v
  | _ => []

/-- Without rendering, a key that is new takes its value as it is. -/
theorem get?_addKey {ctx : Context} (hrender : ctx.renderMarkdown = false) (raw : String)
    (i : Interpretation) (p : String × Value) (key : String) :
    Keyed.get? (addKey ctx raw i p).record key =
      (Keyed.get? i.record key).or (Keyed.get? [p] key) := by
  obtain ⟨k, v⟩ := p
  by_cases hk : Keyed.contains i.record k = true
  · rw [addKey, if_pos hk]
    by_cases hkey : k = key
    · obtain ⟨w, hw⟩ := Option.isSome_iff_exists.mp (hkey ▸ hk)
      rw [hw]
      rfl
    · rw [Keyed.get?, if_neg hkey, Keyed.get?, Option.or_none]
  · rw [addKey, if_neg hk, hrender]
    exact Keyed.get?_append i.record [(k, v)] key

theorem get?_foldl_addKey {ctx : Context} (hrender : ctx.renderMarkdown = false) (raw : String)
    (i : Interpretation) (ps : Record) (key : String) :
    Keyed.get? (ps.foldl (addKey ctx raw) i).record key =
      (Keyed.get? i.record key).or (Keyed.get? ps key) := by
  induction ps generalizing i with
  | nil => exact Option.or_none.symm
  | cons p ps ih =>
    rw [List.foldl_cons, ih, get?_addKey hrender, Option.or_assoc, ← Keyed.get?_append]
    rfl

variable (registry : Registry) (raw : String)

/-- What is looked up after a tag was there before, or is handed out by the tag. -/
theorem get?_addTag {ctx : Context} (hrender : ctx.renderMarkdown = false) (i : Interpretation)
    (p : String × List Entry) (key : String) :
    Keyed.get? (addTag registry ctx raw i p).record key =
      (Keyed.get? i.record key).or
        (if Keyed.contains i.record p.1 || isPrivate p.1 then none
          else Keyed.get? (contribution registry ctx p) key) := by
  obtain ⟨tag, es⟩ := p
  cases hskip : Keyed.contains i.record tag || isPrivate tag with
  | true =>
    rw [addTag_of_skipped registry ctx raw es hskip, if_pos rfl, Option.or_none]
  | false =>
    rw [addTag_of_reached registry ctx raw es hskip, if_neg Bool.false_ne_true, contribution]
    split
    · next h => rw [h, Keyed.get?, Option.or_none]
    · next v h => rw [h, get?_foldl_addKey hrender]
    · next h => rw [h, Keyed.get?, Option.or_none]

/-- What is looked up after a run was there before, or some tag handed it out. -/
theorem exists_contribution_of_get? {ctx : Context} (hrender : ctx.renderMarkdown = false)
    {es : Entries} {i : Interpretation} {key : String} {v : Value}
    (h : Keyed.get? (es.foldl (addTag registry ctx raw) i).record key = some v) :
    Keyed.get? i.record key = some v ∨
      ∃ p ∈ es, Keyed.get? (contribution registry ctx p) key = some v := by
  induction es generalizing i with
  | nil => exact Or.inl h
  | cons p es ih =>
    rcases ih h with hstep | ⟨q, hq, hv⟩
    · rw [get?_addTag registry raw hrender, Option.or_eq_some_iff] at hstep
      rcases hstep with hold | ⟨-, hnew⟩
      · exact Or.inl hold
      · split at hnew
        · cases hnew
        · exact Or.inr ⟨p, List.mem_cons_self, hnew⟩
    · exact Or.inr ⟨q, List.mem_cons_of_mem p hq, hv⟩

/-- A key that no other tag hands out holds what its own tag gives it. -/
theorem get?_ofEntries {ctx : Context} (hrender : ctx.renderMarkdown = false) {es : Entries}
    (hnodup : es.tags.Nodup) {key : String} (hkey : isPrivate key = false)
    (hother : ∀ p ∈ es, p.1 ≠ key → key ∉ Keyed.keys (contribution registry ctx p)) :
    Keyed.get? (ofEntries registry ctx raw es).record key =
      (Keyed.get? es key).bind fun occurrences =>
        Keyed.get? (contribution registry ctx (key, occurrences)) key := by
  -- a run from a record with the key keeps it, and one from a record without it comes to the tag
  have hrun : ∀ i : Interpretation,
      Keyed.get? (es.foldl (addTag registry ctx raw) i).record key =
        (Keyed.get? i.record key).or ((Keyed.get? es key).bind fun occurrences =>
          Keyed.get? (contribution registry ctx (key, occurrences)) key) := by
    induction es with
    | nil => exact fun i => Option.or_none.symm
    | cons p es ih =>
      obtain ⟨tag, occurrences⟩ := p
      intro i
      obtain ⟨hnew, hnodup⟩ := List.nodup_cons.mp hnodup
      rw [List.foldl_cons, ih hnodup fun p hp => hother p (List.mem_cons_of_mem _ hp),
        get?_addTag registry raw hrender, Option.or_assoc]
      by_cases htag : tag = key
      · -- the tag comes nowhere else
        have hnone : Keyed.get? es key = none := Keyed.get?_eq_none_iff.mpr (htag ▸ hnew)
        rw [hnone, Option.bind_none, Option.or_none, Keyed.get?, if_pos htag, htag, hkey,
          Bool.or_false, Option.bind_some]
        cases hold : Keyed.get? i.record key with
        | none => rw [Keyed.contains, hold]; rfl
        | some v => rfl
      · have hnone : Keyed.get? (contribution registry ctx (tag, occurrences)) key = none :=
          Keyed.get?_eq_none_iff.mpr (hother _ List.mem_cons_self htag)
        rw [hnone, ite_self, Option.none_or, Keyed.get?, if_neg htag]
  exact hrun {}

/-! ### The tags known by default -/

theorem mem_registerAll {r : Registry} {tags : List String} {i : Interpreter}
    {p : String × Interpreter} (h : p ∈ r.registerAll tags i) :
    p ∈ r ∨ p.1 ∈ tags ∧ p.2 = i := by
  induction tags generalizing r with
  | nil => exact Or.inl h
  | cons tag tags ih =>
    rcases ih h with h | ⟨htag, hi⟩
    · rcases Keyed.mem_insert h with h | rfl
      · exact Or.inl h
      · exact Or.inr ⟨List.mem_cons_self, rfl⟩
    · exact Or.inr ⟨List.mem_cons_of_mem tag htag, hi⟩

theorem mem_foldl_register {r : Registry} {l : List (String × Interpreter)}
    {p : String × Interpreter} (h : p ∈ l.foldl (fun r (tag, i) => r.register tag i) r) :
    p ∈ r ∨ p ∈ l := by
  induction l generalizing r with
  | nil => exact Or.inl h
  | cons q l ih =>
    rcases ih h with h | h
    · rcases Keyed.mem_insert h with h | rfl
      · exact Or.inl h
      · exact Or.inr List.mem_cons_self
    · exact Or.inr (List.mem_cons_of_mem q h)

/-- What is known by default is in the table, or means its inline text. -/
theorem mem_builtin {p : String × Interpreter} (h : p ∈ Registry.builtin) :
    p ∈ Tag.ownInterpreters ∨ p.2 = Tag.simple := by
  rcases mem_foldl_register h with h | h
  · rcases mem_registerAll h with h | ⟨-, h⟩
    · cases h
    · exact Or.inr h
  · exact Or.inl h

/-- A tag means its inline text, or it has an interpreter of the registry. -/
theorem interpreterOf_cases (registry : Registry) (tag : String) :
    (tag, interpreterOf registry tag) ∈ registry ∨ interpreterOf registry tag = Tag.simple := by
  rw [interpreterOf]
  split
  · exact Or.inr rfl
  · cases hget : Keyed.get? registry tag with
    | none => exact Or.inr rfl
    | some i => exact Or.inl (Keyed.mem_of_get? hget)

/-- A tag known by default has an interpreter of its own, or means its inline text. -/
theorem interpreterOf_builtin (tag : String) :
    (tag, interpreterOf .builtin tag) ∈ Tag.ownInterpreters ∨
      interpreterOf .builtin tag = Tag.simple :=
  (interpreterOf_cases .builtin tag).elim mem_builtin Or.inr

/-- The tags that list parameters. -/
def parameterTags : List String := ["param", "property", "prop", "setting"]

/-- A parameter or a style class has the name under which keys are handed out. -/
def NamesBundle (p : String × List Entry) : Prop :=
  (p.1 ∈ parameterTags ∧
    ∃ e ∈ p.2, (Tag.variableOf? e).map (fun v => v.1.name) = some Tag.bundleKey) ∨
  (p.1 = "cssClass" ∧
    ∃ e ∈ p.2, e.inlineText?.map (fun s => Slug.identifier ((columns s).headD "")) =
      some Tag.bundleKey)

/-- The members of parameters and of style classes. -/
def memberKeys : List String :=
  ["name", "type", "description", "optional", "default", "defaultStr", "content"]

theorem exists_param_of_get? {es : List Entry} {params params' : Record}
    (h : es.foldlM Tag.addParam params = .ok params') {key : String} {w : Value}
    (hw : Keyed.get? params' key = some w) :
    Keyed.get? params key = some w ∨
      ∃ e ∈ es, ∃ v fields type, Tag.variableOf? e = some (v, fields) ∧ v.name = key ∧
        w = Tag.paramRecord v type fields[2]? e := by
  induction es generalizing params with
  | nil =>
    obtain rfl : params = params' := by simpa [pure, Except.pure] using h
    exact Or.inl hw
  | cons e es ih =>
    rw [List.foldlM_cons] at h
    cases hstep : Tag.addParam params e with
    | error fault => rw [hstep] at h; cases h
    | ok params₁ =>
      rw [hstep] at h
      rcases ih h with hold | ⟨e', he', hparam⟩
      · -- it was there before `e`, or `e` is the parameter
        unfold Tag.addParam at hstep
        split at hstep
        · cases hstep
          exact Or.inl hold
        · next v fields hv =>
          split at hstep
          · cases hstep
          · next type _ =>
            cases hstep
            rw [Keyed.get?_insert] at hold
            split at hold
            · next hkey =>
              exact Or.inr ⟨e, List.mem_cons_self, v, fields, type, hv, hkey.symm,
                (Option.some.inj hold).symm⟩
            · exact Or.inl hold
      · exact Or.inr ⟨e', List.mem_cons_of_mem e he', hparam⟩

theorem exists_styleClass_of_get? {es : List Entry} {ctx : Context} {classes : Record}
    (h : Tag.cssClass ctx es = .ok (some (.record classes))) {key : String} {w : Value}
    (hw : Keyed.get? classes key = some w) :
    ∃ e ∈ es, ∃ s, e.inlineText? = some s ∧ Slug.identifier ((columns s).headD "") = key ∧
      w = Tag.styleClass ((columns s).headD "") (columns s)[1]? e := by
  obtain rfl := Value.record.inj (Option.some.inj (Except.ok.inj h))
  refine (Keyed.exists_of_get?_foldl ?_ hw).resolve_left (by simp [Keyed.get?])
  intro m e he
  split at he
  · exact Or.inl he
  · next s hs =>
    rw [Keyed.get?_insert] at he
    split at he
    · next hkey => exact Or.inr ⟨s, hs, hkey.symm, (Option.some.inj he).symm⟩
    · exact Or.inl he

/-- The interpreter never hands out several keys. -/
def HandsOutOne (i : Interpreter) : Prop :=
  ∀ ctx es v, i ctx es = .ok (some v) → v.get? Tag.bundleKey = none

theorem get?_entryValue (e : Entry) (key : String) : (Tag.entryValue e).get? key = none := by
  unfold Tag.entryValue
  split
  · split <;> rfl
  · rfl

/-- What is said of the first entry of a tag. -/
theorem handsOutOne_of_head {f : Context → Entry → Value}
    (hf : ∀ ctx e, (f ctx e).get? Tag.bundleKey = none) :
    HandsOutOne fun ctx es => .ok (es.head?.map (f ctx)) := by
  intro ctx es v h
  obtain ⟨e, -, rfl⟩ := Option.map_eq_some_iff.mp (Except.ok.inj h)
  exact hf ctx e

theorem handsOutOne_simple : HandsOutOne Tag.simple :=
  handsOutOne_of_head fun _ e => get?_entryValue e _

theorem handsOutOne_description : HandsOutOne Tag.description :=
  handsOutOne_of_head fun _ _ => rfl

theorem handsOutOne_snippet : HandsOutOne Tag.snippet :=
  handsOutOne_of_head fun _ _ => rfl

theorem handsOutOne_namespace : HandsOutOne Tag.namespace_ := by
  refine handsOutOne_of_head fun ctx e => ?_
  split <;> rfl

theorem handsOutOne_menu : HandsOutOne Tag.menu := by
  refine handsOutOne_of_head fun ctx e => ?_
  split
  · exact get?_entryValue e _
  · rfl

theorem handsOutOne_author : HandsOutOne Tag.author := by
  intro ctx es v h
  obtain ⟨p, -, rfl⟩ := Option.map_eq_some_iff.mp (Except.ok.inj h)
  rcases p with ⟨_ | _, _ | _, _ | _, _⟩ <;> rfl

theorem exists_of_map_eq_ok {ε α β : Type} {f : α → β} {x : Except ε α} {b : β}
    (h : x.map f = .ok b) : ∃ a, x = .ok a ∧ f a = b := by
  cases x with
  | error e => cases h
  | ok a => exact ⟨a, rfl, Except.ok.inj h⟩

theorem handsOutOne_type : HandsOutOne Tag.type_ := by
  intro ctx es v h
  unfold Tag.type_ at h
  split at h
  · cases h
  · obtain ⟨u, -, hu⟩ := exists_of_map_eq_ok h
    rw [← Option.some.inj hu]
    rfl

theorem handsOutOne_return : HandsOutOne Tag.return_ := by
  intro ctx es v h
  unfold Tag.return_ at h
  split at h
  · cases h
  · obtain ⟨u, -, hu⟩ := exists_of_map_eq_ok h
    rw [← Option.some.inj hu]
    rfl

/-- A list has no keys. -/
theorem handsOutOne_of_list {i : Interpreter}
    (h : ∀ ctx es, ∃ items, i ctx es = .ok (some (.list items))) : HandsOutOne i := by
  intro ctx es v hv
  obtain ⟨items, hitems⟩ := h ctx es
  rw [hitems] at hv
  cases hv
  rfl

/-! ### Tags that hand out several keys -/

theorem keys_of_interface {ctx : Context} {es : List Entry} {v : Value} {bundle : Record}
    (h : Tag.interface_ ctx es = .ok (some v))
    (hbundle : v.get? Tag.bundleKey = some (.record bundle)) :
    Keyed.keys bundle = ["interface", "definition"] := by
  unfold Tag.interface_ at h
  split at h
  · cases h
  · split at h
    · cases h
    · cases h
    · obtain ⟨w, hw, heq⟩ := exists_of_map_eq_ok h
      obtain ⟨definition, -, hdef⟩ := exists_of_map_eq_ok hw
      rw [← Option.some.inj heq, ← hdef] at hbundle
      cases hbundle
      rfl

theorem keys_paramRecord {v : Tag.Variable} {type : TypeUnion} {description : Option String}
    {e : Entry} {bundle : Record} (h : Tag.paramRecord v type description e = .record bundle) :
    ∀ key ∈ Keyed.keys bundle, key ∈ memberKeys := by
  obtain rfl := Value.record.inj h
  cases e.content.isEmpty with
  | true => exact List.forall_mem_map.mpr (by simp [memberKeys])
  | false => exact List.forall_mem_map.mpr (by simp [memberKeys])

theorem keys_styleClass {name : String} {description : Option String} {e : Entry}
    {bundle : Record} (h : Tag.styleClass name description e = .record bundle) :
    ∀ key ∈ Keyed.keys bundle, key ∈ memberKeys := by
  obtain rfl := Value.record.inj h
  cases e.content.isEmpty with
  | true => exact List.forall_mem_map.mpr (by simp [memberKeys])
  | false => exact List.forall_mem_map.mpr (by simp [memberKeys])

/-- The members of a parameter or of a style class. -/
inductive IsMembers : Record → Prop
  | param {v : Tag.Variable} {type : TypeUnion} {description : Option String} {e : Entry}
    {bundle : Record} (h : Tag.paramRecord v type description e = .record bundle) :
    IsMembers bundle
  | styleClass {name : String} {description : Option String} {e : Entry} {bundle : Record}
    (h : Tag.styleClass name description e = .record bundle) : IsMembers bundle

theorem IsMembers.mem_memberKeys {bundle : Record} (h : IsMembers bundle) :
    ∀ key ∈ Keyed.keys bundle, key ∈ memberKeys := by
  cases h with
  | param h => exact keys_paramRecord h
  | styleClass h => exact keys_styleClass h

theorem isMembers_of_param {ctx : Context} {es : List Entry} {v : Value} {bundle : Record}
    (h : Tag.param ctx es = .ok (some v))
    (hbundle : v.get? Tag.bundleKey = some (.record bundle)) :
    (∃ e ∈ es, (Tag.variableOf? e).map (fun v => v.1.name) = some Tag.bundleKey) ∧
      IsMembers bundle := by
  obtain ⟨params, hparams, hv⟩ := exists_of_map_eq_ok h
  obtain rfl := Option.some.inj hv
  obtain hnil | ⟨e, he, w, fields, type, hw, hname, hrecord⟩ :=
    exists_param_of_get? hparams hbundle
  · cases hnil
  · exact ⟨⟨e, he, by rw [hw, Option.map_some, hname]⟩, .param hrecord.symm⟩

theorem isMembers_of_cssClass {ctx : Context} {es : List Entry} {v : Value} {bundle : Record}
    (h : Tag.cssClass ctx es = .ok (some v))
    (hbundle : v.get? Tag.bundleKey = some (.record bundle)) :
    (∃ e ∈ es, e.inlineText?.map (fun s => Slug.identifier ((columns s).headD "")) =
        some Tag.bundleKey) ∧ IsMembers bundle := by
  obtain rfl := Option.some.inj (Except.ok.inj h)
  obtain ⟨e, he, s, hs, hname, hrecord⟩ := exists_styleClass_of_get? h hbundle
  exact ⟨⟨e, he, by rw [hs, Option.map_some, hname]⟩, .styleClass hrecord.symm⟩

/-- Most tags hand out one key.  The others are interfaces, parameters and style classes. -/
theorem handsOutOne_or {tag : String} {i : Interpreter} (h : (tag, i) ∈ Tag.ownInterpreters) :
    HandsOutOne i ∨ i = Tag.interface_ ∨ (tag ∈ parameterTags ∧ i = Tag.param) ∨
      tag = "cssClass" ∧ i = Tag.cssClass := by
  have hlist {i : Interpreter} (h : ∀ ctx es, ∃ items, i ctx es = .ok (some (.list items))) :
      HandsOutOne i := handsOutOne_of_list h
  have htable : ∀ q ∈ Tag.ownInterpreters, HandsOutOne q.2 ∨ q.2 = Tag.interface_ ∨
      (q.1 ∈ parameterTags ∧ q.2 = Tag.param) ∨ q.1 = "cssClass" ∧ q.2 = Tag.cssClass := by
    simp only [Tag.ownInterpreters, List.forall_mem_cons]
    exact ⟨.inl handsOutOne_author, .inl (hlist fun _ _ => ⟨_, rfl⟩), .inl handsOutOne_simple,
      .inl (hlist fun _ _ => ⟨_, rfl⟩), .inl handsOutOne_description,
      .inl handsOutOne_description, .inl (hlist fun _ _ => ⟨_, rfl⟩), .inr (.inl trivial),
      .inl handsOutOne_return, .inl handsOutOne_type, .inl (hlist fun _ _ => ⟨_, rfl⟩),
      .inl handsOutOne_namespace, .inl handsOutOne_menu, .inr (.inr (.inr ⟨trivial, trivial⟩)),
      .inl (hlist fun _ _ => ⟨_, rfl⟩), .inl handsOutOne_snippet,
      .inl (hlist fun _ _ => ⟨_, rfl⟩), .inl (hlist fun _ _ => ⟨_, rfl⟩),
      .inl (hlist fun _ _ => ⟨_, rfl⟩), .inr (.inr (.inl ⟨by decide, trivial⟩)),
      .inr (.inr (.inl ⟨by decide, trivial⟩)), .inr (.inr (.inl ⟨by decide, trivial⟩)),
      .inr (.inr (.inl ⟨by decide, trivial⟩)), by simp⟩
  exact htable (tag, i) h

/-- What is handed out in place of the tag's own key.  Only an interface is meant to be. -/
theorem bundle_builtin {ctx : Context} {p : String × List Entry} {v : Value} {bundle : Record}
    (h : interpreterOf .builtin p.1 ctx p.2 = .ok (some v))
    (hbundle : v.get? Tag.bundleKey = some (.record bundle)) :
    Keyed.keys bundle = ["interface", "definition"] ∨ NamesBundle p ∧ IsMembers bundle := by
  have hone : ¬HandsOutOne (interpreterOf .builtin p.1) := by
    intro hone
    rw [hone ctx p.2 v h] at hbundle
    cases hbundle
  rcases interpreterOf_builtin p.1 with hown | hsimple
  · rcases handsOutOne_or hown with hown | hi | ⟨htag, hi⟩ | ⟨htag, hi⟩
    · exact absurd hown hone
    · exact Or.inl (keys_of_interface (hi ▸ h) hbundle)
    · obtain ⟨hnames, hmembers⟩ := isMembers_of_param (hi ▸ h) hbundle
      exact Or.inr ⟨Or.inl ⟨htag, hnames⟩, hmembers⟩
    · obtain ⟨hnames, hmembers⟩ := isMembers_of_cssClass (hi ▸ h) hbundle
      exact Or.inr ⟨Or.inr ⟨htag, hnames⟩, hmembers⟩
  · exact absurd (hsimple ▸ handsOutOne_simple) hone

/-- A tag adds its own key, or those of an interface, or, by the name of a parameter or a style
class, its members. -/
theorem keys_contribution_builtin {ctx : Context} {p : String × List Entry} {key : String}
    (h : key ∈ Keyed.keys (contribution .builtin ctx p)) :
    key = p.1 ∨ key ∈ ["interface", "definition"] ∨ NamesBundle p ∧ key ∈ memberKeys := by
  unfold contribution at h
  split at h
  · next v hv =>
    unfold keysOf at h
    split at h
    · exact Or.inl (List.mem_singleton.mp h)
    · next bundle hbundle =>
      rcases bundle_builtin hv hbundle with hkeys | ⟨hnames, hmembers⟩
      · exact Or.inr (Or.inl (hkeys ▸ h))
      · exact Or.inr (Or.inr ⟨hnames, hmembers.mem_memberKeys key h⟩)
    · exact Or.inl (List.mem_singleton.mp h)
  · cases h

/-- A key that is no member of a bundle holds what its own tag means. -/
theorem get?_ofEntries_builtin {ctx : Context} (hrender : ctx.renderMarkdown = false)
    (raw : String) {es : Entries} (hnodup : es.tags.Nodup) {key : String}
    (hkey : isPrivate key = false) (hinterface : key ∉ ["interface", "definition"])
    (hmember : key ∈ memberKeys → ∀ p ∈ es, ¬NamesBundle p)
    (hone : HandsOutOne (interpreterOf .builtin key)) :
    Keyed.get? (ofEntries .builtin ctx raw es).record key =
      (Keyed.get? es key).bind fun occurrences =>
        match interpreterOf .builtin key ctx occurrences with
        | .ok v => v
        | .error _ => none := by
  rw [get?_ofEntries .builtin raw hrender hnodup hkey]
  · refine congrArg (Option.bind _) (funext fun occurrences => ?_)
    unfold contribution
    split
    · next v hv =>
      rw [hv, keysOf, hone ctx occurrences v hv]
      exact if_pos rfl
    · next hv =>
      split
      · next v hv' =>
        cases v with
        | none => rfl
        | some v => exact absurd hv' (hv v)
      · rfl
  · intro p hp hne hmem
    rcases keys_contribution_builtin hmem with rfl | hmem | ⟨hnames, hmem⟩
    · exact hne rfl
    · exact hinterface hmem
    · exact hmember hmem p hp hnames

end DocComment.Interpretation
