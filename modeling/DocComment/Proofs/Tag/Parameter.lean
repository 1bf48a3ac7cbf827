/-
The parameters that a comment documents.

An entry names a parameter if its text has two columns and the second one spells a variable with a
name (`Names`).  Entries that name none are passed over, so the run is one over the parameters that
are named (`foldlM_addParam`), and each of them adds a pair of its name and its record:

* `Variable.isSpelled_iff`, `parameterOf?_eq_some_iff` — how a variable is spelled, and which entries
  name a parameter;
* `param_eq_error_iff` — the fault is that of the first parameter whose type cannot be read;
* `foldlM_addNamed` — if all types can be read, the run inserts the pairs in sequence;
* `param_keeps_named` — every name once, in the order of first mention, with its last record.
-/
import DocComment.Proofs.Configuration
import DocComment.Proofs.Keyed
import DocComment.Proofs.Text.Cut
import DocComment.Proofs.TypeExpr.Brackets
import DocComment.Tag.Typed

namespace DocComment.Tag

open Text

/-! ### Variables -/

/-- How a variable is spelled: by its name alone, or in square brackets, with a default behind the
first equals sign or without. -/
inductive Variable.IsSpelled : String → Variable → Prop where
  | bare {s : String} (h : ∀ inner, s.toList ≠ '[' :: (inner ++ [']'])) :
      IsSpelled s ⟨s, false, none⟩
  | optional {s : String} {inner : Text} (h : s.toList = '[' :: (inner ++ [']']))
      (hequals : '=' ∉ inner) : IsSpelled s ⟨String.ofList (trim inner), true, none⟩
  | default {s : String} {name default : Text}
      (h : s.toList = '[' :: (name ++ '=' :: default ++ [']'])) (hequals : '=' ∉ name) :
      IsSpelled s ⟨String.ofList (trim name), true, some (String.ofList (trim default))⟩

theorem cutAt?_equals_eq_none_iff {t : Text} : cutAt? (· == '=') t = none ↔ '=' ∉ t := by
  rw [cutAt?_eq_none_iff]
  exact ⟨fun h hmem => absurd (h _ hmem) (by decide),
    fun h c hc => beq_eq_false_iff_ne.mpr fun heq => h (heq ▸ hc)⟩

theorem cutAt?_equals_eq_some_iff {t a b : Text} :
    cutAt? (· == '=') t = some (a, b) ↔ '=' ∉ a ∧ t = a ++ '=' :: b := by
  rw [cutAt?_eq_some_iff, ← cutAt?_eq_none_iff, cutAt?_equals_eq_none_iff]
  simp

theorem Variable.isSpelled_iff {s : String} {v : Variable} :
    IsSpelled s v ↔ Variable.parse s = v := by
  constructor
  · rintro (h | ⟨h, hequals⟩ | ⟨h, hequals⟩)
    · have hnone : TypeExpr.between? '[' ']' s.toList = none :=
        Option.eq_none_iff_forall_ne_some.mpr fun inner hinner =>
          h inner (TypeExpr.between?_eq_some_iff.mp hinner)
      rw [Variable.parse, hnone]
    · rw [Variable.parse, TypeExpr.between?_eq_some_iff.mpr h]
      simp only [cutAt?_equals_eq_none_iff.mpr hequals]
    · rw [Variable.parse, TypeExpr.between?_eq_some_iff.mpr h]
      simp only [cutAt?_equals_eq_some_iff.mpr ⟨hequals, rfl⟩]
  · rintro rfl
    unfold Variable.parse
    split
    · next hnone =>
      refine .bare fun inner hinner => ?_
      rw [TypeExpr.between?_eq_some_iff.mpr hinner] at hnone
      cases hnone
    · next inner hinner =>
      have hs := TypeExpr.between?_eq_some_iff.mp hinner
      split
      · next name default hcut =>
        obtain ⟨hequals, rfl⟩ := cutAt?_equals_eq_some_iff.mp hcut
        exact .default hs hequals
      · next hcut => exact .optional hs (cutAt?_equals_eq_none_iff.mp hcut)

/-! ### Named parameters -/

/-- What an entry says about the parameter that it names. -/
structure Parameter where
  entry : Entry
  /-- The first column. -/
  typeText : String
  var : Variable
  /-- The third column. -/
  description : Option String

namespace Parameter

def name (p : Parameter) : String := p.var.name

/-- The type can be read from the first column, put in braces unless it is. -/
def HasType (p : Parameter) (type : TypeUnion) : Prop :=
  TypeUnion.parse (TypeUnion.braced p.typeText) = .ok type

/-- The record has what the entry says, and no other keys. -/
structure IsRecord (p : Parameter) (type : TypeUnion) (r : Record) : Prop where
  keys : Keyed.keys r = ["name", "type", "description", "optional", "default", "defaultStr"] ++
    if p.entry.content = [] then [] else ["content"]
  name : Keyed.get? r "name" = some (.text p.name)
  type : Keyed.get? r "type" = some type.toValue
  description : Keyed.get? r "description" = some (p.description.elim .null .text)
  optional : Keyed.get? r "optional" = some (.bool p.var.optional)
  defaultStr : Keyed.get? r "defaultStr" = some (.text (p.var.default.getD ""))
  default : Keyed.get? r "default" =
    some (p.var.default.elim .null fun s => (Literal.parse? s).getD (.text s))
  content : Keyed.get? r "content" =
    if p.entry.content = [] then none else some (.text (joinContent p.entry.content))

end Parameter

/-- The entry names the parameter: its text has two columns at least, and the second one spells a
variable that has a name. -/
inductive Names (e : Entry) : Parameter → Prop where
  | mk {text type spec : String} {rest : List String} {v : Variable}
      (htext : e.inline = some text) (hcolumns : columns text = type :: spec :: rest)
      (hspec : v.IsSpelled spec) (hname : v.name ≠ "") : Names e ⟨e, type, v, rest.head?⟩

/-- The parameter that an entry names. -/
def parameterOf? (e : Entry) : Option Parameter :=
  (variableOf? e).map fun (v, fields) => ⟨e, fields.headD "", v, fields[2]?⟩

theorem columns_ofList_trim (s : String) : columns (String.ofList (trim s.toList)) = columns s := by
  rw [columns, columns, String.toList_ofList, columnsOf, trim_trim, columnsOf]

theorem inlineText?_eq_some_iff {e : Entry} {s : String} :
    e.inlineText? = some s ↔ ∃ text, e.inline = some text ∧ trim text.toList ≠ [] ∧
      String.ofList (trim text.toList) = s := by
  rw [Entry.inlineText?]
  refine Option.bind_eq_some_iff.trans (exists_congr fun text => and_congr_right fun _ => ?_)
  by_cases h : trim text.toList = [] <;> simp [h]

/-- The inline text counts as it is: a blank one has no second column. -/
theorem variableOf?_eq_some_iff {e : Entry} {v : Variable} {fields : List String} :
    variableOf? e = some (v, fields) ↔
      ∃ text spec, e.inline = some text ∧ columns text = fields ∧ fields[1]? = some spec ∧
        Variable.parse spec = v ∧ v.name ≠ "" := by
  constructor
  · intro h
    obtain ⟨s, hs, h⟩ := Option.bind_eq_some_iff.mp h
    obtain ⟨spec, hspec, h⟩ := Option.bind_eq_some_iff.mp h
    obtain ⟨text, htext, -, rfl⟩ := inlineText?_eq_some_iff.mp hs
    dsimp only at h
    split at h
    · cases h
    · next hname =>
      obtain ⟨rfl, rfl⟩ := Prod.mk.inj (Option.some.inj h)
      rw [columns_ofList_trim] at hspec ⊢
      have hempty : (Variable.parse spec).name ≠ "" := fun h => hname (String.isEmpty_iff.mpr h)
      exact ⟨text, spec, htext, rfl, hspec, rfl, hempty⟩
  · rintro ⟨text, spec, htext, rfl, hspec, rfl, hname⟩
    have hblank : trim text.toList ≠ [] := by
      -- a blank text is one empty column
      intro hnil
      rw [columns, columnsOf, hnil] at hspec
      unfold columnsFrom at hspec
      cases hspec
    have hinline := inlineText?_eq_some_iff.mpr ⟨text, htext, hblank, rfl⟩
    refine Option.bind_eq_some_iff.mpr ⟨_, hinline, ?_⟩
    rw [columns_ofList_trim]
    refine Option.bind_eq_some_iff.mpr ⟨spec, hspec, ?_⟩
    exact if_neg fun h => hname (String.isEmpty_iff.mp h)

theorem parameterOf?_eq_some_iff {e : Entry} {p : Parameter} :
    parameterOf? e = some p ↔ Names e p := by
  rw [parameterOf?, Option.map_eq_some_iff]
  constructor
  · rintro ⟨⟨v, fields⟩, hv, rfl⟩
    obtain ⟨text, spec, htext, hcolumns, hspec, hparse, hname⟩ := variableOf?_eq_some_iff.mp hv
    match fields, hspec with
    | type :: _ :: rest, rfl =>
      have hdescription : (type :: spec :: rest)[2]? = rest.head? := by
        simp [List.head?_eq_getElem?]
      simp only [hdescription]
      exact .mk htext hcolumns (Variable.isSpelled_iff.mpr hparse) hname
  · rintro ⟨htext, hcolumns, hspec, hname⟩
    refine ⟨_, variableOf?_eq_some_iff.mpr
      ⟨_, _, htext, hcolumns, rfl, Variable.isSpelled_iff.mp hspec, hname⟩, ?_⟩
    simp [List.head?_eq_getElem?]

/-! ### The run -/

/-- Adds a named parameter. -/
def addNamed (params : Record) (p : Parameter) : Except Fault Record :=
  ((typeOf p.typeText).mapError (.parameterType p.name)).map fun type =>
    params.insert p.name (paramRecord p.var type p.description p.entry)

theorem addParam_eq (params : Record) (e : Entry) :
    addParam params e = (parameterOf? e).elim (.ok params) (addNamed params) := by
  rw [addParam, parameterOf?]
  cases variableOf? e with
  | none => rfl
  | some p =>
    rw [Option.map_some, Option.elim_some, addNamed]
    dsimp only
    cases typeOf (p.2.headD "") with
    | error fault => rfl
    | ok type => rfl

theorem ok_bind {α β : Type} (a : α) (f : α → Except Fault β) : (Except.ok a >>= f) = f a :=
  rfl

/-- Entries that name no parameter are passed over. -/
theorem foldlM_addParam (es : List Entry) (params : Record) :
    es.foldlM addParam params = (es.filterMap parameterOf?).foldlM addNamed params := by
  induction es generalizing params with
  | nil => rw [List.filterMap_nil, List.foldlM_nil, List.foldlM_nil]
  | cons e es ih =>
    rw [List.foldlM_cons, addParam_eq]
    cases hp : parameterOf? e with
    | none => rw [List.filterMap_cons_none hp, ← ih, Option.elim_none, ok_bind]
    | some p =>
      rw [List.filterMap_cons_some hp, List.foldlM_cons, Option.elim_some]
      exact bind_congr ih

theorem param_eq (ctx : Context) (es : List Entry) :
    param ctx es =
      ((es.filterMap parameterOf?).foldlM addNamed []).map fun params => some (.record params) := by
  rw [param, foldlM_addParam]

/-! ### Types that cannot be read -/

/-- The type of the parameter cannot be read, and the fault names the parameter. -/
def Parameter.Refuses (p : Parameter) (fault : Fault) : Prop :=
  ∃ expr, TypeUnion.parse (TypeUnion.braced p.typeText) = .error expr ∧
    fault = .parameterType p.name (.unbalancedType expr)

theorem addNamed_of_hasType {p : Parameter} {type : TypeUnion} (h : p.HasType type)
    (params : Record) :
    addNamed params p =
      .ok (params.insert p.name (paramRecord p.var type p.description p.entry)) := by
  rw [addNamed, typeOf, h, Except.mapError, Except.mapError, Except.map]

theorem addNamed_of_error {p : Parameter} {expr : String}
    (h : TypeUnion.parse (TypeUnion.braced p.typeText) = .error expr) (params : Record) :
    addNamed params p = .error (.parameterType p.name (.unbalancedType expr)) := by
  rw [addNamed, typeOf, h, Except.mapError, Except.mapError, Except.map]

theorem addNamed_eq_error_iff (params : Record) (p : Parameter) (fault : Fault) :
    addNamed params p = .error fault ↔ p.Refuses fault := by
  cases htype : TypeUnion.parse (TypeUnion.braced p.typeText) with
  | error expr => simp [addNamed_of_error htype, Parameter.Refuses, htype, eq_comm]
  | ok type => simp [addNamed_of_hasType htype, Parameter.Refuses, htype]

theorem param_eq_error_iff {ctx : Context} {es : List Entry} {fault : Fault} :
    param ctx es = .error fault ↔
      ∃ before p, FirstRefused (fun _ => Parameter.Refuses) (es.filterMap parameterOf?) before p
        fault := by
  rw [← foldlM_eq_error_iff_firstRefused fun _ params p fault _ =>
    addNamed_eq_error_iff params p fault, param_eq]
  cases (es.filterMap parameterOf?).foldlM addNamed [] <;> simp [Except.map]

/-- The reading fails exactly if a type cannot be read. -/
theorem exists_param_eq_error_iff {ctx : Context} {es : List Entry} :
    (∃ fault, param ctx es = .error fault) ↔
      ∃ p ∈ es.filterMap parameterOf?, ∃ expr,
        TypeUnion.parse (TypeUnion.braced p.typeText) = .error expr := by
  constructor
  · rintro ⟨fault, h⟩
    obtain ⟨before, p, ⟨after, hsplit⟩, -, expr, htype, -⟩ := param_eq_error_iff.mp h
    exact ⟨p, by simp [hsplit], expr, htype⟩
  · rintro ⟨p, hp, expr, htype⟩
    obtain ⟨before, after, hsplit⟩ := List.append_of_mem hp
    rw [param_eq]
    cases hresult : (es.filterMap parameterOf?).foldlM addNamed [] with
    | error fault => exact ⟨fault, rfl⟩
    | ok params =>
      -- a run that gets through has refused none, and it came past `p`
      have haccepted := (exists_foldlM_eq_ok_iff fun _ params p fault _ =>
        addNamed_eq_error_iff params p fault).mp ⟨params, hresult⟩ before p after hsplit
      exact absurd ⟨expr, htype, rfl⟩ (haccepted _)

/-! ### Types that can -/

/-- What a parameter of a readable type adds. -/
def Parameter.pair (types : Parameter → TypeUnion) (p : Parameter) : String × Value :=
  (p.name, paramRecord p.var (types p) p.description p.entry)

theorem foldlM_addNamed {types : Parameter → TypeUnion} {ps : List Parameter}
    (h : ∀ p ∈ ps, p.HasType (types p)) (params : Record) :
    ps.foldlM addNamed params =
      .ok ((ps.map (Parameter.pair types)).foldl (fun m pair => m.insert pair.1 pair.2) params) := by
  induction ps generalizing params with
  | nil => rfl
  | cons p ps ih =>
    rw [List.forall_mem_cons] at h
    rw [List.foldlM_cons, addNamed_of_hasType h.1, ok_bind, ih h.2]
    rfl

theorem exists_isRecord (p : Parameter) (type : TypeUnion) :
    ∃ r, paramRecord p.var type p.description p.entry = .record r ∧ p.IsRecord type r := by
  refine ⟨_, rfl, ?_⟩
  have hdescription : Value.ofText? p.description = p.description.elim .null .text := by
    cases p.description <;> rfl
  have hdefault : p.var.defaultValue =
      p.var.default.elim .null fun s => (Literal.parse? s).getD (.text s) := by
    rw [Variable.defaultValue]
    cases p.var.default <;> rfl
  rw [hdescription, hdefault]
  cases hcontent : p.entry.content with
  | nil => constructor <;> simp [Keyed.keys, Keyed.get?, hcontent, Parameter.name]
  | cons l ls =>
    constructor <;> simp [Keyed.keys, Keyed.get?, hcontent, Parameter.name, Entry.joined]

/-- **Every named parameter is kept.**  The reading fails exactly if the type of a parameter cannot
be read.  Otherwise the names come in the order of first mention, each once, and what the last
entry with a name says about it is the record there. -/
theorem param_keeps_named (ctx : Context) (es : List Entry) :
    (∀ e p, parameterOf? e = some p ↔ Names e p) ∧
      let named := es.filterMap parameterOf?
      ((∃ fault, param ctx es = .error fault) ↔
        ∃ p ∈ named, ∃ expr, TypeUnion.parse (TypeUnion.braced p.typeText) = .error expr) ∧
      ((∀ p ∈ named, ∃ type, p.HasType type) →
        ∃ params, param ctx es = .ok (some (.record params)) ∧
          Keyed.keys params = (named.map Parameter.name).eraseDups ∧
          ∀ before p after, named = before ++ p :: after → p.name ∉ after.map Parameter.name →
            ∃ type r, p.HasType type ∧ Keyed.get? params p.name = some (.record r) ∧
              p.IsRecord type r) := by
  refine ⟨fun e p => parameterOf?_eq_some_iff, ?_⟩
  intro named
  refine ⟨exists_param_eq_error_iff, ?_⟩
  intro htypes
  choose! types htypes using htypes
  refine ⟨Keyed.ofList (named.map (Parameter.pair types)), ?_, ?_, ?_⟩
  · rw [param_eq, foldlM_addNamed htypes, Except.map, Keyed.ofList]
  · rw [Keyed.keys_ofList, List.map_map]
    rfl
  · intro before p after hnamed hlast
    obtain ⟨r, hr, hrecord⟩ := exists_isRecord p (types p)
    refine ⟨types p, r, htypes p (by simp [hnamed]), ?_, hrecord⟩
    rw [hnamed, List.map_append, List.map_cons, ← hr]
    exact Keyed.get?_ofList_append_cons (by rwa [List.map_map]) _ _

end DocComment.Tag
