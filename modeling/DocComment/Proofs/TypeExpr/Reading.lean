/-
What reading a type expression does to its brackets.

An expression is read by members: `members` cuts it, the form of a member names the type, and the
parts of the form are expressions again (`unionOf_eq`, `memberOf_eq`).  A member that begins and
ends with a bracket loses both, whether or not the one closes the other:

* `isNested_of_forall_names` — brackets that were torn apart stay so, in some name;
* `forall_isNested_names` — and nothing else tears them apart;
* `names_nested_iff` — so the names are nested exactly if every bracket that is taken off a member
  is closed by the one taken off with it;
* `not_forall_names_nested` — which does not hold of every expression that is accepted.
-/
import DocComment.Proofs.TypeExpr.Brackets

namespace DocComment.TypeExpr

/-! ### Members and parts -/

/-- The members of an expression. -/
def members (t : Text) : List Text :=
  ((splitTop '|' t).filter fun p => !Text.isBlank p).map Text.trim

namespace Form

/-- The name of the type that a member of this form denotes. -/
def name : Form → Text → Text
  | .plain, t => t
  | .array _, _ => "Array".toList
  | .group _, _ => "Union".toList
  | .applied name _, _ => name

/-- The expressions inside the brackets of a form. -/
def parts : Form → List Text
  | .plain => []
  | .array t | .group t => [t]
  | .applied _ t => (splitTop ',' t).map Text.trim

theorem forall_parts_isNested_iff (f : Form) :
    (∀ p ∈ f.parts, IsNested p) ↔ IsNested f.inner := by
  cases f with
  | plain => simp [parts, inner, IsNested.nil]
  | array t => simp [parts, inner]
  | group t => simp [parts, inner]
  | applied name t =>
    simp only [parts, inner, List.forall_mem_map, isNested_trim_iff]
    exact ⟨isNested_of_forall_splitTop rfl rfl, fun h => isNested_of_mem_splitTop h ','⟩

theorem length_le_of_mem_parts {f : Form} {p : Text} (h : p ∈ f.parts) :
    p.length ≤ f.inner.length := by
  cases f with
  | plain => cases h
  | array t => exact Nat.le_of_eq (congrArg List.length (List.mem_singleton.mp h))
  | group t => exact Nat.le_of_eq (congrArg List.length (List.mem_singleton.mp h))
  | applied name t =>
    obtain ⟨q, hq, rfl⟩ := List.mem_map.mp h
    exact length_trim_le_of_mem_splitTop hq

end Form

theorem unionOf_eq (t : Text) : unionOf t = (members t).map memberOf := by
  -- what a part is read as, without the proof that it is a part
  let read (p : Text) : List TypeExpr :=
    if Text.isBlank p then [] else [memberOf (Text.trim p)]
  rw [unionOf, List.flatMap_subtype (g := read) fun p _ => rfl, List.unattach_attach, members,
    List.map_map]
  induction splitTop '|' t with
  | nil => rfl
  | cons p ps ih => by_cases hp : Text.isBlank p = true <;> simp [read, hp, ih]

theorem memberOf_eq (m : Text) :
    memberOf m = mk (String.ofList ((formOf m).name m)) ((formOf m).parts.flatMap unionOf) := by
  rw [memberOf]
  split
  · next h => simp [h, Form.name, Form.parts]
  · next h => simp [h, Form.name, Form.parts]
  · next h => simp [h, Form.name, Form.parts]
  · next h => simp [h, Form.name, Form.parts, List.flatMap_map]

theorem length_le_of_mem_members {m t : Text} (h : m ∈ members t) : m.length ≤ t.length := by
  obtain ⟨p, hp, rfl⟩ := List.mem_map.mp h
  exact length_trim_le_of_mem_splitTop (List.mem_filter.mp hp).1

theorem length_lt_of_mem_parts {p m : Text} (h : p ∈ (formOf m).parts) : p.length < m.length := by
  rcases length_inner_formOf m with hplain | hlt
  · rw [hplain] at h
    cases h
  · exact Nat.lt_of_le_of_lt (Form.length_le_of_mem_parts h) hlt

theorem isNested_of_mem_members {t : Text} (ht : IsNested t) {m : Text} (h : m ∈ members t) :
    IsNested m := by
  obtain ⟨p, hp, rfl⟩ := List.mem_map.mp h
  exact isNested_trim_iff.mpr (isNested_of_mem_splitTop ht '|' p (List.mem_filter.mp hp).1)

theorem isNested_of_forall_members {t : Text} (h : ∀ m ∈ members t, IsNested m) : IsNested t := by
  refine isNested_of_forall_splitTop (show isOpening '|' = false from rfl) rfl fun p hp => ?_
  by_cases hblank : Text.isBlank p = true
  · exact isNested_of_isBlank hblank
  · have hkept : p ∈ (splitTop '|' t).filter fun p => !Text.isBlank p :=
      List.mem_filter.mpr ⟨hp, by simpa using hblank⟩
    exact isNested_trim_iff.mp (h _ (List.mem_map_of_mem hkept))

/-- How the text of a member of a form is put together. -/
inductive Form.IsWritten : Form → Text → Prop where
  | plain (m : Text) : IsWritten .plain m
  | array (t : Text) : IsWritten (.array t) (t ++ ['[', ']'])
  | group (t : Text) : IsWritten (.group t) ('(' :: (t ++ [')']))
  | applied (u t : Text) : IsWritten (.applied (Text.trim u) t) (u ++ '<' :: (t ++ ['>']))

theorem isWritten_formOf (m : Text) : (formOf m).IsWritten m := by
  unfold formOf
  split
  · next t ht =>
    rw [Text.before?_eq_some_iff.mp ht]
    exact .array t
  · split
    · next t ht =>
      rw [between?_eq_some_iff.mp ht]
      exact .group t
    · split
      · exact .plain m
      · next u rest hcut =>
        obtain ⟨c, hc, hm⟩ := Text.cutAt?_eq_some hcut
        rw [beq_iff_eq] at hc
        split
        · next t ht =>
          rw [hm, hc, Text.before?_eq_some_iff.mp ht]
          exact .applied u t
        · exact .plain m

/-- Where the brackets around the parts match, a member is as nested as its name. -/
theorem isNested_name_iff {m : Text} (hinner : IsNested (formOf m).inner) :
    IsNested ((formOf m).name m) ↔ IsNested m := by
  have hm := isWritten_formOf m
  revert hm hinner
  generalize formOf m = f
  intro hinner hm
  cases hm with
  | plain => exact Iff.rfl
  | array t =>
    have hbrackets : IsNested ['[', ']'] := by decide
    exact iff_of_true (show IsNested "Array".toList by decide) (hinner.append hbrackets)
  | group t =>
    have hm : IsNested ('(' :: (t ++ [')'])) := IsNested.bracketed hinner (c := ')') rfl
    exact iff_of_true (show IsNested "Union".toList by decide) hm
  | applied u t =>
    have hbrackets : IsNested ('<' :: (t ++ ['>'])) := IsNested.bracketed hinner (c := '>') rfl
    rw [Form.name, isNested_trim_iff, isNested_append_iff hbrackets]

/-! ### Names -/

mutual

/-- The names in a type, its own first. -/
def names : TypeExpr → List String
  | mk name of => name :: namesIn of

def namesIn : List TypeExpr → List String
  | [] => []
  | t :: ts => names t ++ namesIn ts

end

theorem mem_namesIn {n : String} {ts : List TypeExpr} :
    n ∈ namesIn ts ↔ ∃ t ∈ ts, n ∈ names t := by
  induction ts with
  | nil => simp [namesIn]
  | cons t ts ih => simp [namesIn, ih]

theorem mem_names_unionOf {n : String} {t : Text} :
    n ∈ namesIn (unionOf t) ↔ ∃ m ∈ members t, n ∈ names (memberOf m) := by
  rw [mem_namesIn, unionOf_eq]
  constructor
  · rintro ⟨t, ht, hn⟩
    obtain ⟨m, hm, rfl⟩ := List.mem_map.mp ht
    exact ⟨m, hm, hn⟩
  · rintro ⟨m, hm, hn⟩
    exact ⟨memberOf m, List.mem_map_of_mem hm, hn⟩

theorem mem_names_memberOf {n : String} {m : Text} :
    n ∈ names (memberOf m) ↔
      n = String.ofList ((formOf m).name m) ∨
        ∃ p ∈ (formOf m).parts, n ∈ namesIn (unionOf p) := by
  rw [memberOf_eq, names, List.mem_cons, mem_namesIn]
  refine or_congr_right ⟨?_, ?_⟩
  · rintro ⟨t, ht, hn⟩
    obtain ⟨p, hp, ht⟩ := List.mem_flatMap.mp ht
    exact ⟨p, hp, mem_namesIn.mpr ⟨t, ht, hn⟩⟩
  · rintro ⟨p, hp, hn⟩
    obtain ⟨t, ht, hn⟩ := mem_namesIn.mp hn
    exact ⟨t, List.mem_flatMap.mpr ⟨p, hp, ht⟩, hn⟩

/-! ### Brackets that match -/

/-- The brackets that are taken off a member, if any are, match each other: what stands between them
is nested. -/
def IsMatched (m : Text) : Prop := IsNested (formOf m).inner

/-- The members that reading an expression comes to, at any depth. -/
inductive Reaches : Text → Text → Prop where
  | member {t m : Text} (h : m ∈ members t) : Reaches t m
  | inside {t m p k : Text} (h : m ∈ members t) (hp : p ∈ (formOf m).parts) (hk : Reaches p k) :
      Reaches t k

/-- An expression is nested if all the names in it are: what was torn apart is never mended. -/
theorem isNested_of_forall_names (t : Text)
    (h : ∀ n ∈ namesIn (unionOf t), IsNested n.toList) : IsNested t := by
  refine isNested_of_forall_members fun m hm => ?_
  -- the induction is on the length: the parts of a member are shorter than the member
  have hnames : ∀ n ∈ names (memberOf m), IsNested n.toList :=
    fun n hn => h n (mem_names_unionOf.mpr ⟨m, hm, hn⟩)
  have hparts : ∀ p ∈ (formOf m).parts, IsNested p := fun p hp =>
    have : p.length < t.length :=
      Nat.lt_of_lt_of_le (length_lt_of_mem_parts hp) (length_le_of_mem_members hm)
    isNested_of_forall_names p fun n hn => hnames n (mem_names_memberOf.mpr (.inr ⟨p, hp, hn⟩))
  have hname : IsNested ((formOf m).name m) := by
    have hown := hnames _ (mem_names_memberOf.mpr (.inl rfl))
    rwa [String.toList_ofList] at hown
  exact (isNested_name_iff ((Form.forall_parts_isNested_iff _).mp hparts)).mp hname
termination_by t.length

theorem isMatched_of_reaches {t m : Text} (hm : Reaches t m)
    (h : ∀ n ∈ namesIn (unionOf t), IsNested n.toList) : IsMatched m := by
  have hparts {t m : Text} (hm : m ∈ members t)
      (h : ∀ n ∈ namesIn (unionOf t), IsNested n.toList) :
      ∀ p ∈ (formOf m).parts, ∀ n ∈ namesIn (unionOf p), IsNested n.toList := fun p hp n hn =>
    h n (mem_names_unionOf.mpr ⟨m, hm, mem_names_memberOf.mpr (.inr ⟨p, hp, hn⟩)⟩)
  induction hm with
  | member hm =>
    -- a part whose names are nested is nested itself
    exact (Form.forall_parts_isNested_iff _).mp fun p hp =>
      isNested_of_forall_names p (hparts hm h p hp)
  | inside hm hp hk ih => exact ih (hparts hm h _ hp)

/-- As long as the brackets match, names keep what they are made of whole. -/
theorem forall_isNested_names (t : Text) (ht : IsNested t) (h : ∀ m, Reaches t m → IsMatched m) :
    ∀ n ∈ namesIn (unionOf t), IsNested n.toList := by
  intro n hn
  obtain ⟨m, hm, hn⟩ := mem_names_unionOf.mp hn
  have hinner : IsNested (formOf m).inner := h m (.member hm)
  rcases mem_names_memberOf.mp hn with rfl | ⟨p, hp, hn⟩
  · rw [String.toList_ofList]
    exact (isNested_name_iff hinner).mpr (isNested_of_mem_members ht hm)
  · have : p.length < t.length :=
      Nat.lt_of_lt_of_le (length_lt_of_mem_parts hp) (length_le_of_mem_members hm)
    exact forall_isNested_names p ((Form.forall_parts_isNested_iff _).mpr hinner p hp)
      (fun k hk => h k (.inside hm hp hk)) n hn
termination_by t.length

theorem exists_of_parse_eq_ok {s : String} {u : TypeUnion} (h : TypeUnion.parse s = .ok u) :
    ∃ t, IsNested t ∧ u = ⟨String.ofList t, unionOf t⟩ := by
  rw [TypeUnion.parse] at h
  split at h
  · next hnested => exact ⟨_, isBalanced_iff.mp hnested, (Except.ok.inj h).symm⟩
  · cases h

/-- **Names are nested exactly where brackets are taken off in pairs.**  Of an expression that is
accepted, every name at any depth has properly nested brackets if and only if, at every member that
reading it comes to, the brackets that are taken off match each other. -/
theorem names_nested_iff {s : String} {u : TypeUnion} (h : TypeUnion.parse s = .ok u) :
    (∀ n ∈ namesIn u.types, IsNested n.toList) ↔ ∀ m, Reaches u.raw.toList m → IsMatched m := by
  obtain ⟨t, ht, rfl⟩ := exists_of_parse_eq_ok h
  rw [String.toList_ofList]
  exact ⟨fun hnames m hm => isMatched_of_reaches hm hnames, forall_isNested_names t ht⟩

theorem names_nested_iff_sample :
    ∃ u, TypeUnion.parse "Map<K, (A|B)[]>|\x7ba: (c)\x7d" = .ok u ∧
      namesIn u.types = ["Map", "K", "Array", "Union", "A", "B", "\x7ba: (c)\x7d"] ∧
      ∀ m, Reaches u.raw.toList m → IsMatched m := by
  have hparse : TypeUnion.parse "Map<K, (A|B)[]>|\x7ba: (c)\x7d" =
      .ok ⟨"Map<K, (A|B)[]>|\x7ba: (c)\x7d",
        [mk "Map" [mk "K" [], mk "Array" [mk "Union" [mk "A" [], mk "B" []]]],
          mk "\x7ba: (c)\x7d" []]⟩ := by cbv
  exact ⟨_, hparse, rfl, (names_nested_iff hparse).mp (by decide)⟩

/-- In `(A|B)&(C|D)` the first and the last bracket are taken off, and neither closes the other. -/
theorem not_forall_names_nested :
    ¬∀ (s : String) (u : TypeUnion), TypeUnion.parse s = .ok u →
      ∀ n ∈ namesIn u.types, IsNested n.toList := by
  intro h
  have hparse : TypeUnion.parse "(A|B)&(C|D)" =
      .ok ⟨"(A|B)&(C|D)", [mk "Union" [mk "A" [], mk "B)&(C|D" []]]⟩ := by cbv
  exact absurd (h _ _ hparse "B)&(C|D" (by decide)) (by decide)

end DocComment.TypeExpr
