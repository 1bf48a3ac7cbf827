/-
What aliases stand for.

An alias is a tag with the interpreter of another one, its target, as the settings list them.  The
aliases are added one after the other, and each sees those before it.  So the interpreter that an
alias gets is the one that the registry had for the target (`IsExtension`) only as long as no alias
before it has given the target another one.

* `get?_withAliases` — what a tag means behind the aliases, by following them back (`resolve`);
* `resolvesAtOnce_iff` — when every alias means what its target meant before, whatever the registry;
* `withAliases_resolve` — both, and for which aliases their order is of no account.
-/
import DocComment.Proofs.Configuration
import DocComment.Tag.Builtin

namespace DocComment.Registry

/-! ### Following aliases -/

/-- The tag whose interpreter a tag gets from aliases, from the last one back to the first. -/
def resolve : Keyed String → String → String
  | [], t => t
  | (tag, target) :: aliases, t =>
    if resolve aliases t = tag then target else resolve aliases t

theorem resolve_append (pre post : Keyed String) (t : String) :
    resolve (pre ++ post) t = resolve pre (resolve post t) := by
  induction pre with
  | nil => rfl
  | cons p pre ih => rw [List.cons_append, resolve, resolve, ih]

/-- A tag stays itself if no alias makes anything else of it. -/
theorem resolve_eq_self {aliases : Keyed String} {t : String}
    (h : ∀ p ∈ aliases, p.1 = t → p.2 = t) : resolve aliases t = t := by
  induction aliases with
  | nil => rfl
  | cons p aliases ih =>
    rw [resolve, ih fun q hq => h q (List.mem_cons_of_mem p hq)]
    split
    · next ht => exact h p List.mem_cons_self ht.symm
    · rfl

theorem resolve_of_notMem {aliases : Keyed String} {t : String} (h : t ∉ Keyed.keys aliases) :
    resolve aliases t = t :=
  resolve_eq_self fun p hp hpt => absurd (List.mem_map.mpr ⟨p, hp, hpt⟩) h

/-- An alias stands for what its target stood for at its turn. -/
theorem resolve_split {pre post : Keyed String} {p : String × String}
    (h : (Keyed.keys (pre ++ p :: post)).Nodup) :
    resolve (pre ++ p :: post) p.1 = resolve pre p.2 := by
  have hpost : p.1 ∉ Keyed.keys post := by
    rw [Keyed.keys_append, List.nodup_append] at h
    exact (List.nodup_cons.mp h.2.1).1
  rw [resolve_append, resolve, resolve_of_notMem hpost, if_pos rfl]

theorem get?_withAliases {r r' : Registry} {aliases : Keyed String}
    (h : r.withAliases aliases = .ok r') (t : String) :
    Keyed.get? r' t = Keyed.get? r (resolve aliases t) := by
  induction aliases generalizing r with
  | nil =>
    cases h
    rfl
  | cons p aliases ih =>
    obtain ⟨i, hi, h⟩ := withAliases_cons_eq_ok_iff.mp h
    rw [ih h, get?_register, resolve]
    split
    · exact hi.symm
    · rfl

/-! ### Aliases that are resolved at once -/

/-- Every target has an interpreter. -/
def HasTargets (r : Registry) (aliases : Keyed String) : Prop :=
  ∀ p ∈ aliases, p.2 ∈ Keyed.keys r

/-- The registry `r'` is `r`, except that each alias has the interpreter that its target has in
`r`. -/
structure IsExtension (r : Registry) (aliases : Keyed String) (r' : Registry) : Prop where
  ofTarget : ∀ p ∈ aliases, Keyed.get? r' p.1 = Keyed.get? r p.2
  other : ∀ t ∉ Keyed.keys aliases, Keyed.get? r' t = Keyed.get? r t

/-- Aliases that mean, in whatever registry has their targets, what the targets mean there. -/
def ResolvesAtOnce (aliases : Keyed String) : Prop :=
  ∀ r : Registry, r.HasTargets aliases →
    ∃ r', r.withAliases aliases = .ok r' ∧ r.IsExtension aliases r'

theorem HasTargets.exists_withAliases {r : Registry} {aliases : Keyed String}
    (h : r.HasTargets aliases) : ∃ r', r.withAliases aliases = .ok r' := by
  rw [exists_withAliases_eq_ok_iff]
  rintro pre p post rfl
  exact Or.inl (h p (by simp))

/-- A registry in which each tag has an interpreter of its own, one that answers with the tag. -/
def labelled (tags : List String) : Registry :=
  tags.map fun t => (t, fun _ _ => .ok (some (.text t)))

theorem keys_labelled (tags : List String) : Keyed.keys (labelled tags) = tags := by
  simp [labelled, Keyed.keys, Function.comp_def]

theorem eq_of_get?_labelled {tags : List String} {t t' : String} (ht : t ∈ tags)
    (h : Keyed.get? (labelled tags) t' = Keyed.get? (labelled tags) t) : t' = t := by
  -- what is looked up under a tag is the interpreter that answers with it
  have hlabel : ∀ {s i}, Keyed.get? (labelled tags) s = some i →
      i { renderer := .plain } [] = .ok (some (.text s)) := by
    intro s i hi
    obtain ⟨u, -, hu⟩ := List.mem_map.mp (Keyed.mem_of_get? hi)
    cases hu
    rfl
  cases hi : Keyed.get? (labelled tags) t with
  | none => exact absurd (by rwa [keys_labelled]) (Keyed.get?_eq_none_iff.mp hi)
  | some i =>
    have heq := (hlabel (h.trans hi)).symm.trans (hlabel hi)
    simpa using heq

variable {aliases : Keyed String} (hkeys : (Keyed.keys aliases).Nodup)
include hkeys

theorem resolvesAtOnce_iff_resolve :
    ResolvesAtOnce aliases ↔
      ∀ pre p post, aliases = pre ++ p :: post → resolve pre p.2 = p.2 := by
  constructor
  · rintro h pre p post rfl
    -- a registry that tells the targets apart
    have htargets : HasTargets (labelled ((pre ++ p :: post).map Prod.snd)) (pre ++ p :: post) := by
      intro q hq
      rw [keys_labelled]
      exact List.mem_map_of_mem hq
    obtain ⟨r', hr', hextension⟩ := h _ htargets
    have hp : p ∈ pre ++ p :: post := by simp
    refine eq_of_get?_labelled (List.mem_map_of_mem hp) ?_
    rw [← resolve_split hkeys, ← get?_withAliases hr', hextension.ofTarget p hp]
  · intro h r htargets
    obtain ⟨r', hr'⟩ := htargets.exists_withAliases
    refine ⟨r', hr', fun p hp => ?_, fun t ht => ?_⟩
    · obtain ⟨pre, post, rfl⟩ := List.append_of_mem hp
      rw [get?_withAliases hr', resolve_split hkeys, h pre p post rfl]
    · rw [get?_withAliases hr', resolve_of_notMem ht]

/-- Aliases are resolved at once if no target is the name of an alias before, unless that alias
stands for itself. -/
theorem resolvesAtOnce_iff :
    ResolvesAtOnce aliases ↔
      ∀ pre p post, aliases = pre ++ p :: post → ∀ q ∈ pre, q.1 = p.2 → q.2 = p.2 := by
  rw [resolvesAtOnce_iff_resolve hkeys]
  constructor
  · rintro h pre p post rfl q hq hqp
    obtain ⟨before, between, rfl⟩ := List.append_of_mem hq
    -- `q` is settled as well, so what its name stands for at the turn of `p` is its target
    have hpre : (Keyed.keys (before ++ q :: between)).Nodup := by
      rw [Keyed.keys_append] at hkeys
      exact (List.nodup_append.mp hkeys).1
    calc q.2 = resolve before q.2 := (h before q (between ++ p :: post) (by simp)).symm
      _ = resolve (before ++ q :: between) q.1 := (resolve_split hpre).symm
      _ = p.2 := by rw [hqp, h _ p post rfl]
  · intro h pre p post hsplit
    exact resolve_eq_self (h pre p post hsplit)

/-- Whatever their order, if no target is the name of an alias that stands for something else. -/
theorem forall_perm_resolvesAtOnce_iff :
    (∀ order : Keyed String, order.Perm aliases → ResolvesAtOnce order) ↔
      ∀ p ∈ aliases, ∀ q ∈ aliases, q.1 = p.2 → q.2 = p.2 := by
  have hnodup : ∀ order : Keyed String, order.Perm aliases → (Keyed.keys order).Nodup :=
    fun order horder => (horder.map Prod.fst).nodup_iff.mpr hkeys
  constructor
  · intro h p hp q hq hqp
    by_cases heq : p = q
    · exact heq ▸ rfl
    -- an order in which `q` comes first
    have hperm := (List.perm_cons_erase hq).symm
    obtain ⟨pre, post, hsplit⟩ := List.append_of_mem ((List.mem_erase_of_ne heq).mpr hp)
    rw [hsplit] at hperm
    exact (resolvesAtOnce_iff (hnodup _ hperm)).mp (h _ hperm) (q :: pre) p post rfl q
      List.mem_cons_self hqp
  · intro h order horder
    rw [resolvesAtOnce_iff (hnodup order horder)]
    rintro pre p post rfl q hq
    exact h p (horder.mem_iff.mp (by simp)) q (horder.mem_iff.mp (by simp [hq]))

/-- What becomes of a registry with all targets: the aliases can be added, no other tag changes, and
an alias gets the interpreter of its target, as far as the aliases before it have not given the
target another one.  For every registry that is the one from before just if no target is the name
of an alias before that stands for something else, and in whatever order just if there is no such
target. -/
theorem withAliases_resolve :
    (∀ r : Registry, r.HasTargets aliases → ∃ r', r.withAliases aliases = .ok r' ∧
        (∀ t ∉ Keyed.keys aliases, Keyed.get? r' t = Keyed.get? r t) ∧
        ∀ pre p post, aliases = pre ++ p :: post →
          Keyed.get? r' p.1 = Keyed.get? r (resolve pre p.2)) ∧
      (ResolvesAtOnce aliases ↔
        ∀ pre p post, aliases = pre ++ p :: post → ∀ q ∈ pre, q.1 = p.2 → q.2 = p.2) ∧
      ((∀ order : Keyed String, order.Perm aliases → ResolvesAtOnce order) ↔
        ∀ p ∈ aliases, ∀ q ∈ aliases, q.1 = p.2 → q.2 = p.2) := by
  refine ⟨fun r htargets => ?_, resolvesAtOnce_iff hkeys, forall_perm_resolvesAtOnce_iff hkeys⟩
  obtain ⟨r', hr'⟩ := htargets.exists_withAliases
  refine ⟨r', hr', fun t ht => ?_, ?_⟩
  · rw [get?_withAliases hr', resolve_of_notMem ht]
  · rintro pre p post rfl
    rw [get?_withAliases hr', resolve_split hkeys]

omit hkeys

/-- The last alias has one before it as its target, so it gets what that one has got. -/
theorem withAliases_resolve_sample :
    (Keyed.keys [("arg", "param"), ("see", "event"), ("link", "see")]).Nodup ∧
      ∃ r', builtin.withAliases [("arg", "param"), ("see", "event"), ("link", "see")] = .ok r' ∧
        Keyed.get? r' "arg" = some Tag.param ∧ Keyed.get? r' "link" = some Tag.event ∧
        Keyed.get? r' "todo" = some Tag.todo := by
  have hkeys : (Keyed.keys [("arg", "param"), ("see", "event"), ("link", "see")]).Nodup := by decide
  have htargets : builtin.HasTargets [("arg", "param"), ("see", "event"), ("link", "see")] := by
    unfold HasTargets
    decide
  obtain ⟨r', hr', hother, hresolve⟩ := (withAliases_resolve hkeys).1 builtin htargets
  refine ⟨hkeys, r', hr', ?_, ?_, ?_⟩
  · exact hresolve [] ("arg", "param") _ rfl
  · exact hresolve [("arg", "param"), ("see", "event")] ("link", "see") [] rfl
  · exact hother "todo" (by decide)

/-- An alias does not always get the interpreter that its target had: `arg` is read as links. -/
theorem not_forall_isExtension :
    ¬∀ (r : Registry) (aliases : Keyed String), (Keyed.keys aliases).Nodup → r.HasTargets aliases →
      ∃ r', r.withAliases aliases = .ok r' ∧ r.IsExtension aliases r' := by
  intro hall
  have htargets : builtin.HasTargets [("param", "see"), ("arg", "param")] := by
    unfold HasTargets
    decide
  obtain ⟨r', hr', hextension⟩ := hall builtin _ (by decide) htargets
  have hlinks : Keyed.get? r' "arg" = some Tag.see := get?_withAliases hr' "arg"
  have hparam : Keyed.get? r' "arg" = some Tag.param :=
    hextension.ofTarget ("arg", "param") (by simp)
  -- without entries, the one means an empty list, the other an empty record
  have heq : Tag.see { renderer := .plain } [] = Tag.param { renderer := .plain } [] := by
    rw [Option.some_inj.mp (hlinks.symm.trans hparam)]
  cases heq

end DocComment.Registry
