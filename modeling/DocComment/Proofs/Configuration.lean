/-
What a configuration is refused for.

The matchers and the aliases of a configuration are read one after the other, and the configuration
is refused for the first that is not in order (`FirstRefused`).

* `exists_foldlM_eq_ok_iff`, `foldlM_eq_error_iff_firstRefused` — so it is with every reading of this
  kind, once it is known when one item is refused;
* `mapM_eq_ok_iff`, `mapM_eq_error_iff_firstRefused` — and where items are read one by one, each by
  itself;
* `TagFilter.ofMembers_eq_foldlM` — the matchers of a list are read like those that stand alone, so
  `TagFilter.exists_ofMembers_eq_ok_iff` and `TagFilter.ofMembers_eq_error_iff` speak of all of them
  in their order;
* `Registry.exists_withAliases_eq_ok_iff`, `Registry.withAliases_eq_error_iff` — an alias is refused
  if its target is neither registered nor the name of an alias before it.
-/
import DocComment.Proofs.Keyed
import DocComment.TagFilter

namespace DocComment

variable {α σ ε : Type}

/-! ### The first refusal -/

theorem exists_eq_error_iff {r : Except ε α} : (∃ e, r = .error e) ↔ ¬∃ a, r = .ok a := by
  cases r <;> simp

/-- A reading that fails stops at an item. -/
theorem foldlM_eq_error_iff {f : σ → α → Except ε σ} {xs : List α} {start : σ} {e : ε} :
    xs.foldlM f start = .error e ↔
      ∃ pre x post s, xs = pre ++ x :: post ∧ pre.foldlM f start = .ok s ∧ f s x = .error e := by
  constructor
  · intro h
    induction xs generalizing start with
    | nil => cases h
    | cons x xs ih =>
      rw [List.foldlM_cons] at h
      cases hx : f start x with
      | error e' =>
        rw [hx] at h
        cases h
        exact ⟨[], x, xs, start, rfl, rfl, hx⟩
      | ok s =>
        rw [hx] at h
        obtain ⟨pre, y, post, s', rfl, hpre, hy⟩ := ih h
        refine ⟨x :: pre, y, post, s', rfl, ?_, hy⟩
        rw [List.foldlM_cons, hx]
        exact hpre
  · rintro ⟨pre, x, post, s, rfl, hpre, hx⟩
    rw [List.foldlM_append, hpre]
    show List.foldlM f s (x :: post) = .error e
    rw [List.foldlM_cons, hx]
    rfl

/-- The error for the first item that is refused, where `refused pre x e` says that `x` is refused
with `e` behind the items `pre`. -/
structure FirstRefused (refused : List α → α → ε → Prop) (xs pre : List α) (x : α) (e : ε) :
    Prop where
  split : ∃ post, xs = pre ++ x :: post
  accepted : ∀ pre' y post', pre = pre' ++ y :: post' → ∀ e', ¬refused pre' y e'
  refusal : refused pre x e

section Reading

variable {refused : List α → α → ε → Prop} {f : σ → α → Except ε σ} {start : σ}
  (hstep : ∀ pre s x e, pre.foldlM f start = .ok s → (f s x = .error e ↔ refused pre x e))
include hstep

/-- A reading succeeds if nothing is refused at its turn. -/
theorem exists_foldlM_eq_ok_iff {xs : List α} :
    (∃ s, xs.foldlM f start = .ok s) ↔
      ∀ pre x post, xs = pre ++ x :: post → ∀ e, ¬refused pre x e := by
  constructor
  · rintro ⟨s, hs⟩ pre x post rfl e hrefused
    rw [List.foldlM_append] at hs
    cases hpre : pre.foldlM f start with
    | error e' =>
      rw [hpre] at hs
      cases hs
    | ok s' =>
      have hx : f s' x = .error e := (hstep pre s' x e hpre).mpr hrefused
      rw [hpre] at hs
      change List.foldlM f s' (x :: post) = .ok s at hs
      rw [List.foldlM_cons, hx] at hs
      cases hs
  · intro h
    cases hs : xs.foldlM f start with
    | ok s => exact ⟨s, rfl⟩
    | error e =>
      obtain ⟨pre, x, post, s', hsplit, hpre, hx⟩ := foldlM_eq_error_iff.mp hs
      exact absurd ((hstep pre s' x e hpre).mp hx) (h pre x post hsplit e)

theorem foldlM_eq_error_iff_firstRefused {xs : List α} {e : ε} :
    xs.foldlM f start = .error e ↔ ∃ pre x, FirstRefused refused xs pre x e := by
  rw [foldlM_eq_error_iff]
  constructor
  · rintro ⟨pre, x, post, s, hsplit, hpre, hx⟩
    exact ⟨pre, x, ⟨post, hsplit⟩, (exists_foldlM_eq_ok_iff hstep).mp ⟨s, hpre⟩,
      (hstep pre s x e hpre).mp hx⟩
  · rintro ⟨pre, x, ⟨post, hsplit⟩, haccepted, hrefused⟩
    -- the reading comes as far as `x`, for nothing before it is refused
    obtain ⟨s, hs⟩ := (exists_foldlM_eq_ok_iff hstep).mpr haccepted
    exact ⟨pre, x, post, s, hsplit, hs, (hstep pre s x e hs).mpr hrefused⟩

end Reading

section Each

variable {β : Type} {f : α → Except ε β} {xs : List α}

theorem mapM_cons_eq_ok_iff {x : α} {ys : List β} :
    (x :: xs).mapM f = .ok ys ↔ ∃ y ys', f x = .ok y ∧ xs.mapM f = .ok ys' ∧ ys = y :: ys' := by
  rw [List.mapM_cons]
  cases f x with
  | error e => simp [bind, Except.bind]
  | ok y =>
    cases xs.mapM f with
    | error e => simp [bind, Except.bind]
    | ok ys' => simp [bind, Except.bind, pure, Except.pure, eq_comm]

theorem mapM_eq_ok_iff {ys : List β} :
    xs.mapM f = .ok ys ↔ List.Forall₂ (fun x y => f x = .ok y) xs ys := by
  induction xs generalizing ys with
  | nil => simp [pure, Except.pure, eq_comm]
  | cons x xs ih =>
    rw [mapM_cons_eq_ok_iff]
    simp only [ih]
    constructor
    · rintro ⟨y, ys', hy, hys, rfl⟩
      exact .cons hy hys
    · rintro (_ | ⟨hy, hys⟩)
      exact ⟨_, _, hy, hys, rfl⟩

theorem exists_mem_of_forall₂ {R : α → β → Prop} {ys : List β} (h : List.Forall₂ R xs ys) {x : α}
    (hx : x ∈ xs) : ∃ y ∈ ys, R x y := by
  induction h with
  | nil => cases hx
  | @cons x' y xs ys hxy _ ih =>
    rcases List.mem_cons.mp hx with rfl | hx
    · exact ⟨y, List.mem_cons_self, hxy⟩
    · obtain ⟨y', hy', hxy'⟩ := ih hx
      exact ⟨y', List.mem_cons_of_mem y hy', hxy'⟩

end Each

/-! ### Matchers -/

theorem Json.bind_string?_eq_some_iff {j? : Option Json} {s : String} :
    j?.bind Json.string? = some s ↔ j? = some (.string s) := by
  constructor
  · intro h
    obtain ⟨j, rfl, hs⟩ := Option.bind_eq_some_iff.mp h
    cases j <;> cases hs
    rfl
  · rintro rfl
    rfl

/-- A matcher that cannot be read: neither a text nor an object with a text under `regex`, or that
text is no pattern of the language. -/
inductive Matcher.Refused (patterns : PatternLanguage) (tag : String) (j : Json) : Error → Prop
  | unsupported (text : ∀ s, j ≠ .string s) (regex : ∀ s, j.get? "regex" ≠ some (.string s)) :
      Refused patterns tag j (.unsupportedMatcher tag)
  | invalid (s : String) (regex : j.get? "regex" = some (.string s))
      (pattern : patterns.compile? s = none) : Refused patterns tag j (.invalidPattern s)

section Matchers

variable {patterns : PatternLanguage}

theorem Matcher.ofJson_eq_error_iff {tag : String} {j : Json} {e : Error} :
    Matcher.ofJson patterns tag j = .error e ↔ Matcher.Refused patterns tag j e := by
  constructor
  · intro h
    unfold Matcher.ofJson at h
    split at h
    · cases h
    · next htext =>
      split at h
      · next s hs =>
        unfold Matcher.ofPattern at h
        split at h
        · cases h
        · next hpattern =>
          cases h
          exact .invalid s (Json.bind_string?_eq_some_iff.mp hs) hpattern
      · next hnone =>
        cases h
        refine .unsupported htext fun s hs => ?_
        rw [hs] at hnone
        cases hnone
  · rintro (⟨htext, hregex⟩ | ⟨s, hregex, hpattern⟩)
    · unfold Matcher.ofJson
      split
      · next s => exact absurd rfl (htext s)
      · split
        · next s hs => exact absurd (Json.bind_string?_eq_some_iff.mp hs) (hregex s)
        · rfl
    · unfold Matcher.ofJson
      split
      · cases hregex
      · rw [hregex]
        show Matcher.ofPattern s patterns = _
        rw [Matcher.ofPattern, hpattern]

namespace TagFilter

/-- The matchers that are given for a tag. -/
def given : Json → List Json
  | .array items => items
  | j => [j]

/-- All matchers of a configuration, each with its tag, in order. -/
def written (config : Keyed Json) : List (String × Json) :=
  config.flatMap fun p => (given p.2).map (p.1, ·)

/-- Reads one matcher more. -/
def readOne (patterns : PatternLanguage) (f : TagFilter) (p : String × Json) :
    Except Error TagFilter :=
  (Matcher.ofJson patterns p.1 p.2).map fun m => f.add p.1 [m]

/-- Whether a matcher is refused does not depend on those before it. -/
theorem readOne_eq_error_iff (pre : List (String × Json)) (f : TagFilter) (p : String × Json)
    (e : Error) (_ : pre.foldlM (readOne patterns) [] = .ok f) :
    readOne patterns f p = .error e ↔ Matcher.Refused patterns p.1 p.2 e := by
  rw [← Matcher.ofJson_eq_error_iff, readOne]
  cases Matcher.ofJson patterns p.1 p.2 <;> simp [Except.map]

theorem add_add (f : TagFilter) (tag : String) (ms ms' : List Matcher) :
    (f.add tag ms).add tag ms' = f.add tag (ms ++ ms') := by
  unfold add
  cases ms with
  | nil => simp
  | cons m ms =>
    cases ms' with
    | nil => simp
    | cons m' ms' => simp [Keyed.alter_alter]

theorem foldlM_readOne_map (f : TagFilter) (tag : String) (items : List Json) :
    (items.map (tag, ·)).foldlM (readOne patterns) f =
      (items.mapM (Matcher.ofJson patterns tag)).map (f.add tag) := by
  induction items generalizing f with
  | nil => rfl
  | cons j items ih =>
    rw [List.map_cons, List.foldlM_cons, List.mapM_cons]
    show (Except.map _ (Matcher.ofJson patterns tag j) >>= _) = _
    cases Matcher.ofJson patterns tag j with
    | error e => rfl
    | ok m =>
      show List.foldlM (readOne patterns) (f.add tag [m]) (items.map (tag, ·)) = _
      rw [ih]
      cases items.mapM (Matcher.ofJson patterns tag) with
      | error e => rfl
      | ok ms => exact congrArg Except.ok (add_add f tag [m] ms)

theorem matchersOf_eq_mapM (tag : String) (j : Json) :
    matchersOf patterns tag j = (given j).mapM (Matcher.ofJson patterns tag) := by
  cases j with
  | array items => rfl
  | _ => simp only [given, matchersOf, List.mapM_cons, List.mapM_nil]; rfl

theorem ofMembers_eq_foldlM (config : Keyed Json) :
    ofMembers config patterns = (written config).foldlM (readOne patterns) [] := by
  -- from any filter that was read so far
  have hrun : ∀ f : TagFilter,
      config.foldlM (fun f p => (matchersOf patterns p.1 p.2).map (f.add p.1)) f =
        (written config).foldlM (readOne patterns) f := by
    induction config with
    | nil => exact fun _ => rfl
    | cons p config ih =>
      intro f
      rw [List.foldlM_cons, written, List.flatMap_cons, List.foldlM_append, foldlM_readOne_map,
        ← matchersOf_eq_mapM]
      exact bind_congr ih
  exact hrun []

theorem exists_ofMembers_eq_ok_iff {config : Keyed Json} :
    (∃ f, ofMembers config patterns = .ok f) ↔
      ∀ p ∈ written config, ∀ e, ¬Matcher.Refused patterns p.1 p.2 e := by
  rw [ofMembers_eq_foldlM, exists_foldlM_eq_ok_iff readOne_eq_error_iff]
  constructor
  · intro h p hp
    obtain ⟨pre, post, hsplit⟩ := List.append_of_mem hp
    exact h pre p post hsplit
  · intro h pre p post hsplit
    exact h p (hsplit ▸ by simp)

theorem ofMembers_eq_error_iff {config : Keyed Json} {e : Error} :
    ofMembers config patterns = .error e ↔ ∃ pre p,
      FirstRefused (fun _ p e => Matcher.Refused patterns p.1 p.2 e) (written config) pre p e := by
  rw [ofMembers_eq_foldlM, foldlM_eq_error_iff_firstRefused readOne_eq_error_iff]

end TagFilter

end Matchers

/-! ### Aliases -/

namespace Registry

/-- An alias that cannot be added: there is nothing under its target, neither registered nor the name
of an alias before it. -/
structure Refuses (registered : List String) (pre : Keyed String) (p : String × String)
    (cause : UnknownTarget) : Prop where
  cause_eq : cause = ⟨p.1, p.2⟩
  unregistered : p.2 ∉ registered
  notBefore : p.2 ∉ Keyed.keys pre

theorem withAliases_cons_eq_ok_iff {r r' : Registry} {p : String × String}
    {aliases : Keyed String} :
    r.withAliases (p :: aliases) = .ok r' ↔
      ∃ i, Keyed.get? r p.2 = some i ∧ (r.register p.1 i).withAliases aliases = .ok r' := by
  rw [withAliases, List.foldlM_cons]
  cases hi : Keyed.get? r p.2 with
  | none =>
    simp only [addAlias, hi]
    refine iff_of_false (fun h => ?_) (by simp)
    cases h
  | some i =>
    simp only [addAlias, hi, Option.some_inj, exists_eq_left']
    rfl

/-- Every alias that was added can be the target of those behind it. -/
theorem mem_keys_withAliases {r r' : Registry} {aliases : Keyed String}
    (h : r.withAliases aliases = .ok r') (t : String) :
    t ∈ Keyed.keys r' ↔ t ∈ Keyed.keys r ∨ t ∈ Keyed.keys aliases := by
  induction aliases generalizing r with
  | nil =>
    cases h
    simp [Keyed.keys]
  | cons p aliases ih =>
    obtain ⟨i, -, h⟩ := withAliases_cons_eq_ok_iff.mp h
    rw [ih h, register, Keyed.mem_keys_insert]
    simp only [Keyed.keys, List.map_cons, List.mem_cons]
    tauto

/-- Aliases bring in no interpreters. -/
theorem exists_mem_of_mem_withAliases {r r' : Registry} {aliases : Keyed String}
    (h : r.withAliases aliases = .ok r') {p : String × Interpreter} (hp : p ∈ r') :
    ∃ q ∈ r, q.2 = p.2 := by
  induction aliases generalizing r with
  | nil =>
    cases h
    exact ⟨p, hp, rfl⟩
  | cons a aliases ih =>
    obtain ⟨i, hi, h⟩ := withAliases_cons_eq_ok_iff.mp h
    obtain ⟨q, hq, hqp⟩ := ih h
    -- the last alias is `q`, or `q` was there before it
    rcases Keyed.mem_insert hq with hq | rfl
    · exact ⟨q, hq, hqp⟩
    · exact ⟨(a.2, i), Keyed.mem_of_get? hi, hqp⟩

theorem addAlias_eq_error_iff {r : Registry} (pre : Keyed String) (r' : Registry)
    (p : String × String) (cause : UnknownTarget) (h : r.withAliases pre = .ok r') :
    r'.addAlias p.1 p.2 = .error cause ↔ Refuses (Keyed.keys r) pre p cause := by
  have htarget : Keyed.get? r' p.2 = none ↔ p.2 ∉ Keyed.keys r ∧ p.2 ∉ Keyed.keys pre := by
    rw [Keyed.get?_eq_none_iff, mem_keys_withAliases h, not_or]
  unfold addAlias
  cases hi : Keyed.get? r' p.2 with
  | none =>
    obtain ⟨hregistry, hpre⟩ := htarget.mp hi
    constructor
    · rintro ⟨⟩
      exact ⟨rfl, hregistry, hpre⟩
    · rintro ⟨rfl, -, -⟩
      rfl
  | some i =>
    constructor
    · intro hok
      cases hok
    · rintro ⟨-, hregistry, hpre⟩
      rw [htarget.mpr ⟨hregistry, hpre⟩] at hi
      cases hi

theorem exists_withAliases_eq_ok_iff {r : Registry} {aliases : Keyed String} :
    (∃ r', r.withAliases aliases = .ok r') ↔ ∀ pre p post, aliases = pre ++ p :: post →
      p.2 ∈ Keyed.keys r ∨ p.2 ∈ Keyed.keys pre := by
  refine (exists_foldlM_eq_ok_iff addAlias_eq_error_iff).trans ?_
  constructor
  · intro h pre p post hsplit
    by_contra hnot
    rw [not_or] at hnot
    exact h pre p post hsplit ⟨p.1, p.2⟩ ⟨rfl, hnot.1, hnot.2⟩
  · intro h pre p post hsplit cause hrefuses
    rcases h pre p post hsplit with hregistered | hbefore
    · exact hrefuses.unregistered hregistered
    · exact hrefuses.notBefore hbefore

theorem withAliases_eq_error_iff {r : Registry} {aliases : Keyed String} {cause : UnknownTarget} :
    r.withAliases aliases = .error cause ↔
      ∃ pre p, FirstRefused (Refuses (Keyed.keys r)) aliases pre p cause :=
  foldlM_eq_error_iff_firstRefused addAlias_eq_error_iff

end Registry

end DocComment
