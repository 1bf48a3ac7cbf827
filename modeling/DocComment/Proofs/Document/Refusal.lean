/-
What a document is refused.

Parsing reads the configuration before anything else, and fails if a matcher cannot be read or an
alias has no target; with the blocks that it gives all requests are answered, and without blocks none
is.

* `parse_eq_error_iff_firstRefused`, `exists_parse_eq_error_iff` — for what parsing fails, and when;
* `answer_eq_error_iff` — a request is refused just if the document has no blocks;
* `of_act_eq_ok` — an action that is done leaves blocks, and only parsing can do without them.
-/
import DocComment.Proofs.Configuration
import DocComment.Proofs.Document

namespace DocComment.Document

variable {d d' : Document} {o : Options} {e : Error}

/-! ### Configuration -/

theorem fullFilter_eq_error_iff :
    o.fullFilter = .error e ↔
      TagFilter.ofMembers o.settings.filterByTag o.patterns = .error e := by
  rw [Options.fullFilter]
  cases TagFilter.ofMembers o.settings.filterByTag o.patterns <;> simp [Except.map]

theorem fullRegistry_eq_error_iff :
    o.fullRegistry = .error e ↔
      ∃ cause, e = .unknownTarget cause ∧ o.registry.withAliases o.settings.tags = .error cause := by
  rw [Options.fullRegistry]
  cases o.registry.withAliases o.settings.tags <;> simp [Except.mapError, eq_comm]

theorem parse_eq_error_iff :
    d.parse = .error e ↔ d.options.fullFilter = .error e ∨
      (∃ filter, d.options.fullFilter = .ok filter) ∧ d.options.fullRegistry = .error e := by
  rw [parse]
  cases d.options.fullFilter with
  | error e' => simp [bind, Except.bind]
  | ok filter => cases d.options.fullRegistry <;> simp [bind, Except.bind, pure, Except.pure]

theorem exists_fullFilter_eq_ok_iff :
    (∃ filter, o.fullFilter = .ok filter) ↔
      ∃ written, TagFilter.ofMembers o.settings.filterByTag o.patterns = .ok written := by
  simp only [Options.fullFilter_eq_ok_iff]
  rw [exists_comm]
  simp only [exists_and_left, exists_eq', and_true]

/-- Parsing is refused for the first matcher that cannot be read, and if there is none, for the first
alias without a target. -/
theorem parse_eq_error_iff_firstRefused :
    d.parse = .error e ↔
      (∃ pre p, FirstRefused (fun _ p e => Matcher.Refused d.options.patterns p.1 p.2 e)
        (TagFilter.written d.options.settings.filterByTag) pre p e) ∨
      (∀ p ∈ TagFilter.written d.options.settings.filterByTag, ∀ e,
        ¬Matcher.Refused d.options.patterns p.1 p.2 e) ∧
      ∃ cause, e = .unknownTarget cause ∧ ∃ pre p,
        FirstRefused (Registry.Refuses (Keyed.keys d.options.registry)) d.options.settings.tags pre p
          cause := by
  rw [parse_eq_error_iff, fullFilter_eq_error_iff, TagFilter.ofMembers_eq_error_iff,
    exists_fullFilter_eq_ok_iff, TagFilter.exists_ofMembers_eq_ok_iff, fullRegistry_eq_error_iff]
  simp only [Registry.withAliases_eq_error_iff]

/-- A configuration with a matcher that cannot be read, or with an alias whose target is neither
registered nor the name of an alias before it. -/
def IsRefused (o : Options) : Prop :=
  (∃ p ∈ TagFilter.written o.settings.filterByTag, ∃ e, Matcher.Refused o.patterns p.1 p.2 e) ∨
    ∃ pre p post, o.settings.tags = pre ++ p :: post ∧
      p.2 ∉ Keyed.keys o.registry ∧ p.2 ∉ Keyed.keys pre

theorem exists_parse_eq_error_iff : (∃ e, d.parse = .error e) ↔ IsRefused d.options := by
  have hmatchers : (∃ e, d.options.fullFilter = .error e) ↔
      ∃ p ∈ TagFilter.written d.options.settings.filterByTag, ∃ e,
        Matcher.Refused d.options.patterns p.1 p.2 e := by
    rw [exists_eq_error_iff, exists_fullFilter_eq_ok_iff, TagFilter.exists_ofMembers_eq_ok_iff]
    simp only [not_forall, not_not, exists_prop]
  have haliases : (∃ e, d.options.fullRegistry = .error e) ↔
      ∃ pre p post, d.options.settings.tags = pre ++ p :: post ∧
        p.2 ∉ Keyed.keys d.options.registry ∧ p.2 ∉ Keyed.keys pre := by
    simp only [fullRegistry_eq_error_iff]
    rw [exists_comm]
    simp only [exists_eq_left]
    rw [exists_eq_error_iff, Registry.exists_withAliases_eq_ok_iff]
    simp only [not_forall, not_or, exists_prop]
  rw [IsRefused, ← hmatchers, ← haliases]
  simp only [parse_eq_error_iff, exists_or, exists_and_left]
  rw [← exists_eq_error_iff.not_left]
  tauto

/-- Every error of parsing is one of the configuration. -/
theorem exists_configuration?_of_parse (h : d.parse = .error e) :
    ∃ text, e.configuration? = some text := by
  rcases parse_eq_error_iff_firstRefused.mp h with ⟨pre, p, hfirst⟩ | ⟨-, cause, rfl, -⟩
  · cases hfirst.refusal <;> exact ⟨_, rfl⟩
  · exact ⟨_, rfl⟩

/-- The parts of the options that parsing reads before it interprets anything: matchers, the language
of their patterns, aliases and which tags are registered. -/
structure ConfiguredAlike (o o' : Options) : Prop where
  patterns_eq : o'.patterns = o.patterns
  filterByTag_eq : o'.settings.filterByTag = o.settings.filterByTag
  tags_eq : o'.settings.tags = o.settings.tags
  registered_eq : Keyed.keys o'.registry = Keyed.keys o.registry

theorem ConfiguredAlike.parse_eq_error (halike : ConfiguredAlike d.options d'.options)
    (h : d.parse = .error e) : d'.parse = .error e := by
  rw [parse_eq_error_iff_firstRefused] at h ⊢
  rwa [halike.patterns_eq, halike.filterByTag_eq, halike.tags_eq, halike.registered_eq]

/-! ### Requests -/

/-- What needs the blocks of a document. -/
inductive Request where
  | blocks
  | records
  | json
  | text
  | sort
  | sortWith (compare : Comparator)

/-- Whether a request is answered. -/
def answer (d : Document) : Request → Except Error Unit
  | .blocks => d.blocks.map fun _ => ()
  | .records => d.records.map fun _ => ()
  | .json => d.toJson.map fun _ => ()
  | .text => d.toText.map fun _ => ()
  | .sort => d.sort.map fun _ => ()
  | .sortWith compare => (d.sortWith compare).map fun _ => ()

theorem answer_eq_error_iff {q : Request} :
    d.answer q = .error (.notParsed .document) ↔ ¬d.blocks?.isSome := by
  cases hbs : d.blocks? with
  | none =>
    have hblocks : d.blocks = .error (.notParsed .document) := by rw [blocks, hbs]
    have hrefused : d.answer q = .error (.notParsed .document) := by
      unfold answer toJson records toText sort sortWith
      rw [hblocks]
      cases q <;> rfl
    simp [hrefused]
  | some bs =>
    have hshows := shows_of_blocks? hbs
    have hanswered : d.answer q = .ok () := by
      unfold answer sort sortWith
      rw [hshows.blocks_eq, hshows.records_eq, hshows.toJson_eq, hshows.toText_eq]
      cases q <;> rfl
    simp [hanswered]

/-! ### Actions -/

theorem of_sortWith_eq_ok {compare : Comparator} {failures : List TagFailure}
    (h : (d.sortWith compare).map (·, []) = .ok (d', failures)) :
    d'.source = d.source ∧ d'.options = d.options ∧ d'.blocks?.isSome ∧ d.blocks?.isSome := by
  rw [sortWith, blocks] at h
  cases hbs : d.blocks? with
  | none =>
    rw [hbs] at h
    cases h
  | some bs =>
    rw [hbs] at h
    cases h
    exact ⟨rfl, rfl, rfl, rfl⟩

/-- An action that is done leaves a document with blocks, and it had some before unless that action
was parsing. -/
theorem of_act_eq_ok {a : Action} {failures : List TagFailure}
    (h : d.act a = .ok (d', failures)) :
    d'.source = d.source ∧ d'.options = d.options ∧ d'.blocks?.isSome ∧
      (a ≠ .parse → d.blocks?.isSome) := by
  cases a with
  | parse =>
    obtain ⟨filter, registry, -, -, rfl, -⟩ := exists_of_parse_eq_ok h
    exact ⟨rfl, rfl, rfl, fun hne => absurd rfl hne⟩
  | sort =>
    obtain ⟨hsource, hoptions, hblocks, hbefore⟩ := of_sortWith_eq_ok h
    exact ⟨hsource, hoptions, hblocks, fun _ => hbefore⟩
  | sortWith compare =>
    obtain ⟨hsource, hoptions, hblocks, hbefore⟩ := of_sortWith_eq_ok h
    exact ⟨hsource, hoptions, hblocks, fun _ => hbefore⟩

end DocComment.Document
