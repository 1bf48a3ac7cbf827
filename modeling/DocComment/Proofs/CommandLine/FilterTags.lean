/-
Which comments the flags of the command line keep.

A flag `--filter-tag=tag=value` asks that a tag have a value.  All flags come in from the arguments,
in their order (`parse_filterTags`).  But the rules that are made of them have one value for each
tag, so of the flags for one tag only the last counts (`TagValue.keepsLast`), and a comment that has
one of the other values is dropped, unlike with a list of values in a configuration file
(`TagValue.keepsAny`).

* `TagFilter.exists_ofMembers_of_strings` — what a filter accepts whose rules are plain texts;
* `TagValue.exists_filter` — the filter that flags make up;
* `TagValue.keepsLast_eq_keepsAny` — with one value for each tag, it is what the flags ask for;
* `keepsBlocks_of_mem_open` — a source that is opened keeps its filter, and parsing it keeps the
  comments that the filter accepts.

`run_filterTags` puts this together for a run of `parse`.
-/
import DocComment.Proofs.CommandLine.Sources
import DocComment.Proofs.Configuration.Layers
import DocComment.Proofs.TagFilter.Rules

namespace DocComment

/-! ### Rules that are plain texts -/

namespace TagFilter

theorem isAnswered_exact_iff {comment tag s : String} :
    IsAnswered comment tag (· = .exact s) ↔ textAfter? tag comment.toList = some s := by
  rw [textAfter?_eq_some_iff]
  constructor
  · rintro ⟨before, line, after, h, hblank, _, rfl, hs⟩
    exact ⟨before, line, after, h, hblank, (beq_iff_eq.mp hs).symm⟩
  · rintro ⟨before, line, after, h, hblank, rfl⟩
    exact ⟨before, line, after, h, hblank, _, rfl, beq_self_eq_true _⟩

theorem written_of_strings {config : Keyed Json} (h : ∀ p ∈ config, ∃ s, p.2 = .string s) :
    written config = config := by
  induction config with
  | nil => rfl
  | cons p config ih =>
    obtain ⟨⟨s, hs⟩, hconfig⟩ := List.forall_mem_cons.mp h
    obtain ⟨tag, j⟩ := p
    obtain rfl : j = .string s := hs
    rw [written, List.flatMap_cons, ← written, ih hconfig]
    rfl

/-- Plain texts mean the same in every language of patterns. -/
theorem exists_ofMembers_of_strings (patterns : PatternLanguage) {config : Keyed Json}
    (hconfig : ∀ p ∈ config, ∃ s, p.2 = .string s) (hkeys : config.keys.Nodup) :
    ∃ f, ofMembers config patterns = .ok f ∧ ∀ comment, f.accepts comment = true ↔
      ∀ tag s, Keyed.get? config tag = some (.string s) →
        textAfter? tag comment.toList = some s := by
  have hwritten := written_of_strings hconfig
  obtain ⟨f, hf⟩ : ∃ f, ofMembers config patterns = .ok f := by
    refine ofMembers_succeeds_iff.mpr fun p hp => ?_
    obtain ⟨s, hs⟩ := hconfig p (hwritten ▸ hp)
    exact ⟨.exact s, hs ▸ .exact s⟩
  obtain ⟨htidy, hmatchers⟩ := of_ofMembers_eq_ok hf
  have hgives : ∀ tag m, (tag, m) ∈ f.matchers ↔
      ∃ s, Keyed.get? config tag = some (.string s) ∧ m = .exact s := by
    intro tag m
    rw [hmatchers, Gives, hwritten]
    constructor
    · rintro ⟨j, hj, hm⟩
      obtain ⟨s, rfl⟩ := hconfig _ hj
      refine ⟨s, Keyed.get?_of_mem hkeys hj, ?_⟩
      exact Except.ok.inj (((Matcher.ofJson_eq_ok_iff tag).mpr hm).symm.trans rfl)
    · rintro ⟨s, hs, rfl⟩
      exact ⟨_, Keyed.mem_of_get? hs, .exact s⟩
  -- the only matcher for a tag is its text
  have hwanted : ∀ tag s, Keyed.get? config tag = some (.string s) →
      (fun m => (tag, m) ∈ f.matchers) = (· = .exact s) := by
    intro tag s hs
    funext m
    simp [hgives, hs]
  refine ⟨f, hf, fun comment => (accepts_iff htidy).trans (forall_congr' fun tag => ?_)⟩
  constructor
  · intro h s hs
    have hanswered := h ⟨.exact s, (hgives tag _).mpr ⟨s, hs, rfl⟩⟩
    rw [hwanted tag s hs] at hanswered
    exact isAnswered_exact_iff.mp hanswered
  · rintro h ⟨m, hm⟩
    obtain ⟨s, hs, -⟩ := (hgives tag m).mp hm
    rw [hwanted tag s hs]
    exact isAnswered_exact_iff.mpr (h s hs)

end TagFilter

/-! ### Flags -/

namespace TagValue

open TagFilter

/-- The value that the last flag for the tag gives. -/
def last? (flags : List TagValue) (tag : String) : Option String :=
  ((flags.filter (·.tag = tag)).getLast?).map TagValue.value

/-- Each tag of the flags has the last value that they give for it. -/
def keepsLast (flags : List TagValue) (comment : String) : Bool :=
  flags.all fun f => textAfter? f.tag comment.toList == last? flags f.tag

/-- Each tag of the flags has one of the values that they give for it. -/
def keepsAny (flags : List TagValue) (comment : String) : Bool :=
  flags.all fun f =>
    flags.any fun g => g.tag == f.tag && textAfter? f.tag comment.toList == some g.value

variable {flags : List TagValue}

theorem get?_tagRules (flags : List TagValue) (tag : String) :
    Keyed.get? (Configuration.tagRules flags) tag = (last? flags tag).map .string := by
  rw [Configuration.tagRules, Json.get?_byKey (Keyed.nodup_keys_ofList _), Keyed.get?_ofList,
    List.filter_map, List.getLast?_map, last?, Option.map_map, Option.map_map]
  rfl

theorem exists_of_last? {tag s : String} (h : last? flags tag = some s) :
    ∃ f ∈ flags, f.tag = tag ∧ f.value = s := by
  obtain ⟨f, hf, rfl⟩ := Option.map_eq_some_iff.mp h
  obtain ⟨hmem, htag⟩ := List.mem_filter.mp (List.mem_of_getLast? hf)
  exact ⟨f, hmem, of_decide_eq_true htag, rfl⟩

theorem exists_last? {f : TagValue} (hf : f ∈ flags) : ∃ s, last? flags f.tag = some s := by
  have hne : flags.filter (·.tag = f.tag) ≠ [] :=
    List.ne_nil_of_mem (List.mem_filter.mpr ⟨hf, decide_eq_true rfl⟩)
  exact ⟨_, by rw [last?, List.getLast?_eq_some_getLast hne]; rfl⟩

theorem keepsLast_iff {comment : String} :
    keepsLast flags comment = true ↔
      ∀ tag s, last? flags tag = some s → textAfter? tag comment.toList = some s := by
  rw [keepsLast, List.all_eq_true]
  constructor
  · intro h tag s hs
    obtain ⟨f, hf, rfl, -⟩ := exists_of_last? hs
    rw [beq_iff_eq.mp (h f hf), hs]
  · intro h f hf
    obtain ⟨s, hs⟩ := exists_last? hf
    rw [hs, h f.tag s hs, beq_self_eq_true]

/-- The filter that the flags make up keeps what their last values ask for. -/
theorem exists_filter (patterns : PatternLanguage) (flags : List TagValue) :
    ∃ f, ofMembers (Configuration.tagRules flags) patterns = .ok f ∧
      f.accepts = keepsLast flags := by
  have hstrings : ∀ p ∈ Configuration.tagRules flags, ∃ s, p.2 = .string s := by
    intro p hp
    have hgiven := Keyed.mem_of_mem_ofList ((Json.byKey_perm _).mem_iff.mp hp)
    obtain ⟨t, -, rfl⟩ := List.mem_map.mp hgiven
    exact ⟨t.value, rfl⟩
  have hkeys : (Configuration.tagRules flags).keys.Nodup :=
    ((Json.byKey_perm _).map Prod.fst).nodup_iff.mpr (Keyed.nodup_keys_ofList _)
  obtain ⟨f, hf, haccepts⟩ := exists_ofMembers_of_strings patterns hstrings hkeys
  refine ⟨f, hf, funext fun comment => Bool.eq_iff_iff.mpr ?_⟩
  rw [haccepts, keepsLast_iff]
  simp only [get?_tagRules, Option.map_eq_some_iff, Json.string.injEq, exists_eq_right]

theorem keepsAny_of_keepsLast {comment : String} (h : keepsLast flags comment = true) :
    keepsAny flags comment = true := by
  refine List.all_eq_true.mpr fun f hf => List.any_eq_true.mpr ?_
  obtain ⟨s, hs⟩ := exists_last? hf
  obtain ⟨g, hg, htag, rfl⟩ := exists_of_last? hs
  exact ⟨g, hg, by simp [htag, keepsLast_iff.mp h f.tag _ hs]⟩

/-- With one value for each tag, the last value is any value. -/
theorem keepsLast_eq_keepsAny (h : ∀ f ∈ flags, ∀ g ∈ flags, f.tag = g.tag → f.value = g.value) :
    keepsLast flags = keepsAny flags := by
  refine funext fun comment => Bool.eq_iff_iff.mpr ⟨keepsAny_of_keepsLast, fun hany => ?_⟩
  refine keepsLast_iff.mpr fun tag s hs => ?_
  obtain ⟨f, hf, rfl, rfl⟩ := exists_of_last? hs
  obtain ⟨g, hg, hgf⟩ := List.any_eq_true.mp (List.all_eq_true.mp hany f hf)
  simp only [Bool.and_eq_true, beq_iff_eq] at hgf
  rw [hgf.2, h g hg f hf hgf.1]

end TagValue

namespace CommandLine

open TagValue

/-! ### Arguments -/

theorem addLong_filterTag {raw : String} {t : TagValue} (ht : TagValue.parse raw = .ok t)
    {r : Reading} (hpending : r.pending = none) :
    r.addLong .parse ("filter-tag".toList ++ '=' :: raw.toList) =
      .ok { r with filterTags := r.filterTags ++ [t] } := by
  have hcut : Text.cutAt? (· == '=') ("filter-tag".toList ++ '=' :: raw.toList) =
      some ("filter-tag".toList, raw.toList) := rfl
  have hoption : Level.long? .parse "filter-tag".toList = some (.valued .filterTag) := by decide
  have hresolve : r.resolve = .ok r := by rw [Reading.resolve, hpending]
  rw [Reading.addLong, hcut]
  simp only [hoption]
  rw [Reading.addValued, hresolve]
  show r.store .filterTag (String.ofList raw.toList) = _
  rw [String.ofList_toList, Reading.store, ht]

theorem addArgument_filterTag {raw : String} {t : TagValue} (ht : TagValue.parse raw = .ok t)
    {r : Reading} (hpending : r.pending = none) (htrailing : r.trailing = false) :
    r.addArgument .parse ("--filter-tag=" ++ raw) =
      .ok { r with filterTags := r.filterTags ++ [t] } := by
  have htext : ("--filter-tag=" ++ raw).toList =
      '-' :: '-' :: ("filter-tag".toList ++ '=' :: raw.toList) := by
    rw [String.toList_append]
    rfl
  rw [Reading.addArgument, if_neg (by simp [htrailing]), htext]
  exact addLong_filterTag ht hpending

/-- All flags are handed on, in their order. -/
theorem readLevel_filterTags {raws : List String} {flags : List TagValue}
    (h : List.Forall₂ (fun raw t => TagValue.parse raw = .ok t) raws flags) {r : Reading}
    (hpending : r.pending = none) (htrailing : r.trailing = false) :
    Reading.readLevel .parse r (raws.map ("--filter-tag=" ++ ·)) =
      .ok ({ r with filterTags := r.filterTags ++ flags }, none) := by
  induction h generalizing r with
  | nil => rw [List.append_nil]; rfl
  | @cons raw t raws flags ht _ ih =>
    have hnone : r.mayBeCommand .parse = false := rfl
    have hrest := ih (r := { r with filterTags := r.filterTags ++ [t] }) hpending htrailing
    unfold Reading.readLevel
    rw [List.map_cons]
    simp only [hnone, Bool.false_and, Bool.false_eq_true, if_false]
    rw [addArgument_filterTag ht hpending htrailing]
    dsimp only
    rw [hrest, List.append_assoc, List.singleton_append]

theorem parse_filterTags {raws : List String} {flags : List TagValue}
    (h : List.Forall₂ (fun raw t => TagValue.parse raw = .ok t) raws flags) :
    Arguments.parse ("parse" :: raws.map ("--filter-tag=" ++ ·)) =
      .ok ⟨false, false, false, none, .parse [] .json flags false false⟩ := by
  have htop : Reading.readLevel .top {} ("parse" :: raws.map ("--filter-tag=" ++ ·)) =
      .ok ({}, some (.parse, raws.map ("--filter-tag=" ++ ·))) := rfl
  rw [Arguments.parse, htop]
  simp only [bind, Except.bind]
  rw [readLevel_filterTags h rfl rfl]
  rfl

/-! ### Runs -/

/-- Parsing the document keeps the comments that `keeps` accepts: their blocks, in some order, are
its blocks. -/
def KeepsBlocks (d : Document) (keeps : String → Bool) : Prop :=
  ∃ d' failures bs, d.parse = .ok (d', failures) ∧ d'.blocks? = some bs ∧
    bs.Perm (((Comment.comments d.source).filter keeps).map fun comment =>
      (Block.ofComment .builtin d.options.context comment).1)

/-- The options of a run without a configuration file. -/
def flagOptions (flags : List TagValue) (renderMarkdown : Bool) (files : FileTree)
    (libraries : Libraries) : Options where
  settings := { renderMarkdown, filterByTag := Configuration.tagRules flags }
  files := files
  patterns := libraries.patterns
  renderer := libraries.renderer

/-- Opening a source changes neither filter nor registry. -/
theorem options_of_mem_open {o : Options} {paths : List Path} {stdin : StandardInput}
    {origin : Origin} {d : Document} (h : (origin, .ok d) ∈ open_ o paths stdin) :
    d.options.fullFilter = o.fullFilter ∧ d.options.fullRegistry = o.fullRegistry ∧
      d.options.keep = o.keep := by
  have hd : some d ∈ sourcesOf o paths stdin :=
    map_toOption_open o paths stdin ▸ List.mem_map.mpr ⟨_, h, rfl⟩
  rcases options_of_mem_sourcesOf hd with ho | ⟨p, -, ho⟩ <;> rw [ho] <;> exact ⟨rfl, rfl, rfl⟩

theorem keepsBlocks_of_mem_open {flags : List TagValue} {renderMarkdown : Bool} {files : FileTree}
    {libraries : Libraries} {paths : List Path} {stdin : StandardInput} {origin : Origin}
    {d : Document}
    (h : (origin, .ok d) ∈ open_ (flagOptions flags renderMarkdown files libraries) paths stdin) :
    KeepsBlocks d (keepsLast flags) := by
  obtain ⟨hfilter, hregistry, hkeep⟩ := options_of_mem_open h
  obtain ⟨filter, hread, haccepts⟩ := exists_filter libraries.patterns flags
  replace hfilter : d.options.fullFilter = .ok filter := by
    rw [hfilter, Options.fullFilter, flagOptions, hread]
    rfl
  obtain ⟨bs, hbs, hperm⟩ := (Document.isSettled_parsed d filter .builtin).exists_blocks
  refine ⟨_, _, bs, Document.parse_eq hfilter hregistry, hbs, ?_⟩
  rw [Document.keptBlocks, Document.readings, haccepts, List.map_map, hkeep,
    List.filter_eq_self.mpr fun _ _ =>
      (rfl : (flagOptions flags renderMarkdown files libraries).keep _ = _)] at hperm
  exact hperm

/-- **Of the flags for one tag, only the last counts.**  A run of `parse` with neither a
configuration file nor variables depends on its flags by the rules that they make up.  It opens the
files that it is given or the standard input, and what it keeps of each source are the comments in
which every tag that a flag names has the last value given for it.  Such a comment has one of the
values given for each tag, and if no tag is given two of them these are all comments that do. -/
theorem run_filterTags {args : List String} {a : Arguments} {paths : List Path}
    {format : OutputFormat} {flags : List TagValue} {renderMarkdown strict : Bool}
    (hargs : Arguments.parse args = .ok a)
    (hcommand : a.command = .parse paths format flags renderMarkdown strict)
    (hconfig : a.config = none) {files : FileTree}
    (hfiles : ∀ p ∈ Configuration.defaultFiles, files.isFile p = false)
    {environment : List (String × String)}
    (hvariables : ∀ p ∈ environment, Environment.layerOf? p.1 p.2 = none) (stdin : StandardInput)
    (libraries : Libraries) :
    run args files stdin environment libraries =
      (runParse (flagOptions flags renderMarkdown files libraries) paths stdin format strict).map
        (⟨·, a.verbose, a.quiet, a.noColor⟩) ∧
    (open_ (flagOptions flags renderMarkdown files libraries) paths stdin).map (·.2.toOption) =
      sourcesOf (flagOptions flags renderMarkdown files libraries) paths stdin ∧
    (∀ origin d,
      (origin, .ok d) ∈ open_ (flagOptions flags renderMarkdown files libraries) paths stdin →
      KeepsBlocks d (keepsLast flags)) ∧
    (∀ comment, keepsLast flags comment = true → keepsAny flags comment = true) ∧
    ((∀ f ∈ flags, ∀ g ∈ flags, f.tag = g.tag → f.value = g.value) →
      keepsLast flags = keepsAny flags) := by
  refine ⟨?_, map_toOption_open _ _ _, fun _ _ => keepsBlocks_of_mem_open,
    fun _ => keepsAny_of_keepsLast, keepsLast_eq_keepsAny⟩
  obtain ⟨verbose, quiet, noColor, config, command⟩ := a
  obtain rfl : config = none := hconfig
  obtain rfl : command = .parse paths format flags renderMarkdown strict := hcommand
  rw [run, hargs]
  simp only [Except.mapError, bind, Except.bind, Configuration.load_of_flags hfiles hvariables,
    Command.flags, flagOptions]
  generalize runParse _ paths stdin format strict = r
  cases r <;> rfl

/-- Two comments with different values of a tag, and the flags that ask for both of them. -/
def twoStatuses : String :=
  "/**\n * @name a\n * @status beta\n */\n/**\n * @name b\n * @status wip\n */"

def bothStatuses : List TagValue := [⟨"status", "beta"⟩, ⟨"status", "wip"⟩]

theorem parse_bothStatuses :
    Arguments.parse ["parse", "--filter-tag=status=beta", "--filter-tag=status=wip"] =
      .ok ⟨false, false, false, none, .parse [] .json bothStatuses false false⟩ := by
  have hflags : List.Forall₂ (fun raw t => TagValue.parse raw = .ok t)
      ["status=beta", "status=wip"] bothStatuses := .cons (by cbv) (.cons (by cbv) .nil)
  exact parse_filterTags hflags

theorem filter_keepsLast_twoStatuses :
    (Comment.comments twoStatuses).filter (keepsLast bothStatuses) =
      ["/**\n * @name b\n * @status wip\n */"] := by
  decide +kernel

theorem isFile_empty : ∀ p ∈ Configuration.defaultFiles, FileTree.isFile ⟨[]⟩ p = false := by
  decide +kernel

/-- The second flag takes the place of the first one. -/
theorem run_filterTags_twoStatuses :
    run ["parse", "--filter-tag=status=beta", "--filter-tag=status=wip"] ⟨[]⟩ twoStatuses [] {} =
      (runParse (flagOptions bothStatuses false ⟨[]⟩ {}) [] twoStatuses .json false).map
        (⟨·, false, false, false⟩) ∧
    KeepsBlocks ⟨twoStatuses, flagOptions bothStatuses false ⟨[]⟩ {}, none⟩
      (keepsLast bothStatuses) ∧
    (Comment.comments twoStatuses).filter (keepsLast bothStatuses) =
      ["/**\n * @name b\n * @status wip\n */"] := by
  obtain ⟨hrun, -, hkeeps, -⟩ :=
    run_filterTags parse_bothStatuses rfl rfl isFile_empty (List.forall_mem_nil _) twoStatuses {}
  exact ⟨hrun, hkeeps _ _ List.mem_cons_self, filter_keepsLast_twoStatuses⟩

/-- A comment can be dropped that has one of the values given for its tag. -/
theorem not_forall_keepsAny :
    ¬∀ (args : List String) (a : Arguments) (paths : List Path) (format : OutputFormat)
      (flags : List TagValue) (renderMarkdown strict : Bool) (files : FileTree)
      (libraries : Libraries) (stdin : StandardInput) (origin : Origin) (d : Document),
      Arguments.parse args = .ok a →
      a.command = .parse paths format flags renderMarkdown strict → a.config = none →
      (∀ p ∈ Configuration.defaultFiles, files.isFile p = false) →
      (origin, .ok d) ∈ open_ (flagOptions flags renderMarkdown files libraries) paths stdin →
      KeepsBlocks d (keepsAny flags) := by
  intro h
  have hopen : (.standardInput, .ok ⟨twoStatuses, flagOptions bothStatuses false ⟨[]⟩ {}, none⟩) ∈
      open_ (flagOptions bothStatuses false ⟨[]⟩ {}) [] twoStatuses := List.mem_cons_self
  obtain ⟨d₁, failures₁, bs₁, hparse₁, hbs₁, hany⟩ :=
    h _ _ [] .json bothStatuses false false ⟨[]⟩ {} twoStatuses _ _ parse_bothStatuses rfl rfl
      isFile_empty hopen
  obtain ⟨d₂, failures₂, bs₂, hparse₂, hbs₂, hlast⟩ := keepsBlocks_of_mem_open hopen
  -- both say what the blocks of the one parsed document are
  obtain ⟨rfl, -⟩ := Prod.mk.inj (Except.ok.inj (hparse₁.symm.trans hparse₂))
  obtain rfl := Option.some.inj (hbs₁.symm.trans hbs₂)
  have hlength := (hany.symm.trans hlast).length_eq
  rw [filter_keepsLast_twoStatuses, List.length_map] at hlength
  have htwo : ((Comment.comments twoStatuses).filter (keepsAny bothStatuses)).length = 2 := by
    decide +kernel
  rw [htwo] at hlength
  cases hlength

end CommandLine

end DocComment
