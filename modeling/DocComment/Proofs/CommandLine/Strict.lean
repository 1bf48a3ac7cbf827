/-
What strict mode does.

Parsing reports failures as it goes from source to source, comment to comment and tag to tag, and
strict mode looks at them only when all is done.  `faultCount` counts the faults of the files, or of
the standard input if there are none, in their texts: it neither opens nor parses anything.
`length_failures_of_foldlM_addSource` finds these faults again in what a run over all sources
reports.

* `runParse_strict` — a strict run ends as the other one does, unless that one succeeds and there are
  faults; then it is refused with their number.
-/
import DocComment.Proofs.CommandLine.Sources
import DocComment.Proofs.Interpretation.FaultCount
import Mathlib.Algebra.Ring.Nat

namespace DocComment

/-- The faults of the text's comments that pass all rules; none is looked for if the matchers or the
aliases are refused. -/
def Document.faultCount (d : Document) : Nat :=
  match TagFilter.ofMembers d.options.settings.filterByTag d.options.patterns,
      d.options.registry.withAliases d.options.settings.tags with
  | .ok filter, .ok registry =>
    (((Comment.comments d.source).filter (filter.merge d.options.tagFilter).accepts).map
      fun comment =>
        Interpretation.faultCount registry d.options.context (Comment.normalize comment)
          (Comment.entries comment)).sum
  | _, _ => 0

namespace Document

theorem length_failures_ofComment (registry : Registry) (ctx : Context) (comment : String) :
    (Block.ofComment registry ctx comment).2.length =
      Interpretation.faultCount registry ctx (Comment.normalize comment)
        (Comment.entries comment) := by
  rw [← Interpretation.length_failures_ofEntries]
  simp only [Block.ofComment, Comment.entries, Entries.interpret]

/-- Parsing a document reports its faults. -/
theorem length_failures_of_parse {d d' : Document} {failures : List TagFailure}
    (h : d.parse = .ok (d', failures)) : failures.length = d.faultCount := by
  obtain ⟨filter, registry, hfilter, hregistry, -, rfl⟩ := exists_of_parse_eq_ok h
  obtain ⟨written, hwritten, rfl⟩ := Options.fullFilter_eq_ok_iff.mp hfilter
  have haliases := Options.fullRegistry_eq_ok_iff.mp hregistry
  have hcount : d.faultCount =
      (((Comment.comments d.source).filter (written.merge d.options.tagFilter).accepts).map
        fun comment =>
          Interpretation.faultCount registry d.options.context (Comment.normalize comment)
            (Comment.entries comment)).sum := by
    rw [faultCount, hwritten, haliases]
  rw [hcount, reported, readings, List.length_flatMap, List.map_map]
  refine congrArg List.sum (List.map_congr_left fun comment _ => ?_)
  rw [Function.comp_apply, length_failures_ofComment]

end Document

namespace CommandLine

/-- The faults of all files, or of the standard input if there are none. -/
def faultCount (o : Options) (files : List Path) (stdin : StandardInput) : Nat :=
  ((sourcesOf o files stdin).map fun d? => d?.elim 0 Document.faultCount).sum

/-- The faults of sources that are opened. -/
def openedFaultCount (opened : List (Origin × Except Failure Document)) : Nat :=
  (opened.map fun source => source.2.toOption.elim 0 Document.faultCount).sum

theorem openedFaultCount_open (o : Options) (files : List Path) (stdin : StandardInput) :
    openedFaultCount (open_ o files stdin) = faultCount o files stdin := by
  rw [faultCount, ← map_toOption_open, List.map_map]
  rfl

/-- A source that is opened and parsed reports its faults behind what was reported before. -/
theorem length_failures_of_addSource {done done' : List Source × List TagFailure}
    {source : Origin × Except Failure Document} (h : addSource done source = .ok done') :
    done'.2.length = done.2.length + openedFaultCount [source] := by
  obtain ⟨origin, opened⟩ := source
  obtain ⟨d, d', more, rfl, hparse, rfl⟩ := addSource_eq_ok_iff.mp h
  have hsource : openedFaultCount [(origin, .ok d)] = d.faultCount := by
    rw [openedFaultCount, List.map_singleton, List.sum_singleton]
    rfl
  rw [List.length_append, Document.length_failures_of_parse hparse, hsource]

/-- Parsing one source after the other reports the faults of all. -/
theorem length_failures_of_foldlM_addSource {opened : List (Origin × Except Failure Document)}
    {done done' : List Source × List TagFailure}
    (h : opened.foldlM addSource done = .ok done') :
    done'.2.length = done.2.length + openedFaultCount opened := by
  induction opened generalizing done with
  | nil =>
    obtain rfl : done = done' := Except.ok.inj h
    rfl
  | cons source opened ih =>
    rw [List.foldlM_cons] at h
    cases hstep : addSource done source with
    | error e =>
      rw [hstep] at h
      cases h
    | ok next =>
      rw [hstep] at h
      have hcons : openedFaultCount (source :: opened) =
          openedFaultCount [source] + openedFaultCount opened := by
        simp [openedFaultCount]
      rw [ih h, length_failures_of_addSource hstep, hcons, Nat.add_assoc]

/-- **Strict mode only turns faults into a failure.**  Where the other mode fails, strict mode fails
in the same way, also if the standard input cannot be read.  Where it prints something, strict mode
prints the same if no tag of any source failed to be interpreted and no value to be rendered, and
otherwise fails with their number. -/
theorem runParse_strict (o : Options) (files : List Path) (stdin : StandardInput)
    (format : OutputFormat) :
    runParse o files stdin format true =
      match runParse o files stdin format false with
      | .error e => .error e
      | .ok output =>
        if faultCount o files stdin = 0 then .ok output
        else .error (.tags (faultCount o files stdin)) := by
  rw [runParse, runParse]
  cases hparse : parseAll (open_ o files stdin) with
  | error e => rfl
  | ok result =>
    obtain ⟨sources, failures⟩ := result
    have hlength : failures.length = faultCount o files stdin := by
      rw [parseAll_eq] at hparse
      rw [← openedFaultCount_open]
      simpa using length_failures_of_foldlM_addSource hparse
    simp only [Except.mapError, bind, Except.bind]
    cases render format sources with
    | error e => rfl
    | ok output =>
      rw [← hlength]
      -- both modes have the output by now, and only strict mode looks at the failures
      cases failures with
      | nil => rfl
      | cons failure failures => rfl

/-- A comment with one tag that cannot be interpreted, for its type is left open. -/
def openType : String := "/**\n * @param \x7bString  name  broken type\n */"

def openTypes : FileTree := ⟨[(["a.ts"], .text openType), (["b.ts"], .text openType)]⟩

def unreadable : StandardInput := .error (.document (.unreadableSource .standardInput))

/-- The faults of two files add up; a standard input that cannot be read matters only to a run
without files. -/
theorem runParse_strict_openTypes :
    let o : Options := { files := openTypes }
    (∃ output, runParse o [⟨"a.ts"⟩, ⟨"b.ts"⟩] unreadable .json false = .ok output) ∧
      runParse o [⟨"a.ts"⟩, ⟨"b.ts"⟩] unreadable .json true = .error (.tags 2) ∧
      runParse o [] unreadable .json true =
        .error (.document (.unreadableSource .standardInput)) := by
  intro o
  have hcount : faultCount o [⟨"a.ts"⟩, ⟨"b.ts"⟩] unreadable = 2 := by decide +kernel
  have hprinted : (runParse o [⟨"a.ts"⟩, ⟨"b.ts"⟩] unreadable .json false).toOption.isSome := by
    decide +kernel
  obtain ⟨output, houtput⟩ := Option.isSome_iff_exists.mp hprinted
  rw [Document.toOption_eq_some_iff] at houtput
  have hstrict := runParse_strict o [⟨"a.ts"⟩, ⟨"b.ts"⟩] unreadable .json
  rw [houtput, hcount] at hstrict
  exact ⟨⟨output, houtput⟩, hstrict, runParse_strict o [] unreadable .json⟩

end CommandLine

end DocComment
