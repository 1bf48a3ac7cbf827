/-
The sources of a run.

A run of `parse` reads the files that it is given, each under options of its own, or the standard
input if there are none (`sourcesOf`).

* `map_toOption_open` — these are the documents that are opened;
* `parseAll_eq` — parsing them is a fold that takes in one source after the other (`addSource`);
* `addSource_eq_ok_iff` — all that happens when a source is taken in.
-/
import DocComment.CommandLine.Run
import DocComment.Proofs.Document

namespace DocComment.CommandLine

/-- For each source, its text with the options that it is parsed with; none if it cannot be read. -/
def sourcesOf (o : Options) (files : List Path) (stdin : StandardInput) :
    List (Option Document) :=
  match files with
  | [] => [stdin.toOption.map fun text => ⟨text, o, none⟩]
  | _ :: _ => files.map fun p => (o.files.read? p).map fun text => ⟨text, o.forFile p, none⟩

theorem toOption_mapError {ε ε' α : Type} (f : ε → ε') (x : Except ε α) :
    (x.mapError f).toOption = x.toOption := by
  cases x <;> rfl

theorem map_toOption_open (o : Options) (files : List Path) (stdin : StandardInput) :
    (open_ o files stdin).map (·.2.toOption) = sourcesOf o files stdin := by
  cases files with
  | nil => cases stdin <;> rfl
  | cons p files =>
    rw [open_, if_neg (by simp), List.map_map, sourcesOf]
    refine List.map_congr_left fun p _ => ?_
    rw [← Document.toOption_ofPath]
    exact toOption_mapError _ _

/-- Whatever can be opened has the options of the run, but for the path and the package of a file. -/
theorem options_of_mem_sourcesOf {o : Options} {files : List Path} {stdin : StandardInput}
    {d : Document} (h : some d ∈ sourcesOf o files stdin) :
    d.options = o ∨ ∃ p ∈ files, d.options = o.forFile p := by
  unfold sourcesOf at h
  split at h
  · obtain ⟨text, -, rfl⟩ := Option.map_eq_some_iff.mp (List.mem_singleton.mp h).symm
    exact .inl rfl
  · obtain ⟨p, hp, hd⟩ := List.mem_map.mp h
    obtain ⟨text, -, rfl⟩ := Option.map_eq_some_iff.mp hd
    exact .inr ⟨p, hp, rfl⟩

/-- Opens a source, parses it and puts it behind those that are done. -/
def addSource (done : List Source × List TagFailure) (source : Origin × Except Failure Document) :
    Except Failure (List Source × List TagFailure) := do
  let (document, more) ← (← source.2).parse.mapError .document
  return (done.1 ++ [⟨source.1, document⟩], done.2 ++ more)

/-- A source is taken in if it can be opened and parsed, with what parsing reports. -/
theorem addSource_eq_ok_iff {done done' : List Source × List TagFailure} {origin : Origin}
    {opened : Except Failure Document} :
    addSource done (origin, opened) = .ok done' ↔
      ∃ d d' more, opened = .ok d ∧ d.parse = .ok (d', more) ∧
        (done.1 ++ [⟨origin, d'⟩], done.2 ++ more) = done' := by
  cases opened with
  | error e => simp [addSource, bind, Except.bind]
  | ok d =>
    cases hparse : d.parse with
    | error e => simp [addSource, hparse, bind, Except.bind, Except.mapError]
    | ok result =>
      obtain ⟨d', more⟩ := result
      simp [addSource, hparse, bind, Except.bind, Except.mapError, pure, Except.pure]

theorem parseAll_eq (opened : List (Origin × Except Failure Document)) :
    parseAll opened = opened.foldlM addSource ([], []) := rfl

end DocComment.CommandLine
