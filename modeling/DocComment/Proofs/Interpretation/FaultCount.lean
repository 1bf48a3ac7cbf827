/-
How often a run fails.

A run fails at each tag that it reaches and that cannot be interpreted, and at each value that it
takes into the record and that cannot be rendered.  Both are found without looking at what the run
reports: `reached` lists the tags that the run does not pass over, `taken` the values that it takes,
as the tags hand them out.  `faultCount` counts the two kinds of faults.

The count goes along a run (`Tallies`, carried through a key, a tag and a run), and
`length_failures_ofEntries` says that a run reports so many failures, neither more nor less.
-/
import DocComment.Proofs.Interpretation.FirstWriter
import DocComment.Proofs.Interpretation.Isolation
import DocComment.Proofs.Interpretation.Keys

namespace DocComment.Interpretation

variable (registry : Registry) (ctx : Context) (raw : String)

/-- The tags that a run reaches from the record `r` on: neither private nor there as keys. -/
def reached : Record → Entries → Entries
  | _, [] => []
  | r, p :: es =>
    let rest := reached (addTag registry ctx raw ⟨r, []⟩ p).record es
    if Keyed.contains r p.1 || isPrivate p.1 then rest else p :: rest

/-- The values that the tags hand out, the first one under each key. -/
def taken (m : Record) (es : Entries) : Record :=
  (es.flatMap (contribution registry ctx)).foldl (fun m p => Keyed.insertNew m p.1 p.2) m

/-- The value is to be rendered and cannot be. -/
def failsToRender (p : String × Value) : Bool :=
  ctx.renderMarkdown &&
    match p.2.renderAt ctx [p.1] with
    | .ok _ => false
    | .error _ => true

/-- The tags of a comment that cannot be interpreted and the values that cannot be rendered. -/
def faultCount (es : Entries) : Nat :=
  (reached registry ctx raw [] es).countP (fails registry ctx) +
    (taken registry ctx [] (reached registry ctx raw [] es)).countP (failsToRender ctx)

variable {registry ctx raw}

theorem taken_cons (m : Record) (p : String × List Entry) (es : Entries) :
    taken registry ctx m (p :: es) =
      taken registry ctx
        ((contribution registry ctx p).foldl (fun m p => Keyed.insertNew m p.1 p.2) m) es := by
  rw [taken, List.flatMap_cons, List.foldl_append, taken]

/-- A run that reports `faults` tags and the values of `m` that cannot be rendered, where `m` has the
keys of its record with the values as they were handed out. -/
structure Tallies (ctx : Context) (faults : Nat) (m : Record) (i : Interpretation) : Prop where
  keys_eq : Keyed.keys m = Keyed.keys i.record
  length_eq : i.failures.length = faults + m.countP (failsToRender ctx)

namespace Tallies

variable {faults : Nat} {m : Record} {i : Interpretation}

theorem addKey (h : Tallies ctx faults m i) (p : String × Value) :
    Tallies ctx faults (Keyed.insertNew m p.1 p.2) (addKey ctx raw i p) := by
  obtain ⟨key, value⟩ := p
  have hcontains : Keyed.contains m key = Keyed.contains i.record key :=
    Keyed.contains_congr h.keys_eq key
  have hkeys : Keyed.keys (Keyed.insertNew m key value) =
      Keyed.keys (Interpretation.addKey ctx raw i (key, value)).record := by
    rw [Keyed.keys_insertNew, keys_addKey, hcontains, h.keys_eq]
  refine ⟨hkeys, ?_⟩
  cases hkey : Keyed.contains i.record key with
  | true =>
    rw [Keyed.insertNew, hcontains, hkey, if_pos rfl, Interpretation.addKey, if_pos hkey]
    exact h.length_eq
  | false =>
    -- a new key; it is reported just if its value is to be rendered and cannot be
    rw [Keyed.insertNew, hcontains, hkey, if_neg Bool.false_ne_true, List.countP_append,
      List.countP_singleton, ← Nat.add_assoc, ← h.length_eq, failsToRender,
      Interpretation.addKey, hkey, if_neg Bool.false_ne_true]
    cases hrender : ctx.renderMarkdown with
    | false => rfl
    | true =>
      cases hvalue : value.renderAt ctx [key] with
      | ok rendered => rfl
      | error cause => exact List.length_append

theorem foldl_addKey (h : Tallies ctx faults m i) (ps : Record) :
    Tallies ctx faults (ps.foldl (fun m p => Keyed.insertNew m p.1 p.2) m)
      (ps.foldl (Interpretation.addKey ctx raw) i) := by
  induction ps generalizing m i with
  | nil => exact h
  | cons p ps ih => exact ih (h.addKey p)

/-- A tag that is reached is one fault more if it cannot be interpreted, and hands out its values
otherwise. -/
theorem addTag (h : Tallies ctx faults m i) {p : String × List Entry}
    (hreached : (Keyed.contains i.record p.1 || isPrivate p.1) = false) :
    Tallies ctx (faults + if fails registry ctx p then 1 else 0)
      ((contribution registry ctx p).foldl (fun m p => Keyed.insertNew m p.1 p.2) m)
      (addTag registry ctx raw i p) := by
  obtain ⟨tag, es⟩ := p
  rw [addTag_of_reached registry ctx raw es hreached, fails, contribution]
  cases interpreterOf registry tag ctx es with
  | error fault =>
    refine ⟨h.keys_eq, ?_⟩
    show (i.failures ++ [_]).length = faults + 1 + m.countP (failsToRender ctx)
    rw [List.length_append, h.length_eq, List.length_singleton]
    omega
  | ok value =>
    cases value with
    | none => exact h
    | some v => exact h.foldl_addKey (keysOf tag v)

variable (registry raw) in
/-- A whole run. -/
theorem foldl_addTag (h : Tallies ctx faults m i) (es : Entries) :
    Tallies ctx (faults + (reached registry ctx raw i.record es).countP (fails registry ctx))
      (taken registry ctx m (reached registry ctx raw i.record es))
      (es.foldl (Interpretation.addTag registry ctx raw) i) := by
  induction es generalizing faults m i with
  | nil => exact h
  | cons p es ih =>
    -- what a tag does to the record does not depend on the failures before it
    have hrecord : (Interpretation.addTag registry ctx raw i p).record =
        (Interpretation.addTag registry ctx raw ⟨i.record, []⟩ p).record :=
      (appends_addTag registry ctx raw p).record_congr rfl
    cases hskip : Keyed.contains i.record p.1 || isPrivate p.1 with
    | true =>
      have hsame : Interpretation.addTag registry ctx raw i p = i :=
        addTag_of_skipped registry ctx raw p.2 hskip
      rw [reached, ← hrecord, List.foldl_cons, hskip, hsame, if_pos rfl]
      exact ih h
    | false =>
      rw [reached, ← hrecord, List.foldl_cons, hskip, if_neg Bool.false_ne_true, List.countP_cons,
        taken_cons, Nat.add_comm (List.countP _ _), ← Nat.add_assoc]
      exact ih (h.addTag hskip)

end Tallies

/-- A run reports as many failures as there are faults in the comment. -/
theorem length_failures_ofEntries (es : Entries) :
    (ofEntries registry ctx raw es).failures.length = faultCount registry ctx raw es := by
  have hstart : Tallies ctx 0 [] {} := ⟨rfl, rfl⟩
  have hrun := (hstart.foldl_addTag registry raw es).length_eq
  rwa [Nat.zero_add] at hrun

end DocComment.Interpretation
