/-
Runs of the interpretation.

Every step of a run, and so every run, only appends: to the record and to the failures, and what it
appends depends on the record alone (`Appends`).  Steps are put together from smaller ones by
`Appends.foldl`, so this is said once, for a single key (`appends_addKey`), and carried up to the
tags (`appends_addTag`) and to whole runs (`appends_foldl_addTag`).

* `Appends.prefix_record` — nothing in a record is ever overwritten, taken away or moved;
* `Appends.eq_frame` — earlier failures ride along;
* `ofEntries_singleton` — one tag alone.
-/
import DocComment.Interpretation
import DocComment.Proofs.Keyed

namespace DocComment.Interpretation

/-- The step appends to the record and to the failures, and what it appends depends on the record
alone. -/
def Appends (step : Interpretation → Interpretation) : Prop :=
  ∀ r : Record, ∃ (added : Record) (fs : List TagFailure), ∀ earlier : List TagFailure,
    step ⟨r, earlier⟩ = ⟨r ++ added, earlier ++ fs⟩

namespace Appends

variable {step : Interpretation → Interpretation}

theorem prefix_record (h : Appends step) (i : Interpretation) :
    i.record <+: (step i).record := by
  obtain ⟨r, earlier⟩ := i
  obtain ⟨added, fs, hstep⟩ := h r
  rw [hstep]
  exact List.prefix_append r added

/-- Earlier failures ride along: the step does what it does without them, behind them. -/
theorem eq_frame (h : Appends step) (r : Record) (earlier : List TagFailure) :
    step ⟨r, earlier⟩ = ⟨(step ⟨r, []⟩).record, earlier ++ (step ⟨r, []⟩).failures⟩ := by
  obtain ⟨added, fs, hstep⟩ := h r
  rw [hstep, hstep]
  rfl

/-- The record after a step depends on the record before it and on nothing else. -/
theorem record_congr (h : Appends step) {i j : Interpretation} (hij : i.record = j.record) :
    (step i).record = (step j).record := by
  obtain ⟨r, earlier⟩ := i
  obtain ⟨r', earlier'⟩ := j
  obtain rfl : r = r' := hij
  obtain ⟨added, fs, hstep⟩ := h r
  rw [hstep, hstep]

theorem refl : Appends fun i => i := fun _ =>
  ⟨[], [], fun _ => by rw [List.append_nil, List.append_nil]⟩

theorem foldl {α : Type} {step : Interpretation → α → Interpretation}
    (h : ∀ a, Appends fun i => step i a) (as : List α) : Appends fun i => as.foldl step i := by
  induction as with
  | nil => exact refl
  | cons a as ih =>
    intro r
    obtain ⟨added, fs, hstep⟩ := h a r
    obtain ⟨added', fs', hrest⟩ := ih (r ++ added)
    refine ⟨added ++ added', fs ++ fs', fun earlier => ?_⟩
    calc as.foldl step (step ⟨r, earlier⟩ a)
      _ = as.foldl step ⟨r ++ added, earlier ++ fs⟩ :=
        congrArg (fun i => as.foldl step i) (hstep earlier)
      _ = ⟨r ++ added ++ added', earlier ++ fs ++ fs'⟩ := hrest (earlier ++ fs)
      _ = ⟨r ++ (added ++ added'), earlier ++ (fs ++ fs')⟩ := by
        rw [List.append_assoc, List.append_assoc]

end Appends

theorem appends_addKey (ctx : Context) (raw : String) (p : String × Value) :
    Appends fun i => addKey ctx raw i p := by
  obtain ⟨key, value⟩ := p
  intro r
  by_cases hkey : Keyed.contains r key = true
  · refine ⟨[], [], fun earlier => ?_⟩
    simp [addKey, hkey]
  by_cases hrender : ctx.renderMarkdown = true
  · cases hvalue : value.renderAt ctx [key] with
    | ok rendered =>
      refine ⟨[(key, rendered)], [], fun earlier => ?_⟩
      simp [addKey, hkey, hrender, hvalue]
    | error cause =>
      refine ⟨[(key, value)], [⟨key, raw, .rendering cause⟩], fun earlier => ?_⟩
      simp [addKey, hkey, hrender, hvalue]
  · refine ⟨[(key, value)], [], fun earlier => ?_⟩
    simp [addKey, hkey, hrender]

variable (registry : Registry) (ctx : Context) (raw : String)

/-- A tag that is passed over: its key is there, or it is private. -/
theorem addTag_of_skipped {i : Interpretation} {tag : String} (es : List Entry)
    (h : (Keyed.contains i.record tag || isPrivate tag) = true) :
    addTag registry ctx raw i (tag, es) = i :=
  if_pos h

/-- A tag that is reached is interpreted. -/
theorem addTag_of_reached {i : Interpretation} {tag : String} (es : List Entry)
    (h : (Keyed.contains i.record tag || isPrivate tag) = false) :
    addTag registry ctx raw i (tag, es) =
      match interpreterOf registry tag ctx es with
      | .ok none => i
      | .ok (some v) => (keysOf tag v).foldl (addKey ctx raw) i
      | .error fault => { i with failures := i.failures ++ [⟨tag, raw, fault⟩] } :=
  if_neg (by simp [h])

theorem appends_addTag (p : String × List Entry) :
    Appends fun i => addTag registry ctx raw i p := by
  obtain ⟨tag, es⟩ := p
  intro r
  cases hskip : Keyed.contains r tag || isPrivate tag with
  | true =>
    refine ⟨[], [], fun earlier => ?_⟩
    show addTag registry ctx raw ⟨r, earlier⟩ (tag, es) = _
    rw [addTag_of_skipped registry ctx raw es hskip, List.append_nil, List.append_nil]
  | false =>
    have hreached := fun earlier =>
      addTag_of_reached registry ctx raw (i := ⟨r, earlier⟩) es hskip
    cases hvalue : interpreterOf registry tag ctx es with
    | error fault =>
      refine ⟨[], [⟨tag, raw, fault⟩], fun earlier => ?_⟩
      simp [hreached, hvalue]
    | ok o =>
      cases o with
      | none =>
        refine ⟨[], [], fun earlier => ?_⟩
        simp [hreached, hvalue]
      | some v =>
        obtain ⟨added, fs, h⟩ := Appends.foldl (appends_addKey ctx raw) (keysOf tag v) r
        refine ⟨added, fs, fun earlier => ?_⟩
        refine (hreached earlier).trans ?_
        rw [hvalue]
        exact h earlier

theorem appends_foldl_addTag (es : Entries) :
    Appends fun i => es.foldl (addTag registry ctx raw) i :=
  Appends.foldl (appends_addTag registry ctx raw) es

theorem ofEntries_append (es es' : Entries) :
    ofEntries registry ctx raw (es ++ es') =
      es'.foldl (addTag registry ctx raw) (ofEntries registry ctx raw es) :=
  foldl_addTag_append registry ctx raw es es' {}

/-- One tag whose value is neither handed out as several keys nor changed by rendering. -/
theorem ofEntries_singleton {tag : String} {es : List Entry} {v : Value}
    (htag : isPrivate tag = false) (hread : interpreterOf registry tag ctx es = .ok (some v))
    (hkeys : keysOf tag v = [(tag, v)])
    (hrender : ctx.renderMarkdown = true → v.renderAt ctx [tag] = .ok v) :
    ofEntries registry ctx raw [(tag, es)] = ⟨[(tag, v)], []⟩ := by
  have hempty : Keyed.contains ([] : Record) tag = false := rfl
  rw [ofEntries, List.foldl_cons, List.foldl_nil,
    addTag_of_reached registry ctx raw es (by rw [hempty, htag]; rfl), hread]
  dsimp only
  rw [hkeys, List.foldl_cons, List.foldl_nil, addKey]
  cases hmarkdown : ctx.renderMarkdown with
  | false => simp [hempty]
  | true => simp [hempty, hrender hmarkdown]

end DocComment.Interpretation
