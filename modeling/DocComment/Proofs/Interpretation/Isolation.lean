/-
A tag that fails is alone in it.

`log` lists, for the tags of a run in their order, the failures that each of them adds.  A tag whose
interpreter fails leaves the record as it is, so the tags after it see what they would see without
it.  The run without the failing tags has the same record (`record_foldl_withoutFailing`), and its
log is the same but for their places (`log_withoutFailing`).  Those hold the fault of the tag if the
tag was reached, and nothing otherwise.

* `interpret_isolates` puts this together.
-/
import DocComment.Proofs.Interpretation.Run

namespace DocComment.Interpretation

variable (registry : Registry) (ctx : Context) (raw : String)

/-- The tag cannot be interpreted. -/
def fails (p : String × List Entry) : Bool :=
  match interpreterOf registry p.1 ctx p.2 with
  | .ok _ => false
  | .error _ => true

/-- The entries without the tags that cannot be interpreted. -/
def withoutFailing (es : Entries) : Entries := es.filter fun p => !fails registry ctx p

theorem fails_iff {p : String × List Entry} :
    fails registry ctx p = true ↔ ∃ fault, interpreterOf registry p.1 ctx p.2 = .error fault := by
  unfold fails
  cases interpreterOf registry p.1 ctx p.2 with
  | ok v => simp
  | error fault => simp

/-- All that a failing tag does. -/
theorem addTag_of_error {tag : String} {es : List Entry} {fault : Fault}
    (h : interpreterOf registry tag ctx es = .error fault) (i : Interpretation) :
    addTag registry ctx raw i (tag, es) =
      ⟨i.record, i.failures ++
        if Keyed.contains i.record tag || isPrivate tag then [] else [⟨tag, raw, fault⟩]⟩ := by
  cases hskip : Keyed.contains i.record tag || isPrivate tag with
  | true =>
    rw [addTag_of_skipped registry ctx raw es hskip, if_pos rfl, List.append_nil]
  | false =>
    rw [addTag_of_reached registry ctx raw es hskip, h]
    rfl

theorem record_addTag_of_fails {p : String × List Entry} (h : fails registry ctx p = true)
    (i : Interpretation) : (addTag registry ctx raw i p).record = i.record := by
  obtain ⟨fault, hfault⟩ := (fails_iff registry ctx).mp h
  rw [show p = (p.1, p.2) from rfl, addTag_of_error registry ctx raw hfault]

/-! ### The log of a run -/

/-- What each tag of a run reports, from the record `r` on. -/
def log : Record → Entries → List ((String × List Entry) × List TagFailure)
  | _, [] => []
  | r, p :: es =>
    let i := addTag registry ctx raw ⟨r, []⟩ p
    (p, i.failures) :: log i.record es

/-- The log has the tags of the run, in their order. -/
theorem map_fst_log (r : Record) (es : Entries) :
    (log registry ctx raw r es).map Prod.fst = es := by
  induction es generalizing r with
  | nil => rfl
  | cons p es ih => rw [log, List.map_cons, ih]

/-- A run reports what its log says. -/
theorem failures_foldl (r : Record) (earlier : List TagFailure) (es : Entries) :
    (es.foldl (addTag registry ctx raw) ⟨r, earlier⟩).failures =
      earlier ++ (log registry ctx raw r es).flatMap Prod.snd := by
  induction es generalizing r earlier with
  | nil => rw [log, List.flatMap_nil, List.append_nil, List.foldl_nil]
  | cons p es ih =>
    have hstep : addTag registry ctx raw ⟨r, earlier⟩ p =
        ⟨(addTag registry ctx raw ⟨r, []⟩ p).record,
          earlier ++ (addTag registry ctx raw ⟨r, []⟩ p).failures⟩ :=
      (appends_addTag registry ctx raw p).eq_frame r earlier
    rw [List.foldl_cons, hstep, ih, log, List.flatMap_cons, List.append_assoc]

theorem failures_ofEntries (es : Entries) :
    (ofEntries registry ctx raw es).failures = (log registry ctx raw [] es).flatMap Prod.snd :=
  failures_foldl registry ctx raw [] [] es

/-- The log of a run that goes on. -/
theorem log_append (r : Record) (es es' : Entries) :
    log registry ctx raw r (es ++ es') =
      log registry ctx raw r es ++
        log registry ctx raw (es.foldl (addTag registry ctx raw) ⟨r, []⟩).record es' := by
  induction es generalizing r with
  | nil => rfl
  | cons p es ih =>
    -- the rest of the run starts with the failures of `p`, and its record does not see them
    have hrest : (es.foldl (addTag registry ctx raw) (addTag registry ctx raw ⟨r, []⟩ p)).record =
        (es.foldl (addTag registry ctx raw)
          ⟨(addTag registry ctx raw ⟨r, []⟩ p).record, []⟩).record :=
      (appends_foldl_addTag registry ctx raw es).record_congr rfl
    rw [List.cons_append, log, ih, log, List.cons_append, List.foldl_cons, hrest]

/-- The part of a log before a tag is the log of the run up to that tag. -/
theorem log_of_append {es : Entries} {pre post : List ((String × List Entry) × List TagFailure)}
    (h : log registry ctx raw [] es = pre ++ post) :
    pre = log registry ctx raw [] (pre.map Prod.fst) ∧
      post = log registry ctx raw (ofEntries registry ctx raw (pre.map Prod.fst)).record
        (post.map Prod.fst) := by
  have hes : es = pre.map Prod.fst ++ post.map Prod.fst := by
    rw [← List.map_append, ← h, map_fst_log]
  rw [hes, log_append] at h
  have hlen : (log registry ctx raw [] (pre.map Prod.fst)).length = pre.length := by
    have := congrArg List.length (map_fst_log registry ctx raw [] (pre.map Prod.fst))
    rwa [List.length_map, List.length_map] at this
  obtain ⟨hpre, hpost⟩ := List.append_inj h hlen
  exact ⟨hpre.symm, hpost.symm⟩

/-! ### The run without the failing tags -/

theorem record_foldl_withoutFailing (i j : Interpretation) (h : i.record = j.record)
    (es : Entries) :
    (es.foldl (addTag registry ctx raw) i).record =
      ((withoutFailing registry ctx es).foldl (addTag registry ctx raw) j).record := by
  unfold withoutFailing
  induction es generalizing i j with
  | nil => exact h
  | cons p es ih =>
    rw [List.foldl_cons]
    cases hp : fails registry ctx p with
    | true =>
      rw [List.filter_cons_of_neg (by simp [hp])]
      exact ih _ _ ((record_addTag_of_fails registry ctx raw hp i).trans h)
    | false =>
      rw [List.filter_cons_of_pos (by simp [hp]), List.foldl_cons]
      -- both runs are at the same record, and the step sees no more than that
      exact ih _ _ ((appends_addTag registry ctx raw p).record_congr h)

theorem log_withoutFailing (r : Record) (es : Entries) :
    log registry ctx raw r (withoutFailing registry ctx es) =
      (log registry ctx raw r es).filter fun x => !fails registry ctx x.1 := by
  unfold withoutFailing
  induction es generalizing r with
  | nil => rfl
  | cons p es ih =>
    rw [log]
    cases hp : fails registry ctx p with
    | true =>
      rw [List.filter_cons_of_neg (by simp [hp]), List.filter_cons_of_neg (by simp [hp]), ih,
        record_addTag_of_fails registry ctx raw hp]
    | false =>
      rw [List.filter_cons_of_pos (by simp [hp]), List.filter_cons_of_pos (by simp [hp]), log, ih]

/-- **A failing tag is isolated.**  The run without the failing tags ends in the same record.  A
list of the failures, tag by tag and in order, tells both runs: the one reports all of it, the other
all but what stands there for the failing tags.  That is one failure for each of them, with its name,
the comment and the fault, if the tag was reached, and none if it was passed over. -/
theorem interpret_isolates (es : Entries) :
    (es.interpret registry ctx raw).record =
      ((withoutFailing registry ctx es).interpret registry ctx raw).record ∧
    ∃ reports : List ((String × List Entry) × List TagFailure),
      reports.map Prod.fst = es ∧
      (es.interpret registry ctx raw).failures = reports.flatMap Prod.snd ∧
      ((withoutFailing registry ctx es).interpret registry ctx raw).failures =
        (reports.filter fun x => !fails registry ctx x.1).flatMap Prod.snd ∧
      ∀ pre tag occurrences reported post,
        reports = pre ++ ((tag, occurrences), reported) :: post →
        (ofEntries registry ctx raw (pre.map Prod.fst)).failures = pre.flatMap Prod.snd ∧
        ∀ fault, interpreterOf registry tag ctx occurrences = .error fault →
          reported =
            if Keyed.contains (ofEntries registry ctx raw (pre.map Prod.fst)).record tag ||
              isPrivate tag then [] else [⟨tag, raw, fault⟩] := by
  have hrecord := record_foldl_withoutFailing registry ctx raw {} {} rfl es
  refine ⟨congrArg (fun r => Record.complete r raw) hrecord, log registry ctx raw [] es,
    map_fst_log registry ctx raw [] es, failures_ofEntries registry ctx raw es, ?_, ?_⟩
  · rw [← log_withoutFailing]
    exact failures_ofEntries registry ctx raw _
  · intro pre tag occurrences reported post hlog
    obtain ⟨hpre, hpost⟩ := log_of_append registry ctx raw hlog
    refine ⟨?_, ?_⟩
    · rw [failures_ofEntries, ← hpre]
    · intro fault hfault
      rw [List.map_cons, log] at hpost
      have hreported := (Prod.mk.inj (List.cons.inj hpost).1).2
      rw [hreported, addTag_of_error registry ctx raw hfault]
      rfl

/-- The second of three tags fails. -/
def failingSample : Entries :=
  [("name", [⟨"name", some "sibling", []⟩]), ("status", [⟨"status", some "beta", []⟩]),
    ("since", [⟨"since", some "1.0.0", []⟩])]

/-- The registry of `failingSample`. -/
def failingRegistry : Registry := [("status", fun _ _ => .error (.worded ["status exploded"]))]

/-- In `failingSample` the second tag is reached, so it has its failure. -/
theorem interpret_isolates_failingSample :
    (failingSample.interpret failingRegistry { renderer := .plain } "").record =
        (Entries.interpret failingRegistry { renderer := .plain } ""
          (failingSample.eraseIdx 1)).record ∧
      (⟨"status", "", .worded ["status exploded"]⟩ : TagFailure) ∈
        (failingSample.interpret failingRegistry { renderer := .plain } "").failures := by
  obtain ⟨hrecord, reports, htags, hfailures, -, hreport⟩ :=
    interpret_isolates failingRegistry { renderer := .plain } "" failingSample
  refine ⟨hrecord, ?_⟩
  obtain ⟨⟨p, f⟩, rest, rfl, rfl, hrest⟩ := List.map_eq_cons_iff.mp htags
  obtain ⟨⟨q, g⟩, post, rfl, rfl, -⟩ := List.map_eq_cons_iff.mp hrest
  have hg := (hreport [(("name", [⟨"name", some "sibling", []⟩]), f)] "status" _ g post rfl).2
    (.worded ["status exploded"]) rfl
  have hreached : (Keyed.contains (ofEntries failingRegistry { renderer := .plain } ""
      (failingSample.take 1)).record "status" || isPrivate "status") = false := by decide
  rw [hfailures, hg.trans (if_neg (Bool.eq_false_iff.mp hreached))]
  simp

end DocComment.Interpretation
