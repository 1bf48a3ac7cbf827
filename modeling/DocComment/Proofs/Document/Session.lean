/-
Documents in use.

`Session.parse` is `Document.parse` step by step: it reads the configuration, interprets one comment
after the other and reports what fails in each, and gives the document its blocks at the end.  What
was done before a step is refused stays done, so that a refused parse changes nothing is a matter of
the order of the steps.

* `perform_run` — step by step, an action does to the document what it does at once, or it is refused
  and leaves the session as it was;
* `isSome_blocks?_after_iff` — a document has blocks once it was parsed with success;
* `parse_all_or_nothing` puts this together.
-/
import DocComment.Proofs.Document.Refusal

namespace DocComment

open Document (Action)

/-- A document in use, and all that was reported of it. -/
structure Session where
  document : Document
  failures : List TagFailure := []

/-- Steps on a session.  A step that is refused does not take back those before it. -/
abbrev SessionM := ExceptT Error (StateM Session)

namespace Session

def setBlocks (bs : List Block) : SessionM Unit :=
  modify fun s => { s with document := { s.document with blocks? := some bs } }

/-- Interprets a comment and reports what fails in it. -/
def interpret (registry : Registry) (comment : String) : SessionM Block := do
  let s ← get
  let result := Block.ofComment registry s.document.options.context comment
  set { s with failures := s.failures ++ result.2 }
  return result.1

/-- Gives the document its blocks, comment by comment. -/
def parse : SessionM Unit := do
  let s ← get
  let filter ← ofExcept s.document.options.fullFilter
  let registry ← ofExcept s.document.options.fullRegistry
  let blocks ← (Document.candidates filter s.document.source).mapM (interpret registry)
  setBlocks (Document.arrange s.document.options blocks)

def sortWith (compare : Comparator) : SessionM Unit := do
  let bs ← ofExcept (← get).document.blocks
  setBlocks (insertionSort (fun a b => compare a.record b.record) bs)

def perform : Action → SessionM Unit
  | .parse => parse
  | .sort => do sortWith (← get).document.options.order
  | .sortWith compare => sortWith compare

/-! ### One action -/

section Steps

variable {α β : Type} {x : SessionM α} {s s' : Session}

theorem run_bind_of_ok {a : α} (h : x.run s = (.ok a, s')) (f : α → SessionM β) :
    (x >>= f).run s = (f a).run s' := by
  show (match x.run s with | (r, s') => ExceptT.bindCont f r s') = _
  rw [h]
  rfl

theorem run_bind_of_error {e : Error} (h : x.run s = (.error e, s')) (f : α → SessionM β) :
    (x >>= f).run s = (.error e, s') := by
  show (match x.run s with | (r, s') => ExceptT.bindCont f r s') = _
  rw [h]
  rfl

theorem run_ofExcept (r : Except Error α) (s : Session) :
    (ofExcept r : SessionM α).run s = (r, s) := by
  cases r <;> rfl

theorem run_get (s : Session) : (get : SessionM Session).run s = (.ok s, s) := rfl

end Steps

theorem interpret_run (registry : Registry) (comment : String) (s : Session) :
    (interpret registry comment).run s =
      let result := Block.ofComment registry s.document.options.context comment
      (.ok result.1, { s with failures := s.failures ++ result.2 }) :=
  rfl

theorem mapM_interpret_run (registry : Registry) (comments : List String) (s : Session) :
    (comments.mapM (interpret registry)).run s =
      let results := comments.map (Block.ofComment registry s.document.options.context)
      (.ok (results.map Prod.fst),
        { s with failures := s.failures ++ results.flatMap Prod.snd }) := by
  induction comments generalizing s with
  | nil =>
    show (Except.ok [], s) = (Except.ok [], { s with failures := s.failures ++ [] })
    rw [List.append_nil]
  | cons comment comments ih =>
    -- the first comment leaves the options alone, so the others are read as they would be anyway
    rw [List.mapM_cons, run_bind_of_ok (interpret_run registry comment s), run_bind_of_ok (ih _)]
    simp only [List.map_cons, List.flatMap_cons, ← List.append_assoc]
    rfl

theorem parse_run (s : Session) :
    parse.run s =
      match s.document.parse with
      | .ok (d, failures) => (.ok (), ⟨d, s.failures ++ failures⟩)
      | .error e => (.error e, s) := by
  rw [parse, run_bind_of_ok (run_get s), Document.parse]
  cases s.document.options.fullFilter with
  | error e =>
    rw [run_bind_of_error (run_ofExcept _ _)]
    rfl
  | ok filter =>
    rw [run_bind_of_ok (run_ofExcept _ _)]
    cases s.document.options.fullRegistry with
    | error e =>
      rw [run_bind_of_error (run_ofExcept _ _)]
      rfl
    | ok registry =>
      rw [run_bind_of_ok (run_ofExcept _ _), run_bind_of_ok (mapM_interpret_run _ _ _)]
      rfl

theorem sortWith_run (compare : Comparator) (s : Session) :
    (sortWith compare).run s =
      match (s.document.sortWith compare).map (·, []) with
      | .ok (d, failures) => (.ok (), ⟨d, s.failures ++ failures⟩)
      | .error e => (.error e, s) := by
  rw [sortWith, run_bind_of_ok (run_get s), Document.sortWith]
  cases s.document.blocks with
  | error e =>
    rw [run_bind_of_error (run_ofExcept _ _)]
    rfl
  | ok bs =>
    rw [run_bind_of_ok (run_ofExcept _ _)]
    show (Except.ok (), _) = (Except.ok (), Session.mk _ (s.failures ++ []))
    rw [List.append_nil]

theorem perform_run (s : Session) (a : Action) :
    (perform a).run s =
      match s.document.act a with
      | .ok (d, failures) => (.ok (), ⟨d, s.failures ++ failures⟩)
      | .error e => (.error e, s) := by
  cases a with
  | parse => exact parse_run s
  | sort =>
    rw [perform, run_bind_of_ok (run_get s)]
    exact sortWith_run _ s
  | sortWith compare => exact sortWith_run compare s

/-- The session after some actions, done or refused. -/
def after (s : Session) (as : List Action) : Session :=
  as.foldl (fun s a => ((perform a).run s).2) s

theorem parse_run_of_error {s : Session} {e : Error} (h : s.document.parse = .error e) :
    parse.run s = (.error e, s) := by
  rw [parse_run, h]

theorem after_cons (s : Session) (a : Action) (as : List Action) :
    s.after (a :: as) = ((perform a).run s).2.after as := rfl

/-- One action: the document keeps what it is given, and it has blocks then if it had some or was
parsed. -/
theorem perform_run_document (s : Session) (a : Action) :
    ((perform a).run s).2.document.source = s.document.source ∧
      ((perform a).run s).2.document.options = s.document.options ∧
      (((perform a).run s).2.document.blocks?.isSome ↔
        s.document.blocks?.isSome ∨ a = .parse ∧ ∃ r, s.document.parse = .ok r) := by
  rw [perform_run]
  cases hact : s.document.act a with
  | error e =>
    refine ⟨rfl, rfl, Or.inl, ?_⟩
    rintro (h | ⟨rfl, r, hparse⟩)
    · exact h
    · rw [show s.document.parse = _ from hact] at hparse
      cases hparse
  | ok r =>
    obtain ⟨hsource, hoptions, hblocks, hbefore⟩ := Document.of_act_eq_ok hact
    -- with blocks behind it, the action either was parsing or had blocks to work on
    refine ⟨hsource, hoptions, fun _ => ?_, fun _ => hblocks⟩
    by_cases ha : a = .parse
    · subst ha
      exact Or.inr ⟨rfl, r, hact⟩
    · exact Or.inl (hbefore ha)

theorem source_after (s : Session) (as : List Action) :
    (s.after as).document.source = s.document.source := by
  induction as generalizing s with
  | nil => rfl
  | cons a as ih => rw [after_cons, ih, (perform_run_document s a).1]

theorem options_after (s : Session) (as : List Action) :
    (s.after as).document.options = s.document.options := by
  induction as generalizing s with
  | nil => rfl
  | cons a as ih => rw [after_cons, ih, (perform_run_document s a).2.1]

theorem isSome_blocks?_after_iff (s : Session) (as : List Action) :
    (s.after as).document.blocks?.isSome ↔ s.document.blocks?.isSome ∨
      ∃ pre post, as = pre ++ .parse :: post ∧ ∃ r, (s.after pre).document.parse = .ok r := by
  induction as generalizing s with
  | nil => simp [after]
  | cons a as ih =>
    rw [after_cons, ih, (perform_run_document s a).2.2, or_assoc]
    refine or_congr_right ?_
    constructor
    · rintro (⟨rfl, hparse⟩ | ⟨pre, post, rfl, hparse⟩)
      · exact ⟨[], as, rfl, hparse⟩
      · exact ⟨a :: pre, post, rfl, hparse⟩
    · rintro ⟨_ | ⟨b, pre⟩, post, hsplit, hparse⟩
      · obtain ⟨rfl, rfl⟩ := List.cons.inj hsplit
        exact Or.inl ⟨rfl, hparse⟩
      · obtain ⟨rfl, rfl⟩ := List.cons.inj hsplit
        exact Or.inr ⟨pre, post, rfl, hparse⟩

/-- **Parsing is all or nothing.**  Whatever the language of patterns, parsing a document fails just
if its matchers or its aliases are not in order, and then for the first of these, matchers before
aliases.  Nothing has happened then:
the session is as it was, and no other text, interpreter or renderer would have changed the failure.
Whatever is done with a document, it keeps its text and its options, and it refuses all that needs
blocks if it had none and parsing has not succeeded since. -/
theorem parse_all_or_nothing (s : Session) :
    ((∃ e, s.document.parse = .error e) ↔ Document.IsRefused s.document.options) ∧
    (∀ e, s.document.parse = .error e →
      ((∃ pre p, FirstRefused
          (fun _ p e => Matcher.Refused s.document.options.patterns p.1 p.2 e)
          (TagFilter.written s.document.options.settings.filterByTag) pre p e) ∨
        (∀ p ∈ TagFilter.written s.document.options.settings.filterByTag, ∀ e,
          ¬Matcher.Refused s.document.options.patterns p.1 p.2 e) ∧
        ∃ cause, e = .unknownTarget cause ∧ ∃ pre p,
          FirstRefused (Registry.Refuses (Keyed.keys s.document.options.registry))
            s.document.options.settings.tags pre p cause) ∧
      (∃ text, e.configuration? = some text) ∧
      parse.run s = (.error e, s) ∧
      ∀ s' : Session, Document.ConfiguredAlike s.document.options s'.document.options →
        parse.run s' = (.error e, s')) ∧
    ∀ as : List Action,
      (s.after as).document.source = s.document.source ∧
      (s.after as).document.options = s.document.options ∧
      ∀ q, (s.after as).document.answer q = .error (.notParsed .document) ↔
        s.document.blocks? = none ∧
        ¬∃ pre post, as = pre ++ .parse :: post ∧ ∃ r, (s.after pre).document.parse = .ok r := by
  refine ⟨Document.exists_parse_eq_error_iff, ?_, ?_⟩
  · intro e he
    exact ⟨Document.parse_eq_error_iff_firstRefused.mp he,
      Document.exists_configuration?_of_parse he, parse_run_of_error he,
      fun s' halike => parse_run_of_error (halike.parse_eq_error he)⟩
  · intro as
    refine ⟨source_after s as, options_after s as, fun q => ?_⟩
    rw [Document.answer_eq_error_iff, isSome_blocks?_after_iff, not_or, Bool.not_eq_true,
      Option.isSome_eq_false_iff, Option.isNone_iff_eq_none]

/-- A matcher that is no pattern behind one that is a text, and an alias without a target. -/
def refusedOptions : Options where
  settings := {
    filterByTag := [("status", .array [.string "beta", .object [("regex", .string "(")]])]
    tags := [("title", "heading")] }
  registry := [("name", Tag.simple)]

/-- Parsed with `refusedOptions` and sorted, a document has no text, and is refused for its pattern
again. -/
theorem parse_all_or_nothing_refusedOptions :
    let s : Session := ⟨⟨"/** @name b */", refusedOptions, none⟩, []⟩
    Document.IsRefused refusedOptions ∧ s.document.parse = .error (.invalidPattern "(") ∧
      parse.run s = (.error (.invalidPattern "("), s) ∧
      (s.after [.parse, .sort]).document.answer .text = .error (.notParsed .document) := by
  intro s
  obtain ⟨hwhen, hwhy, hafter⟩ := parse_all_or_nothing s
  have hpattern : PatternLanguage.basic.compile? "(" = none :=
    Option.isNone_iff_eq_none.mp (by decide +kernel)
  have hmatchers : TagFilter.ofMembers refusedOptions.settings.filterByTag refusedOptions.patterns =
      .error (.invalidPattern "(") := by
    refine TagFilter.ofMembers_eq_error_iff.mpr
      ⟨[("status", .string "beta")], ("status", .object [("regex", .string "(")]), ⟨[], rfl⟩, ?_,
        .invalid "(" rfl hpattern⟩
    intro pre p post hsplit e hrefused
    obtain rfl : p = ("status", .string "beta") :=
      List.mem_singleton.mp (hsplit ▸ List.mem_append_right pre List.mem_cons_self)
    cases hrefused with
    | unsupported text _ => exact text "beta" rfl
    | invalid _ regex _ => cases regex
  have herror : ∀ as, (s.after as).document.parse = .error (.invalidPattern "(") := by
    intro as
    rw [Document.parse_eq_error_iff, options_after]
    exact Or.inl (Document.fullFilter_eq_error_iff.mpr hmatchers)
  refine ⟨hwhen.mp ⟨_, herror []⟩, herror [], (hwhy _ (herror [])).2.2.1,
    ((hafter _).2.2 .text).mpr ⟨rfl, ?_⟩⟩
  rintro ⟨pre, post, -, r, hparse⟩
  rw [herror pre] at hparse
  cases hparse

end Session

end DocComment
