/-
What a filter accepts, whichever way it was put together.

A filter is a list of matchers, each for a tag (`matchers`).  Reading a configuration, adding
matchers and merging two filters all keep to this view, and what they build is tidy (`IsTidy`), with
one rule for each tag and a matcher at least in each.  So a filter asks that each of its tags be
answered (`IsAnswered`): that one of the matchers given for the tag accepts its text.

* `lineAfter?_eq_some_iff` — the text of a tag is that of its first mention with something behind it
  on its line (`IsShown`);
* `mem_matchers_merge`, `of_ofMembers_eq_ok` — the matchers of a merge and of a configuration;
* `accepts_iff` — a tidy filter accepts the comments in which each of its tags is answered.

`ofMembers_merge_accepts_iff` puts this together: all tags, any matcher of a tag, from either side
and in whatever order.
-/
import DocComment.Proofs.Configuration
import DocComment.Proofs.Text.Cut
import DocComment.Proofs.Text.Trim

namespace DocComment

/-- A text stands for itself, an object for the pattern under `regex`. -/
inductive Matcher.IsSpelled (patterns : PatternLanguage) : Json → Matcher → Prop
  | exact (s : String) : IsSpelled patterns (.string s) (.exact s)
  | pattern {j : Json} {s : String} {p : String → Bool}
      (regex : j.get? "regex" = some (.string s)) (compile : patterns.compile? s = some p) :
      IsSpelled patterns j (.pattern p)

variable {patterns : PatternLanguage}

theorem Matcher.ofJson_eq_ok_iff (tag : String) {j : Json} {m : Matcher} :
    Matcher.ofJson patterns tag j = .ok m ↔ IsSpelled patterns j m := by
  constructor
  · intro h
    unfold Matcher.ofJson at h
    split at h
    · cases h
      exact .exact _
    · split at h
      · next s hs =>
        unfold Matcher.ofPattern at h
        split at h
        · next p hp =>
          cases h
          exact .pattern (Json.bind_string?_eq_some_iff.mp hs) hp
        · cases h
      · cases h
  · rintro (s | ⟨hregex, hcompile⟩)
    · rfl
    · unfold Matcher.ofJson
      split
      · cases hregex
      · rw [hregex]
        show Matcher.ofPattern _ patterns = _
        rw [Matcher.ofPattern, hcompile]

namespace TagFilter

open Text

/-! ### The text of a tag -/

/-- The line is what stands behind the first `w` that has something behind it on its line. -/
structure IsShown (w comment before line after : Text) : Prop where
  eq : comment = before ++ (w ++ (line ++ after))
  ne_nil : line ≠ []
  newline_notMem : '\n' ∉ line
  ends : ∀ c ∈ after.head?, c = '\n'
  /-- A `w` that stands further in front has nothing behind it on its line. -/
  first : ∀ before' c after', comment = before' ++ (w ++ c :: after') → c ≠ '\n' →
    before.length ≤ before'.length

/-- What stands behind the word right here, up to the end of the line. -/
def lineHere (w t : Text) : Text := ((after? w t).getD []).takeWhile (· ≠ '\n')

theorem lineAfter?_cons (w : Text) (c : Char) (t : Text) :
    lineAfter? w (c :: t) =
      if lineHere w (c :: t) = [] then lineAfter? w t else some (lineHere w (c :: t)) := by
  rw [lineAfter?, ← lineHere]
  simp only [List.isEmpty_iff]

theorem lineHere_eq_iff {w t line : Text} (hline : line ≠ []) :
    lineHere w t = line ↔
      ∃ after, t = w ++ (line ++ after) ∧ '\n' ∉ line ∧ ∀ c ∈ after.head?, c = '\n' := by
  rw [lineHere]
  cases hafter : after? w t with
  | none =>
    refine ⟨fun h => absurd h.symm hline, ?_⟩
    rintro ⟨after, ht, -⟩
    rw [after?_eq_some_iff.mpr ht] at hafter
    cases hafter
  | some r =>
    obtain rfl := after?_eq_some_iff.mp hafter
    rw [Option.getD_some, takeWhile_eq_iff]
    refine exists_congr fun after => ?_
    rw [List.append_right_inj]
    simp only [ne_eq, decide_not, Bool.not_eq_eq_eq_not, Bool.not_true, Bool.not_false,
      decide_eq_false_iff_not, decide_eq_true_eq]
    refine and_congr_right fun _ => and_congr_left fun _ => ?_
    exact ⟨fun h hmem => h _ hmem rfl, fun h c hc heq => h (heq ▸ hc)⟩

theorem lineHere_ne_nil_iff {w t : Text} :
    lineHere w t ≠ [] ↔ ∃ c after, t = w ++ c :: after ∧ c ≠ '\n' := by
  constructor
  · intro h
    obtain ⟨after, ht, hnewline, -⟩ := (lineHere_eq_iff h).mp rfl
    obtain ⟨c, line, hline⟩ := List.exists_cons_of_ne_nil h
    rw [hline] at ht hnewline
    exact ⟨c, line ++ after, ht, fun hc => hnewline (hc ▸ List.mem_cons_self)⟩
  · rintro ⟨c, after, rfl, hc⟩
    have hafter : after? w (w ++ c :: after) = some (c :: after) := after?_eq_some_iff.mpr rfl
    rw [lineHere, hafter, Option.getD_some, List.takeWhile_cons_of_pos (by simpa using hc)]
    exact List.cons_ne_nil _ _

theorem isShown_nil_iff {w t line after : Text} (hline : line ≠ []) :
    IsShown w t [] line after ↔
      t = w ++ (line ++ after) ∧ '\n' ∉ line ∧ ∀ c ∈ after.head?, c = '\n' :=
  ⟨fun h => ⟨h.eq, h.newline_notMem, h.ends⟩,
    fun ⟨heq, hnewline, hends⟩ => ⟨heq, hline, hnewline, hends, fun _ _ _ _ _ => Nat.zero_le _⟩⟩

/-- Where nothing is shown, the search goes on behind the first character. -/
theorem isShown_cons_iff {w t line : Text} {c : Char} (hhere : lineHere w (c :: t) = []) :
    (∃ before after, IsShown w (c :: t) before line after) ↔
      ∃ before after, IsShown w t before line after := by
  have hnone : ∀ d after, c :: t = w ++ d :: after → d = '\n' := by
    intro d after ht
    by_contra hd
    exact lineHere_ne_nil_iff.mpr ⟨d, after, ht, hd⟩ hhere
  constructor
  · rintro ⟨before, after, h⟩
    obtain ⟨d, line', hline⟩ := List.exists_cons_of_ne_nil h.ne_nil
    cases before with
    | nil =>
      have hd := hnone d (line' ++ after) (by simpa [hline] using h.eq)
      exact absurd (hd ▸ hline ▸ List.mem_cons_self) h.newline_notMem
    | cons b before =>
      refine ⟨before, after, (List.cons.inj h.eq).2, h.ne_nil, h.newline_notMem, h.ends, ?_⟩
      intro before' e after' ht he
      have hlength := h.first (c :: before') e after' (by rw [ht, List.cons_append]) he
      simpa using hlength
  · rintro ⟨before, after, h⟩
    refine ⟨c :: before, after, by rw [h.eq, List.cons_append], h.ne_nil, h.newline_notMem, h.ends,
      ?_⟩
    intro before' e after' ht he
    cases before' with
    | nil => exact absurd (hnone e after' ht) he
    | cons b before' =>
      have hlength := h.first before' e after' (List.cons.inj ht).2 he
      simpa using hlength

theorem lineAfter?_eq_some_iff {w t line : Text} :
    lineAfter? w t = some line ↔ ∃ before after, IsShown w t before line after := by
  induction t with
  | nil =>
    refine ⟨fun h => (by cases h), ?_⟩
    rintro ⟨before, after, h⟩
    have hline : line = [] := by
      have heq := h.eq.symm
      simp only [List.append_eq_nil_iff] at heq
      exact heq.2.2.1
    exact absurd hline h.ne_nil
  | cons c t ih =>
    rw [lineAfter?_cons]
    by_cases hhere : lineHere w (c :: t) = []
    · rw [if_pos hhere, ih, isShown_cons_iff hhere]
    · rw [if_neg hhere, Option.some_inj]
      constructor
      · rintro rfl
        obtain ⟨after, h⟩ := (lineHere_eq_iff hhere).mp rfl
        exact ⟨[], after, (isShown_nil_iff hhere).mpr h⟩
      · rintro ⟨before, after, h⟩
        -- something is shown right here, so nothing stands before it
        obtain ⟨d, after', ht, hd⟩ := lineHere_ne_nil_iff.mp hhere
        obtain rfl : before = [] := List.length_eq_zero_iff.mp
          (Nat.le_zero.mp (h.first [] d after' ht hd))
        exact (lineHere_eq_iff h.ne_nil).mpr ⟨after, (isShown_nil_iff h.ne_nil).mp h⟩

theorem textAfter?_eq_some_iff {tag s : String} {comment : Text} :
    textAfter? tag comment = some s ↔ ∃ before line after,
      IsShown ('@' :: tag.toList) comment before line after ∧ Text.isBlank line = false ∧
        s = String.ofList (trim line) := by
  have htext : ∀ line : Text, (if (trim line).isEmpty then none
      else some (String.ofList (trim line))) = some s ↔
      Text.isBlank line = false ∧ s = String.ofList (trim line) := by
    intro line
    rw [← Bool.not_eq_true, ← trim_eq_nil_iff, ← List.isEmpty_iff]
    split
    · next h => simp [h]
    · next h => simp [h, eq_comm]
  rw [textAfter?]
  refine Option.bind_eq_some_iff.trans ?_
  simp only [lineAfter?_eq_some_iff, htext]
  constructor
  · rintro ⟨line, ⟨before, after, h⟩, hs⟩
    exact ⟨before, line, after, h, hs⟩
  · rintro ⟨before, line, after, h, hs⟩
    exact ⟨line, ⟨before, after, h⟩, hs⟩

/-! ### The matchers of a filter -/

/-- All matchers, each with its tag. -/
def matchers (f : TagFilter) : List (String × Matcher) := f.flatMap fun p => p.2.map (p.1, ·)

/-- One rule for each tag, and a matcher at least in each. -/
structure IsTidy (f : TagFilter) : Prop where
  nodup_keys : (Keyed.keys f).Nodup
  ne_nil_of_mem : ∀ p ∈ f, p.2 ≠ []

theorem mem_matchers {f : TagFilter} {tag : String} {m : Matcher} :
    (tag, m) ∈ f.matchers ↔ ∃ ms, (tag, ms) ∈ f ∧ m ∈ ms := by
  rw [matchers, List.mem_flatMap]
  constructor
  · rintro ⟨⟨t, ms⟩, hp, hm⟩
    obtain ⟨m', hm', heq⟩ := List.mem_map.mp hm
    cases heq
    exact ⟨ms, hp, hm'⟩
  · rintro ⟨ms, hp, hm⟩
    exact ⟨(tag, ms), hp, List.mem_map.mpr ⟨m, hm, rfl⟩⟩

theorem matchers_cons (p : String × List Matcher) (f : TagFilter) :
    matchers (p :: f) = p.2.map (p.1, ·) ++ f.matchers :=
  List.flatMap_cons

theorem mem_matchers_alter {f : TagFilter} {tag : String} {ms : List Matcher}
    {x : String × Matcher} :
    x ∈ matchers (Keyed.alter f tag fun old => old.getD [] ++ ms) ↔
      x ∈ f.matchers ∨ x.1 = tag ∧ x.2 ∈ ms := by
  obtain ⟨t, m⟩ := x
  induction f with
  | nil => simp [Keyed.alter, matchers, and_comm, eq_comm]
  | cons p f ih =>
    obtain ⟨k, old⟩ := p
    by_cases hk : k = tag
    · rw [Keyed.alter, if_pos hk, matchers_cons, matchers_cons, hk]
      simp only [Option.getD_some, List.map_append, List.mem_append, List.mem_map, Prod.mk.injEq]
      grind
    · rw [Keyed.alter, if_neg hk, matchers_cons, matchers_cons, List.mem_append, ih,
        List.mem_append, or_assoc]

theorem mem_matchers_add {f : TagFilter} {tag : String} {ms : List Matcher}
    {x : String × Matcher} :
    x ∈ (f.add tag ms).matchers ↔ x ∈ f.matchers ∨ x.1 = tag ∧ x.2 ∈ ms := by
  unfold add
  split
  · next h => simp [List.isEmpty_iff.mp h]
  · exact mem_matchers_alter

/-- A merge has the matchers of both filters. -/
theorem mem_matchers_merge {f g : TagFilter} {x : String × Matcher} :
    x ∈ (f.merge g).matchers ↔ x ∈ f.matchers ∨ x ∈ g.matchers := by
  rw [merge]
  induction g generalizing f with
  | nil => simp [matchers]
  | cons p g ih =>
    have hp : x ∈ p.2.map (p.1, ·) ↔ x.1 = p.1 ∧ x.2 ∈ p.2 := by
      obtain ⟨t, m⟩ := x
      simp [and_comm, eq_comm]
    rw [List.foldl_cons, ih, mem_matchers_add, matchers_cons, List.mem_append, hp, or_assoc]

theorem isTidy_nil : IsTidy [] := ⟨List.nodup_nil, fun _ hp => by cases hp⟩

theorem IsTidy.add {f : TagFilter} (h : f.IsTidy) (tag : String) (ms : List Matcher) :
    (f.add tag ms).IsTidy := by
  unfold TagFilter.add
  split
  · exact h
  · next hms =>
    constructor
    · exact Keyed.nodup_keys_alter h.nodup_keys tag _
    · intro p hp
      rcases Keyed.mem_alter hp with hp | ⟨old, rfl⟩
      · exact h.ne_nil_of_mem p hp
      · exact fun hnil => hms (List.isEmpty_iff.mpr (List.append_eq_nil_iff.mp hnil).2)

theorem IsTidy.merge {f : TagFilter} (h : f.IsTidy) (g : TagFilter) : (f.merge g).IsTidy := by
  rw [TagFilter.merge]
  induction g generalizing f with
  | nil => exact h
  | cons p g ih => exact ih (h.add p.1 p.2)

/-- A matcher that the configuration gives for the tag. -/
def Gives (patterns : PatternLanguage) (config : Keyed Json) (tag : String) (m : Matcher) : Prop :=
  ∃ j, (tag, j) ∈ written config ∧ Matcher.IsSpelled patterns j m

theorem of_foldlM_readOne_eq_ok {ps : List (String × Json)} {f f' : TagFilter}
    (h : ps.foldlM (readOne patterns) f = .ok f') (hf : f.IsTidy) :
    f'.IsTidy ∧ ∀ tag m, (tag, m) ∈ f'.matchers ↔
      (tag, m) ∈ f.matchers ∨ ∃ j, (tag, j) ∈ ps ∧ Matcher.IsSpelled patterns j m := by
  induction ps generalizing f with
  | nil =>
    cases h
    exact ⟨hf, by simp⟩
  | cons p ps ih =>
    obtain ⟨t, j⟩ := p
    rw [List.foldlM_cons] at h
    cases hm : Matcher.ofJson patterns t j with
    | error e =>
      rw [readOne, hm] at h
      cases h
    | ok m' =>
      rw [readOne, hm] at h
      obtain ⟨htidy, hmem⟩ := ih h (hf.add t [m'])
      refine ⟨htidy, fun tag m => ?_⟩
      have hspelled : Matcher.IsSpelled patterns j m ↔ m = m' := by
        rw [← Matcher.ofJson_eq_ok_iff t, hm, Except.ok.injEq, eq_comm]
      rw [hmem, mem_matchers_add, or_assoc, List.mem_singleton, ← hspelled]
      simp only [List.mem_cons, Prod.mk.injEq, or_and_right, exists_or, and_assoc,
        exists_and_left, exists_eq_left]

theorem of_ofMembers_eq_ok {config : Keyed Json} {f : TagFilter}
    (h : ofMembers config patterns = .ok f) :
    f.IsTidy ∧ ∀ tag m, (tag, m) ∈ f.matchers ↔ Gives patterns config tag m := by
  rw [ofMembers_eq_foldlM] at h
  obtain ⟨htidy, hmem⟩ := of_foldlM_readOne_eq_ok h isTidy_nil
  exact ⟨htidy, fun tag m => (hmem tag m).trans (or_iff_right List.not_mem_nil)⟩

theorem ofMembers_succeeds_iff {config : Keyed Json} :
    (∃ f, ofMembers config patterns = .ok f) ↔
      ∀ p ∈ written config, ∃ m, Matcher.IsSpelled patterns p.2 m := by
  rw [exists_ofMembers_eq_ok_iff]
  refine forall₂_congr fun p _ => ?_
  simp only [← Matcher.ofJson_eq_error_iff, ← Matcher.ofJson_eq_ok_iff p.1]
  rw [← not_exists, exists_eq_error_iff, not_not]

/-! ### What a filter accepts -/

/-- The tag shows a text that is not blank, and one of the matchers wanted for it accepts the text,
trimmed. -/
def IsAnswered (comment tag : String) (wanted : Matcher → Prop) : Prop :=
  ∃ before line after, IsShown ('@' :: tag.toList) comment.toList before line after ∧
    Text.isBlank line = false ∧ ∃ m, wanted m ∧ m.accepts (String.ofList (trim line)) = true

theorem passes_iff {comment : String} {rule : String × List Matcher} :
    passes comment.toList rule = true ↔ IsAnswered comment rule.1 (· ∈ rule.2) := by
  rw [passes, Option.any_eq_true]
  simp only [textAfter?_eq_some_iff, List.any_eq_true]
  constructor
  · rintro ⟨_, ⟨before, line, after, h, hblank, rfl⟩, hm⟩
    exact ⟨before, line, after, h, hblank, hm⟩
  · rintro ⟨before, line, after, h, hblank, hm⟩
    exact ⟨_, ⟨before, line, after, h, hblank, rfl⟩, hm⟩

/-- All tags, any matcher of a tag. -/
theorem accepts_iff {f : TagFilter} (hf : f.IsTidy) {comment : String} :
    f.accepts comment = true ↔ ∀ tag, (∃ m, (tag, m) ∈ f.matchers) →
      IsAnswered comment tag fun m => (tag, m) ∈ f.matchers := by
  have hrule : ∀ {tag ms}, (tag, ms) ∈ f → ∀ m, (tag, m) ∈ f.matchers ↔ m ∈ ms := by
    intro tag ms hp m
    rw [mem_matchers]
    refine ⟨?_, fun hm => ⟨ms, hp, hm⟩⟩
    rintro ⟨ms', hp', hm⟩
    -- the tag has one rule
    have hsame := (Keyed.get?_of_mem hf.nodup_keys hp').symm.trans
      (Keyed.get?_of_mem hf.nodup_keys hp)
    rwa [Option.some.inj hsame] at hm
  rw [accepts, List.all_eq_true]
  simp only [passes_iff]
  constructor
  · rintro h tag ⟨m, hm⟩
    obtain ⟨ms, hp, -⟩ := mem_matchers.mp hm
    simpa only [hrule hp] using h _ hp
  · rintro h ⟨tag, ms⟩ hp
    obtain ⟨m, hm⟩ := List.exists_mem_of_ne_nil ms (hf.ne_nil_of_mem _ hp)
    simpa only [hrule hp] using h tag ⟨m, mem_matchers.mpr ⟨ms, hp, hm⟩⟩

/-- A matcher that the configuration or the other filter gives for the tag. -/
def Wants (patterns : PatternLanguage) (config : Keyed Json) (g : TagFilter) (tag : String)
    (m : Matcher) : Prop :=
  Gives patterns config tag m ∨ (tag, m) ∈ g.matchers

theorem merge_accepts_iff {config : Keyed Json} {f : TagFilter}
    (h : ofMembers config patterns = .ok f) (g : TagFilter) {comment : String} :
    (f.merge g).accepts comment = true ↔ ∀ tag, (∃ m, Wants patterns config g tag m) →
      IsAnswered comment tag (Wants patterns config g tag) := by
  obtain ⟨htidy, hmem⟩ := of_ofMembers_eq_ok h
  rw [accepts_iff (htidy.merge g)]
  have hwants : ∀ tag m, (tag, m) ∈ (f.merge g).matchers ↔ Wants patterns config g tag m := by
    intro tag m
    rw [mem_matchers_merge, hmem, Wants]
  simp only [hwants]

theorem wants_congr {config config' : Keyed Json} {g g' : TagFilter}
    (hconfig : (written config').Perm (written config)) (hg : g'.matchers.Perm g.matchers)
    (tag : String) : Wants patterns config' g' tag = Wants patterns config g tag := by
  funext m
  simp only [Wants, Gives, hconfig.mem_iff, hg.mem_iff]

/-- What both filters accept is accepted by their merge. -/
theorem merge_accepts_of_accepts {f g : TagFilter} (hf : f.IsTidy) {comment : String}
    (hfc : f.accepts comment = true) (hgc : g.accepts comment = true) :
    (f.merge g).accepts comment = true := by
  have hmore : ∀ {tag : String} {wanted : Matcher → Prop}, IsAnswered comment tag wanted →
      (∀ m, wanted m → (tag, m) ∈ (f.merge g).matchers) →
      IsAnswered comment tag fun m => (tag, m) ∈ (f.merge g).matchers := by
    rintro tag wanted ⟨before, line, after, hshown, hblank, m, hm, haccepts⟩ hwanted
    exact ⟨before, line, after, hshown, hblank, m, hwanted m hm, haccepts⟩
  rw [accepts_iff (hf.merge g)]
  rintro tag ⟨m, hm⟩
  rcases mem_matchers_merge.mp hm with hm | hm
  · exact hmore ((accepts_iff hf).mp hfc tag ⟨m, hm⟩) fun m' hm' =>
      mem_matchers_merge.mpr (Or.inl hm')
  · -- the other filter need not be tidy, but it has a rule with this matcher
    obtain ⟨ms, hp, -⟩ := mem_matchers.mp hm
    exact hmore (passes_iff.mp (List.all_eq_true.mp hgc _ hp)) fun m' hm' =>
      mem_matchers_merge.mpr (Or.inr (mem_matchers.mpr ⟨ms, hp, hm'⟩))

/-- **All tags, any matcher of a tag.**  Whatever the language of patterns, a configuration is read
if each of its matchers is a text or has a pattern; merged with any filter, it then accepts the
comments that answer every tag with a matcher on either side by one of the matchers on both sides.
So the order of tags and matchers does not count, and what both accept is accepted. -/
theorem ofMembers_merge_accepts_iff (patterns : PatternLanguage) (config : Keyed Json) :
    ((∃ f, ofMembers config patterns = .ok f) ↔
      ∀ p ∈ written config, ∃ m, Matcher.IsSpelled patterns p.2 m) ∧
    ∀ f, ofMembers config patterns = .ok f → ∀ g : TagFilter,
      (∀ comment, (f.merge g).accepts comment = true ↔
        ∀ tag, (∃ m, Wants patterns config g tag m) →
          IsAnswered comment tag (Wants patterns config g tag)) ∧
      (∀ config' g', (written config').Perm (written config) → g'.matchers.Perm g.matchers →
        ∃ f', ofMembers config' patterns = .ok f' ∧
          ∀ comment, (f'.merge g').accepts comment = (f.merge g).accepts comment) ∧
      ∀ comment, f.accepts comment = true → g.accepts comment = true →
        (f.merge g).accepts comment = true := by
  refine ⟨ofMembers_succeeds_iff, fun f hf g => ⟨fun comment => merge_accepts_iff hf g, ?_, ?_⟩⟩
  · intro config' g' hconfig hg
    have hspelled := ofMembers_succeeds_iff.mp ⟨f, hf⟩
    obtain ⟨f', hf'⟩ := ofMembers_succeeds_iff.mpr fun p hp => hspelled p (hconfig.mem_iff.mp hp)
    refine ⟨f', hf', fun comment => ?_⟩
    rw [Bool.eq_iff_iff, merge_accepts_iff hf', merge_accepts_iff hf]
    simp only [wants_congr hconfig hg]
  · exact fun comment => merge_accepts_of_accepts (of_ofMembers_eq_ok hf).1

/-- Two tags, one with a text and a pattern. -/
def sampleRules : Keyed Json :=
  [("status", .array [.string "beta", .object [("regex", .string "^s")]]), ("name", .string "a")]

/-- The same matchers in another order. -/
def shuffledRules : Keyed Json :=
  [("name", .string "a"), ("status", .array [.object [("regex", .string "^s")], .string "beta"])]

/-- What `sampleRules` come to. -/
def sampleFilter : TagFilter :=
  [("status", [.exact "beta",
      .pattern fun t => (Pattern.seq .atStart (.seq (.one (.single 's')) .empty)).isIn t.toList]),
   ("name", [.exact "a"])]

def stableFoo : String := "/**\n * @name foo\n * @status stable\n */"

def betaA : String := "/**\n * @name a\n * @status beta\n */"

/-- The name `foo` is one that only the other filter accepts. -/
theorem ofMembers_merge_accepts_iff_sample :
    ofMembers sampleRules .basic = .ok sampleFilter ∧
      (sampleFilter.merge [("name", [.exact "foo"])]).accepts stableFoo = true ∧
      IsAnswered stableFoo "name" (Wants .basic sampleRules [("name", [.exact "foo"])] "name") ∧
      (∃ f', ofMembers shuffledRules .basic = .ok f' ∧
        (f'.merge [("name", [.exact "foo"])]).accepts stableFoo = true) ∧
      (sampleFilter.merge [("name", [.exact "foo", .exact "a"])]).accepts betaA = true := by
  have hread : ofMembers sampleRules .basic = .ok sampleFilter := by cbv
  have h := (ofMembers_merge_accepts_iff .basic sampleRules).2 _ hread
  obtain ⟨hiff, hshuffled, -⟩ := h [("name", [.exact "foo"])]
  have haccepts : (sampleFilter.merge [("name", [.exact "foo"])]).accepts stableFoo = true := by
    decide
  have hperm : (written shuffledRules).Perm (written sampleRules) :=
    List.reverse_perm (written sampleRules)
  obtain ⟨f', hf', hsame⟩ := hshuffled shuffledRules [("name", [.exact "foo"])] hperm (.refl _)
  refine ⟨hread, haccepts, (hiff stableFoo).mp haccepts "name" ⟨_, Or.inr List.mem_cons_self⟩,
    ⟨f', hf', (hsame stableFoo).trans haccepts⟩, ?_⟩
  exact (h [("name", [.exact "foo", .exact "a"])]).2.2 betaA (by decide) (by decide)

end TagFilter

end DocComment
