/-
The first writer wins.

A run over the first tags of a comment leaves a record that the rest of the run only appends to
(`record_prefix_of_append`), so no later tag and no later bundle overwrites, removes or moves a key.
Each key is there once (`nodup_keys_ofEntries`).  A tag whose key is there, as any private tag, does
nothing at all to the run (`ofEntries_of_skipped`).

The record is then completed, with `raw` in place or at the end and with an `id` if there is none;
nothing else changes (`get?_complete_of_contains`, `keys_prefix_complete`).

* `firstWriter_wins` puts these together.
-/
import DocComment.Proofs.Interpretation.Run

namespace DocComment

namespace Interpretation

/-! ### The record of a run -/

/-- The private tags: at most one character, or an underscore in front. -/
theorem isPrivate_iff {tag : String} :
    isPrivate tag = true ↔ tag.toList.length ≤ 1 ∨ tag.toList.head? = some '_' := by
  unfold isPrivate
  split
  · next h => simp [h]
  · next c h => simp [h]
  · next c t hne h =>
    rw [h, List.head?_cons, Option.some_inj, beq_iff_eq]
    refine ⟨Or.inr, ?_⟩
    rintro (hlen | hc)
    · cases t with
      | nil => simp at hne
      | cons d t => simp at hlen
    · exact hc

theorem keys_addKey (ctx : Context) (raw : String) (i : Interpretation) (p : String × Value) :
    Keyed.keys (addKey ctx raw i p).record =
      if Keyed.contains i.record p.1 then Keyed.keys i.record
      else Keyed.keys i.record ++ [p.1] := by
  obtain ⟨key, value⟩ := p
  cases hkey : Keyed.contains i.record key with
  | true => simp [addKey, hkey]
  | false =>
    cases hrender : ctx.renderMarkdown with
    | false => simp [addKey, hkey, hrender, Keyed.keys]
    | true =>
      cases hvalue : value.renderAt ctx [key] <;>
        simp [addKey, hkey, hrender, hvalue, Keyed.keys]

theorem nodup_keys_addKey (ctx : Context) (raw : String) {i : Interpretation}
    (h : (Keyed.keys i.record).Nodup) (p : String × Value) :
    (Keyed.keys (addKey ctx raw i p).record).Nodup := by
  rw [keys_addKey]
  split
  · exact h
  · next hkey => exact Keyed.nodup_keys_concat h (by simpa using hkey)

theorem nodup_keys_foldl_addKey (ctx : Context) (raw : String) {i : Interpretation}
    (h : (Keyed.keys i.record).Nodup) (ps : Record) :
    (Keyed.keys (ps.foldl (addKey ctx raw) i).record).Nodup := by
  induction ps generalizing i with
  | nil => exact h
  | cons p ps ih => exact ih (nodup_keys_addKey ctx raw h p)

variable (registry : Registry) (ctx : Context) (raw : String)

theorem nodup_keys_addTag {i : Interpretation} (h : (Keyed.keys i.record).Nodup)
    (p : String × List Entry) : (Keyed.keys (addTag registry ctx raw i p).record).Nodup := by
  obtain ⟨tag, es⟩ := p
  cases hskip : Keyed.contains i.record tag || isPrivate tag with
  | true =>
    rw [addTag_of_skipped registry ctx raw es hskip]
    exact h
  | false =>
    rw [addTag_of_reached registry ctx raw es hskip]
    split
    · exact h
    · exact nodup_keys_foldl_addKey ctx raw h _
    · exact h

/-- Every key is there once. -/
theorem nodup_keys_ofEntries (es : Entries) :
    (Keyed.keys (ofEntries registry ctx raw es).record).Nodup := by
  have hrun : ∀ i : Interpretation, (Keyed.keys i.record).Nodup →
      (Keyed.keys (es.foldl (addTag registry ctx raw) i).record).Nodup := by
    induction es with
    | nil => exact fun _ h => h
    | cons p es ih => exact fun i h => ih _ (nodup_keys_addTag registry ctx raw h p)
  exact hrun {} List.nodup_nil

/-- The record of the first tags begins the record of all. -/
theorem record_prefix_of_append (pre post : Entries) :
    (ofEntries registry ctx raw pre).record <+:
      (ofEntries registry ctx raw (pre ++ post)).record := by
  rw [ofEntries_append]
  exact (appends_foldl_addTag registry ctx raw post).prefix_record _

/-- A tag that is passed over might as well not be there. -/
theorem ofEntries_of_skipped (pre post : Entries) (tag : String) (es : List Entry)
    (h : (Keyed.contains (ofEntries registry ctx raw pre).record tag || isPrivate tag) = true) :
    ofEntries registry ctx raw (pre ++ (tag, es) :: post) =
      ofEntries registry ctx raw (pre ++ post) := by
  rw [ofEntries_append, ofEntries_append, List.foldl_cons,
    addTag_of_skipped registry ctx raw es h]

end Interpretation

/-! ### The completed record -/

namespace Record

variable (r : Record) (raw : String)

theorem complete_eq : complete r raw =
    Keyed.insertNew (Keyed.insert r "raw" (.text raw)) "id"
      (.text (identifier (Keyed.insert r "raw" (.text raw)) raw)) :=
  rfl

theorem get?_complete_raw : Keyed.get? (complete r raw) "raw" = some (.text raw) := by
  rw [complete_eq, Keyed.get?_insertNew, Keyed.get?_insert, if_pos rfl]
  rfl

theorem contains_complete_id : Keyed.contains (complete r raw) "id" = true := by
  rw [complete_eq, Keyed.contains, Keyed.get?_insertNew, if_pos rfl, Option.isSome_or,
    Option.isSome_some, Bool.or_true]

/-- What a key other than `raw` holds, an explicit `id` among them, it keeps. -/
theorem get?_complete_of_contains {key : String} (hraw : key ≠ "raw")
    (h : Keyed.contains r key = true) : Keyed.get? (complete r raw) key = Keyed.get? r key := by
  obtain ⟨v, hv⟩ := Option.isSome_iff_exists.mp h
  rw [complete_eq, Keyed.get?_insertNew, Keyed.get?_insert, if_neg hraw, hv]
  rfl

/-- Completing the record gives it no other key than `raw` and `id`. -/
theorem get?_complete_of_ne {key : String} (hraw : key ≠ "raw") (hid : key ≠ "id") :
    Keyed.get? (complete r raw) key = Keyed.get? r key := by
  rw [complete_eq, Keyed.get?_insertNew, Keyed.get?_insert, if_neg hraw, if_neg hid, Option.or_none]

theorem identifier_congr {r r' : Record}
    (hnamespace : Keyed.get? r "namespace" = Keyed.get? r' "namespace")
    (hname : Keyed.get? r "name" = Keyed.get? r' "name") :
    identifier r raw = identifier r' raw := by
  rw [identifier, identifier, text?, text?, text?, text?, hnamespace, hname]

/-- What is looked up in a completed record depends on what was looked up before, there and under
the two keys of identifiers. -/
theorem get?_complete_congr {r r' : Record}
    (hnamespace : Keyed.get? r "namespace" = Keyed.get? r' "namespace")
    (hname : Keyed.get? r "name" = Keyed.get? r' "name") {key : String}
    (hkey : Keyed.get? r key = Keyed.get? r' key) :
    Keyed.get? (complete r raw) key = Keyed.get? (complete r' raw) key := by
  have hinsert : ∀ {k}, Keyed.get? r k = Keyed.get? r' k →
      Keyed.get? (Keyed.insert r "raw" (.text raw)) k =
        Keyed.get? (Keyed.insert r' "raw" (.text raw)) k := by
    intro k hk
    rw [Keyed.get?_insert, Keyed.get?_insert, hk]
  rw [complete_eq, complete_eq, Keyed.get?_insertNew, Keyed.get?_insertNew, hinsert hkey,
    identifier_congr raw (hinsert hnamespace) (hinsert hname)]

theorem keys_complete_congr {r r' : Record} (h : Keyed.keys r = Keyed.keys r') :
    Keyed.keys (complete r raw) = Keyed.keys (complete r' raw) := by
  have hinsert : Keyed.keys (Keyed.insert r "raw" (.text raw)) =
      Keyed.keys (Keyed.insert r' "raw" (.text raw)) := by
    rw [Keyed.keys_insert, Keyed.keys_insert, Keyed.contains_congr h, h]
  rw [complete_eq, complete_eq, Keyed.keys_insertNew, Keyed.keys_insertNew,
    Keyed.contains_congr hinsert, hinsert]

theorem keys_prefix_complete : Keyed.keys r <+: Keyed.keys (complete r raw) := by
  rw [complete_eq]
  exact (Keyed.keys_prefix_insert r "raw" _).trans (Keyed.keys_prefix_insertNew _ "id" _)

end Record

namespace Interpretation

/-- **The first writer wins**, and `raw` and `id` are always there.  Whatever the interpreters hand
out, the record of the first tags is how the record of all tags begins; a tag whose key is there and
a private tag might as well not be there; and completing the record moves no key and changes no value
but that of `raw`. -/
theorem firstWriter_wins (registry : Registry) (ctx : Context) (raw : String) (es : Entries) :
    Keyed.get? (es.interpret registry ctx raw).record "raw" = some (.text raw) ∧
    Keyed.contains (es.interpret registry ctx raw).record "id" = true ∧
    (∀ pre post, es = pre ++ post →
      (ofEntries registry ctx raw pre).record <+: (ofEntries registry ctx raw es).record) ∧
    (∀ pre tag occurrences post, es = pre ++ (tag, occurrences) :: post →
      Keyed.contains (ofEntries registry ctx raw pre).record tag = true ∨
        tag.toList.length ≤ 1 ∨ tag.toList.head? = some '_' →
      ofEntries registry ctx raw es = ofEntries registry ctx raw (pre ++ post)) ∧
    (Keyed.keys (ofEntries registry ctx raw es).record).Nodup ∧
    Keyed.keys (ofEntries registry ctx raw es).record <+:
      Keyed.keys (es.interpret registry ctx raw).record ∧
    ∀ key, key ≠ "raw" → Keyed.contains (ofEntries registry ctx raw es).record key = true →
      Keyed.get? (es.interpret registry ctx raw).record key =
        Keyed.get? (ofEntries registry ctx raw es).record key := by
  refine ⟨Record.get?_complete_raw _ raw, Record.contains_complete_id _ raw, ?_, ?_,
    nodup_keys_ofEntries registry ctx raw es, Record.keys_prefix_complete _ raw, ?_⟩
  · rintro pre post rfl
    exact record_prefix_of_append registry ctx raw pre post
  · rintro pre tag occurrences post rfl hskip
    refine ofEntries_of_skipped registry ctx raw pre post tag occurrences ?_
    rw [Bool.or_eq_true, isPrivate_iff]
    exact hskip
  · intro key hkey hmem
    exact Record.get?_complete_of_contains _ raw hkey hmem

/-- The second tag hands out the keys of the first and of the third; the fourth is private. -/
def bundleSample : Entries :=
  [("name", [⟨"name", some "first", []⟩]), ("meta", [⟨"meta", none, []⟩]),
    ("kind", [⟨"kind", some "late", []⟩]), ("x", [⟨"x", none, []⟩])]

/-- The registry of `bundleSample`. -/
def bundleRegistry : Registry :=
  [("meta", fun _ _ => .ok (some (.record
    [(Tag.bundleKey, .record [("name", .text "ignored"), ("kind", .text "widget")])])))]

/-- In `bundleSample` the third tag is passed over for its key, the fourth for its name, and the
record of the first two tags begins the record of all. -/
theorem firstWriter_wins_bundleSample :
    Keyed.contains (ofEntries bundleRegistry { renderer := .plain } "" (bundleSample.take 2)).record
        "kind" = true ∧
      ofEntries bundleRegistry { renderer := .plain } "" bundleSample =
        ofEntries bundleRegistry { renderer := .plain } "" (bundleSample.eraseIdx 2) ∧
      ofEntries bundleRegistry { renderer := .plain } "" bundleSample =
        ofEntries bundleRegistry { renderer := .plain } "" (bundleSample.take 3) ∧
      (ofEntries bundleRegistry { renderer := .plain } "" (bundleSample.take 2)).record <+:
        (ofEntries bundleRegistry { renderer := .plain } "" bundleSample).record ∧
      Keyed.get? (bundleSample.interpret bundleRegistry { renderer := .plain } "").record "kind" =
        some (.text "widget") := by
  have hkind : Keyed.contains
      (ofEntries bundleRegistry { renderer := .plain } "" (bundleSample.take 2)).record "kind" =
        true := by decide
  obtain ⟨-, -, hbegin, hskip, -, -, hkeep⟩ :=
    firstWriter_wins bundleRegistry { renderer := .plain } "" bundleSample
  refine ⟨hkind, ?_, ?_, ?_, ?_⟩
  · exact hskip (bundleSample.take 2) "kind" _ (bundleSample.drop 3) rfl (Or.inl hkind)
  · exact hskip (bundleSample.take 3) "x" _ [] rfl (Or.inr (Or.inl (by decide)))
  · exact hbegin (bundleSample.take 2) (bundleSample.drop 2) rfl
  · rw [hkeep "kind" (by decide) (by decide)]
    rfl

end Interpretation

end DocComment
