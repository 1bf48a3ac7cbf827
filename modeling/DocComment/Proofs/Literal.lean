/-
What literals are read from, besides JSON.

A literal is tried in four ways, and none of them takes what is meant for another: JSON begins with
neither quote (`quoted?_eq_none_of_parseText?`), a text in single quotes is taken before JSON is
tried, and an array of such texts is no JSON until its quotes are changed.

* `singleQuoted` — a text in single quotes, a backslash before each single quote in it;
* `arrayOf` — an array of such texts; with double quotes its tokens are those of the texts
  (`parseText?_requote_arrayOf`).

`parse?_extends_json` puts this together.
-/
import DocComment.Literal
import DocComment.Proofs.Json.Reader
import DocComment.Proofs.Json.Token
import DocComment.Proofs.Text.Cut
import DocComment.Proofs.Text.Escape
import DocComment.Proofs.Text.Trim
import DocComment.Proofs.TypeExpr.Brackets

namespace DocComment.Literal

open Json Text

/-! ### JSON -/

theorem parseText?_eq_none_of_tokens? {t : Text} (h : tokens? t = none) : parseText? t = none := by
  rw [parseText?, h]
  rfl

/-- No token begins with a quote that JSON does not have. -/
theorem tokens?_cons_quote {c : Char} (hc : c = '\x27' ∨ c = '\x60') (t : Text) :
    tokens? (c :: t) = none := by
  rcases hc with rfl | rfl <;> rw [tokens?_cons rfl] <;> rfl

theorem quoted?_eq_none_of_parseText? {t : Text} {j : Json} (h : parseText? t = some j) :
    quoted? t = none := by
  have hhead : ∀ c, c = '\x27' ∨ c = '\x60' → t.head? ≠ some c := by
    intro c hc hhead
    obtain ⟨u, rfl⟩ := List.head?_eq_some_iff.mp hhead
    rw [parseText?_eq_none_of_tokens? (tokens?_cons_quote hc u)] at h
    cases h
  rw [quoted?, TypeExpr.between?_eq_none (hhead _ (Or.inl rfl)),
    TypeExpr.between?_eq_none (hhead _ (Or.inr rfl))]
  rfl

theorem ofText?_of_parseText? {t : Text} {j : Json} (h : parseText? t = some j) :
    ofText? t = some (.ofJson j) := by
  rw [ofText?]
  split
  · next hword =>
    rcases hword with rfl | rfl
    · have hnone : parseText? "undefined".toList = none := by cbv
      rw [hnone] at h
      cases h
    · have hnull : parseText? "null".toList = some .null := by cbv
      rw [hnull] at h
      cases h
      rfl
  · rw [quoted?_eq_none_of_parseText? h, h]

/-! ### Texts in single quotes -/

/-- The text in single quotes, with a backslash before each single quote in it. -/
def singleQuoted (t : Text) : Text := '\x27' :: (escaped '\x27' t ++ ['\x27'])

theorem trim_singleQuoted (t : Text) : trim (singleQuoted t) = singleQuoted t :=
  trim_append_append (t := ['\x27']) (u := ['\x27']) rfl rfl rfl rfl (escaped '\x27' t)

theorem ofText?_singleQuoted (t : Text) :
    ofText? (singleQuoted t) = some (.text (String.ofList t)) := by
  have hword : ¬(singleQuoted t = "undefined".toList ∨ singleQuoted t = "null".toList) := by
    simp [singleQuoted]
  have hbetween : TypeExpr.between? '\x27' '\x27' (singleQuoted t) = some (escaped '\x27' t) :=
    TypeExpr.between?_eq_some_iff.mpr rfl
  have hquoted : quoted? (singleQuoted t) = some t := by
    rw [quoted?, hbetween, Option.some_or, Option.map_some, unescape_escaped (by decide)]
  rw [ofText?, if_neg hword, hquoted]

/-! ### Arrays of such texts -/

/-- A comma with gaps around it. -/
def IsComma (sep : Text) : Prop :=
  ∃ before after, sep = before ++ ',' :: after ∧
    (∀ c ∈ before, isGap c = true) ∧ ∀ c ∈ after, isGap c = true

/-- The text stands for itself between quotes of either kind. -/
structure IsQuotable (t : Text) : Prop where
  isVerbatim : IsVerbatim t
  single_notMem : '\x27' ∉ t

instance (t : Text) : Decidable (IsQuotable t) :=
  decidable_of_iff (IsVerbatim t ∧ '\x27' ∉ t) ⟨fun ⟨h₁, h₂⟩ => ⟨h₁, h₂⟩, fun ⟨h₁, h₂⟩ => ⟨h₁, h₂⟩⟩

/-- Texts in single quotes, separated, between square brackets. -/
def arrayOf (sep : Text) (ts : List Text) : Text :=
  '[' :: (sep.intercalate (ts.map singleQuoted) ++ [']'])

theorem trim_arrayOf (sep : Text) (ts : List Text) : trim (arrayOf sep ts) = arrayOf sep ts :=
  trim_append_append (t := ['[']) (u := [']']) rfl rfl rfl rfl (sep.intercalate _)

def doubleQuoted (t : Text) : Text := '"' :: (t ++ ['"'])

theorem ofItemsWith_strings (leaf : String → Value) (ss : List String) :
    Value.ofItemsWith leaf (ss.map .string) = ss.map leaf := by
  induction ss with
  | nil => rfl
  | cons s ss ih => rw [List.map_cons, List.map_cons, Value.ofItemsWith, ih, Value.ofJsonWith]

theorem requote_of_notMem {t : Text} (h : '\x27' ∉ t) : requote t = t := by
  have hsame : ∀ c ∈ t, (if c = '\x27' then '"' else c) = c := by
    intro c hc
    rw [if_neg]
    rintro rfl
    exact h hc
  rw [requote, List.map_congr_left hsame, List.map_id']

theorem requote_append (t u : Text) : requote (t ++ u) = requote t ++ requote u :=
  List.map_append

theorem requote_singleQuoted {t : Text} (h : '\x27' ∉ t) :
    requote (singleQuoted t) = doubleQuoted t := by
  rw [singleQuoted, escaped_of_notMem h]
  show '"' :: requote (t ++ ['\x27']) = _
  rw [requote_append, requote_of_notMem h]
  rfl

theorem single_notMem_of_isComma {sep : Text} (h : IsComma sep) : '\x27' ∉ sep := by
  obtain ⟨before, after, rfl, hbefore, hafter⟩ := h
  simp only [List.mem_append, List.mem_cons, not_or]
  exact ⟨fun hmem => absurd (hbefore _ hmem) (by decide), by decide,
    fun hmem => absurd (hafter _ hmem) (by decide)⟩

section Array

variable {sep : Text} (hsep : IsComma sep)
include hsep

theorem requote_arrayOf_cons {t : Text} {ts : List Text} (h : ∀ u ∈ t :: ts, IsQuotable u) :
    requote (arrayOf sep (t :: ts)) =
      '[' :: (doubleQuoted t ++ (ts.flatMap (fun u => sep ++ doubleQuoted u) ++ [']'])) := by
  obtain ⟨ht, hts⟩ := List.forall_mem_cons.mp h
  have hrest : requote ((ts.map singleQuoted).flatMap (sep ++ ·)) =
      ts.flatMap (fun u => sep ++ doubleQuoted u) := by
    rw [requote, List.map_flatMap, List.flatMap_map]
    refine List.flatMap_congr fun u hu => ?_
    show requote (sep ++ singleQuoted u) = _
    rw [requote_append, requote_of_notMem (single_notMem_of_isComma hsep),
      requote_singleQuoted (hts u hu).single_notMem]
  rw [arrayOf, List.map_cons, intercalate_cons]
  show '[' :: requote _ = _
  rw [requote_append, requote_append, requote_singleQuoted ht.single_notMem, hrest,
    List.append_assoc]
  rfl

theorem tokens?_comma (t : Text) : tokens? (sep ++ t) = (tokens? t).map (.comma :: ·) := by
  obtain ⟨before, after, rfl, hbefore, hafter⟩ := hsep
  rw [List.append_assoc, tokens?_gap_append hbefore, List.cons_append, tokens?_cons rfl]
  show (tokens? (after ++ t)).map _ = _
  rw [tokens?_gap_append hafter]

theorem tokens?_commaStrings {ts : List Text} (h : ∀ t ∈ ts, IsQuotable t) (rest : Text) :
    tokens? (ts.flatMap (fun t => sep ++ doubleQuoted t) ++ rest) = (tokens? rest).map
      ((ts.map String.ofList).flatMap (fun s => [.comma, .string s]) ++ ·) := by
  induction ts with
  | nil => simp
  | cons t ts ih =>
    obtain ⟨ht, hts⟩ := List.forall_mem_cons.mp h
    rw [List.flatMap_cons, List.append_assoc, List.append_assoc, tokens?_comma hsep, doubleQuoted,
      List.cons_append, List.append_assoc, List.singleton_append, tokens?_string ht.isVerbatim,
      ih hts, List.map_cons, List.flatMap_cons, Option.map_map, Option.map_map]
    rfl

theorem parseText?_requote_arrayOf {t : Text} {ts : List Text}
    (h : ∀ u ∈ t :: ts, IsQuotable u) :
    parseText? (requote (arrayOf sep (t :: ts))) =
      some (.array (((t :: ts).map String.ofList).map .string)) := by
  obtain ⟨ht, hts⟩ := List.forall_mem_cons.mp h
  have htokens : tokens? (requote (arrayOf sep (t :: ts))) =
      some ([.openBracket, .string (String.ofList t)] ++
        ((ts.map String.ofList).flatMap (fun s => [.comma, .string s]) ++ [.closeBracket])) := by
    have hend : tokens? [']'] = some [.closeBracket] := by cbv
    rw [requote_arrayOf_cons hsep h, tokens?_cons rfl]
    show (tokens? (doubleQuoted t ++ _)).map _ = _
    rw [doubleQuoted, List.cons_append, List.append_assoc, List.singleton_append,
      tokens?_string ht.isVerbatim, tokens?_commaStrings hsep hts, hend]
    rfl
  have hstart : (Reader.value []).run? [.openBracket, .string (String.ofList t)] =
      some (.after (.string (String.ofList t)) [.items []]) := rfl
  rw [parseText?, htokens]
  show ((Reader.value []).run? _).bind Reader.result? = _
  rw [Reader.run?_append, hstart, Option.bind_some, run?_commaStrings]
  rfl

theorem ofText?_arrayOf {ts : List Text} (h : ∀ t ∈ ts, IsQuotable t) :
    ofText? (arrayOf sep ts) = some (.list ((ts.map String.ofList).map .text)) := by
  cases ts with
  | nil =>
    exact ofText?_of_parseText? (j := .array []) (by cbv)
  | cons t ts =>
    have hword : ¬(arrayOf sep (t :: ts) = "undefined".toList ∨
        arrayOf sep (t :: ts) = "null".toList) := by
      simp [arrayOf]
    have hquoted : quoted? (arrayOf sep (t :: ts)) = none := by
      rw [quoted?, TypeExpr.between?_eq_none (by simp [arrayOf]),
        TypeExpr.between?_eq_none (by simp [arrayOf])]
      rfl
    -- as it stands the array is no JSON, for its first text begins with a single quote
    have hjson : parseText? (arrayOf sep (t :: ts)) = none := by
      refine parseText?_eq_none_of_tokens? ?_
      rw [arrayOf, List.map_cons, intercalate_cons, tokens?_cons rfl]
      show (tokens? (singleQuoted t ++ _ ++ _)).map _ = _
      rw [singleQuoted, List.cons_append, List.cons_append, tokens?_cons_quote (Or.inl rfl)]
      rfl
    rw [ofText?, if_neg hword, hquoted, hjson]
    show (parseText? (requote (arrayOf sep (t :: ts)))).map Value.ofJson = _
    rw [parseText?_requote_arrayOf hsep h, Option.map_some, Value.ofJson, Value.ofJsonWith,
      ofItemsWith_strings]

end Array

/-- **Literals extend JSON.**  A text that is JSON when it is trimmed means what it means there; a
text in single quotes, with a backslash before each single quote in it, means itself, whatever other
backslashes there are; and texts without quotes, backslashes and control characters make up, in
single quotes and between square brackets, the list of these texts. -/
theorem parse?_extends_json :
    (∀ (s : String) (j : Json), parseText? (trim s.toList) = some j →
      parse? s = some (.ofJson j)) ∧
    (∀ s : String, parse? (String.ofList (singleQuoted s.toList)) = some (.text s)) ∧
    ∀ (sep : Text) (ss : List String), IsComma sep → (∀ s ∈ ss, IsQuotable s.toList) →
      parse? (String.ofList (arrayOf sep (ss.map String.toList))) =
        some (.list (ss.map .text)) := by
  refine ⟨fun s j h => ofText?_of_parseText? h, fun s => ?_, fun sep ss hsep hss => ?_⟩
  · rw [parse?, String.toList_ofList, trim_singleQuoted, ofText?_singleQuoted, String.ofList_toList]
  · have hts : ∀ t ∈ ss.map String.toList, IsQuotable t := List.forall_mem_map.mpr hss
    rw [parse?, String.toList_ofList, trim_arrayOf, ofText?_arrayOf hsep hts, List.map_map,
      List.map_map]
    simp

/-- JSON with blanks around it, a text with a backslash before a quote, and two texts behind a comma
with a space. -/
theorem parse?_extends_json_sample :
    parse? " [true, null] " = some (.list [.bool true, .null]) ∧
    parse? "'a\\\\'b'" = some (.text "a\\'b") ∧
    parse? "['x', 'y z']" = some (.list [.text "x", .text "y z"]) := by
  obtain ⟨hjson, hquoted, harray⟩ := parse?_extends_json
  have hsep : IsComma ", ".toList := ⟨[], [' '], rfl, List.forall_mem_nil _, List.forall_mem_singleton.mpr rfl⟩
  have hparsed : parseText? (trim " [true, null] ".toList) = some (.array [.bool true, .null]) := by
    cbv
  have htext : String.ofList (singleQuoted "a\\'b".toList) = "'a\\\\'b'" := by decide +kernel
  have hlist : String.ofList (arrayOf ", ".toList (["x", "y z"].map String.toList)) =
      "['x', 'y z']" := by decide +kernel
  have hss : ∀ s ∈ ["x", "y z"], IsQuotable s.toList :=
    List.forall_mem_cons.mpr ⟨by decide, List.forall_mem_singleton.mpr (by decide)⟩
  refine ⟨hjson _ _ hparsed, ?_, ?_⟩
  · rw [← htext, hquoted]
  · rw [← hlist, harray _ ["x", "y z"] hsep hss]
    rfl

end DocComment.Literal
