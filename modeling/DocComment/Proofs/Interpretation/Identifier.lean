/-
What a comment is called.

The identifier of a comment is put together from its namespace and its name, and is a digest of the
comment if it lacks one of them.  The namespace is a slug when it comes to the identifier, and slugs
are their own slugs, so the identifier is the namespace or goes on behind it with a dot.

* `get?_namespace`, `get?_name` — under the keys `namespace` and `name` stands what the first
  occurrence of the tag says;
* `get?_complete_id` — what the identifier is made from;
* `identifier_coherent` puts this together, for comments in which no parameter and no style class is
  called `tags`.  Where one is, its own name becomes that of the comment (`not_forall_digest`).
-/
import DocComment.Document
import DocComment.Proofs.Comment.Sections
import DocComment.Proofs.Interpretation.FirstWriter
import DocComment.Proofs.Interpretation.Keys
import DocComment.Proofs.Slug

namespace DocComment

namespace Record

variable (r : Record) (raw : String)

theorem text?_insert_raw {key : String} (h : key ≠ "raw") (v : Value) :
    text? (Keyed.insert r "raw" v) key = text? r key := by
  rw [text?, text?, Keyed.get?_insert, if_neg h]

/-- Without an `id` of its own, the record gets one. -/
theorem get?_complete_id (h : Keyed.get? r "id" = none) :
    Keyed.get? (complete r raw) "id" = some (.text (identifier r raw)) := by
  have hsame : identifier (Keyed.insert r "raw" (.text raw)) raw = identifier r raw := by
    rw [identifier, identifier, text?_insert_raw r (by decide), text?_insert_raw r (by decide)]
  rw [complete_eq, hsame, Keyed.get?_insertNew, Keyed.get?_insert, if_neg (by decide), h, if_pos rfl,
    Option.none_or]

end Record

namespace Interpretation

/-- The text beside the first occurrence of a tag. -/
def firstInline? (es : Entries) (tag : String) : Option String := (es.first? tag).bind Entry.inline

/-- No inline text is blank. -/
def HasSolidInlines (es : Entries) : Prop :=
  ∀ tag s, firstInline? es tag = some s → Text.isBlank s.toList = false

theorem hasSolidInlines_entries (comment : String) : HasSolidInlines (Comment.entries comment) := by
  intro tag s hs
  obtain ⟨e, he, hinline⟩ := Option.bind_eq_some_iff.mp hs
  rw [Comment.entries, Comment.segment, Entries.first?_ofList] at he
  exact Comment.isBlank_inline_of_mem_sectionsOf (List.mem_of_find?_eq_some he) hinline

theorem nodup_tags_entries (comment : String) : (Comment.entries comment).tags.Nodup :=
  Entries.nodup_tags_ofList _

variable {ctx : Context} {es : Entries} (raw : String)

/-- The namespace, as the package and the text beside the tag spell it. -/
def namespaceText (package : Option Package) (s : String) : Text :=
  Slug.joinDot
    (Slug.dottedOf (Tag.scopeDotted ((package.bind Package.name).getD "").toList))
    (Slug.dottedOf s.toList)

theorem namespaceOf_eq_ofList (package : Option Package) (s : String) :
    Tag.namespaceOf package s = String.ofList (namespaceText package s) := by
  have hnothing : Slug.dottedOf (Tag.scopeDotted "".toList) = [] := rfl
  rw [Tag.namespaceOf, namespaceText]
  cases package.bind Package.name with
  | none =>
    dsimp only [Option.getD_none]
    rw [Slug.dottedOf_hyphenate, hnothing]
    rfl
  | some name =>
    dsimp only [Option.getD_some]
    by_cases hname : name = ""
    · rw [hname, if_pos (by decide), Slug.dottedOf_hyphenate, hnothing]
      rfl
    · rw [if_neg (by simpa using hname), Slug.dottedOf_append_dot, Slug.dottedOf_hyphenate]

/-- The blanks around a namespace do not count. -/
theorem namespaceOf_eq (package : Option Package) (s : String) :
    Tag.namespaceOf package (String.ofList (Text.trim s.toList)) =
      String.ofList (namespaceText package s) := by
  rw [namespaceOf_eq_ofList, namespaceText, namespaceText, String.toList_ofList,
    Slug.dottedOf_trim]

/-- What the first occurrence of a tag says. -/
theorem get?_ofEntries_head {key : String} {f : Entry → Value}
    (hrender : ctx.renderMarkdown = false) (hnodup : es.tags.Nodup)
    (hkey : isPrivate key = false) (hinterface : key ∉ ["interface", "definition"])
    (hmember : key ∈ memberKeys → ∀ p ∈ es, ¬NamesBundle p)
    (hone : HandsOutOne (interpreterOf .builtin key))
    (hhead : ∀ l, interpreterOf .builtin key ctx l = .ok (l.head?.map f)) :
    Keyed.get? (ofEntries .builtin ctx raw es).record key = (es.first? key).map f := by
  rw [get?_ofEntries_builtin hrender raw hnodup hkey hinterface hmember hone, Entries.first?]
  cases Keyed.get? es key with
  | none => rfl
  | some l => simp only [Option.bind_some, hhead]; rfl

/-- The namespace is there as a text, or as a mere mark if nothing stands beside the tag. -/
theorem get?_namespace (hrender : ctx.renderMarkdown = false) (hnodup : es.tags.Nodup)
    (hsolid : HasSolidInlines es) :
    Keyed.get? (ofEntries .builtin ctx raw es).record "namespace" =
      (es.first? "namespace").map fun _ =>
        match firstInline? es "namespace" with
        | some s => .text (String.ofList (namespaceText ctx.package s))
        | none => .bool true := by
  have hnamespace : interpreterOf .builtin "namespace" = Tag.namespace_ := rfl
  rw [get?_ofEntries_head raw hrender hnodup (by decide) (by decide)
    (fun hmem => absurd hmem (by decide)) (hnamespace ▸ handsOutOne_namespace) fun _ => rfl]
  cases hfirst : es.first? "namespace" with
  | none => rfl
  | some e =>
    have hinline : firstInline? es "namespace" = e.inline := by
      rw [firstInline?, hfirst, Option.bind_some]
    rw [Option.map_some, Option.map_some, hinline]
    cases hs : e.inline with
    | none =>
      have hnone : e.inlineText? = none := by rw [Entry.inlineText?, hs]; rfl
      rw [hnone]
    | some s =>
      have hblank := hsolid "namespace" s (hinline.trans hs)
      have htext : e.inlineText? = some (String.ofList (Text.trim s.toList)) := by
        have hne : ¬(Text.trim s.toList).isEmpty = true := by
          rw [List.isEmpty_iff, Text.trim_eq_nil_iff, hblank]
          exact Bool.false_ne_true
        rw [Entry.inlineText?, hs]
        exact if_neg hne
      rw [htext]
      dsimp only
      rw [namespaceOf_eq]

/-- The name is there as it was written, unless a parameter or a style class gave another. -/
theorem get?_name (hrender : ctx.renderMarkdown = false) (hnodup : es.tags.Nodup)
    (hsolid : HasSolidInlines es) (hnames : ∀ p ∈ es, ¬NamesBundle p) :
    Keyed.get? (ofEntries .builtin ctx raw es).record "name" =
      (es.first? "name").map fun _ =>
        match firstInline? es "name" with
        | some s => .text s
        | none => .bool true := by
  have hname : interpreterOf .builtin "name" = Tag.simple := rfl
  rw [get?_ofEntries_head raw hrender hnodup (by decide) (by decide) (fun _ => hnames)
    (hname ▸ handsOutOne_simple) fun _ => rfl]
  cases hfirst : es.first? "name" with
  | none => rfl
  | some e =>
    have hinline : firstInline? es "name" = e.inline := by
      rw [firstInline?, hfirst, Option.bind_some]
    rw [Option.map_some, Option.map_some, hinline, Tag.entryValue]
    cases hs : e.inline with
    | none => rfl
    | some s => simp [hsolid "name" s (hinline.trans hs)]

/-- A tag that is not there gives its key to nobody. -/
theorem get?_id (hrender : ctx.renderMarkdown = false) (hnodup : es.tags.Nodup)
    (hid : "id" ∉ es.tags) :
    Keyed.get? (ofEntries .builtin ctx raw es).record "id" = none := by
  have hsimple : interpreterOf .builtin "id" = Tag.simple := rfl
  rw [get?_ofEntries_builtin hrender raw hnodup (by decide) (by decide)
    (fun hmem => absurd hmem (by decide)) (hsimple ▸ handsOutOne_simple),
    Keyed.get?_eq_none_iff.mpr hid]
  rfl

/-! ### Putting it together -/

/-- The text under a key that holds what the first occurrence of a tag says. -/
theorem text?_namespace (hrender : ctx.renderMarkdown = false) (hnodup : es.tags.Nodup)
    (hsolid : HasSolidInlines es) :
    Record.text? (ofEntries .builtin ctx raw es).record "namespace" =
      (firstInline? es "namespace").bind fun s =>
        if namespaceText ctx.package s = [] then none
        else some (String.ofList (namespaceText ctx.package s)) := by
  rw [Record.text?, get?_namespace raw hrender hnodup hsolid, firstInline?]
  cases es.first? "namespace" with
  | none => rfl
  | some e =>
    rw [Option.map_some, Option.bind_some]
    cases e.inline with
    | none => rfl
    | some s => simp [Value.string?]

theorem text?_name (hrender : ctx.renderMarkdown = false) (hnodup : es.tags.Nodup)
    (hsolid : HasSolidInlines es) (hnames : ∀ p ∈ es, ¬NamesBundle p) :
    Record.text? (ofEntries .builtin ctx raw es).record "name" = firstInline? es "name" := by
  rw [Record.text?, get?_name raw hrender hnodup hsolid hnames]
  cases hinline : firstInline? es "name" with
  | none => cases es.first? "name" <;> rfl
  | some s =>
    obtain ⟨e, he, -⟩ := Option.bind_eq_some_iff.mp hinline
    have hne : s ≠ "" := by
      rintro rfl
      exact absurd (hsolid "name" "" hinline) (by decide)
    simp [he, Value.string?, hne]

/-- The identifier of a comment that has a namespace and a name. -/
def identifierText (package : Option Package) (s name : String) : Text :=
  Slug.joinDot (namespaceText package s) (Slug.dottedOf name.toList)

theorem identifier_eq (hrender : ctx.renderMarkdown = false) (hnodup : es.tags.Nodup)
    (hsolid : HasSolidInlines es) (hnames : ∀ p ∈ es, ¬NamesBundle p) :
    Record.identifier (ofEntries .builtin ctx raw es).record raw =
      match firstInline? es "namespace", firstInline? es "name" with
      | some s, some name =>
        if namespaceText ctx.package s = [] then "s" ++ Sha256.hexDigest raw
        else String.ofList (identifierText ctx.package s name)
      | _, _ => "s" ++ Sha256.hexDigest raw := by
  rw [Record.identifier, text?_namespace raw hrender hnodup hsolid,
    text?_name raw hrender hnodup hsolid hnames]
  cases firstInline? es "namespace" with
  | none => rfl
  | some s =>
    rw [Option.bind_some]
    cases firstInline? es "name" with
    | none =>
      by_cases hs : namespaceText ctx.package s = []
      · rw [if_pos hs]
      · rw [if_neg hs]
    | some name =>
      by_cases hs : namespaceText ctx.package s = []
      · simp only [if_pos hs]
      · -- the namespace is a slug already, so joining it to the name leaves it alone
        have hslug : Slug.dottedOf (namespaceText ctx.package s) = namespaceText ctx.package s :=
          Slug.dottedOf_joinDot _ _
        have hdot : (String.ofList (namespaceText ctx.package s) ++ "." ++ name).toList =
            namespaceText ctx.package s ++ '.' :: name.toList := by simp
        simp only [if_neg hs]
        rw [Slug.dotted, hdot, Slug.dottedOf_append_dot, hslug, identifierText]

theorem identifierText_ne_nil {package : Option Package} {s : String}
    (h : namespaceText package s ≠ []) (name : String) : identifierText package s name ≠ [] :=
  Slug.joinDot_ne_nil h _

theorem dottedOf_identifierText (package : Option Package) (s name : String) :
    Slug.dottedOf (identifierText package s name) = identifierText package s name := by
  have hslug : Slug.dottedOf (namespaceText package s) = namespaceText package s :=
    Slug.dottedOf_joinDot _ _
  rw [identifierText, ← hslug, Slug.dottedOf_joinDot]

/-- The identifier is the namespace, or goes on behind it. -/
theorem identifierText_eq_or {package : Option Package} {s : String}
    (h : namespaceText package s ≠ []) (name : String) :
    identifierText package s name = namespaceText package s ∨
      ∃ rest, rest ≠ [] ∧ identifierText package s name = namespaceText package s ++ '.' :: rest := by
  rw [identifierText, Slug.joinDot, if_neg h]
  by_cases hname : Slug.dottedOf name.toList = []
  · exact Or.inl (if_pos hname)
  · exact Or.inr ⟨_, hname, if_neg hname⟩

theorem record_ofComment (registry : Registry) (ctx : Context) (comment : String) :
    (Block.ofComment registry ctx comment).1.record =
      Record.complete (ofEntries registry ctx (Comment.normalize comment)
        (Comment.entries comment)).record (Comment.normalize comment) := by
  simp only [Block.ofComment, Comment.entries, Entries.interpret]

/-- What the record of a comment holds, given the first namespace and the first name. -/
theorem get?_complete_id_eq (hrender : ctx.renderMarkdown = false) (hnodup : es.tags.Nodup)
    (hsolid : HasSolidInlines es) (hid : "id" ∉ es.tags) (hnames : ∀ p ∈ es, ¬NamesBundle p) :
    Keyed.get? (Record.complete (ofEntries .builtin ctx raw es).record raw) "id" =
      some (.text (match firstInline? es "namespace", firstInline? es "name" with
        | some s, some name =>
          if namespaceText ctx.package s = [] then "s" ++ Sha256.hexDigest raw
          else String.ofList (identifierText ctx.package s name)
        | _, _ => "s" ++ Sha256.hexDigest raw)) := by
  rw [Record.get?_complete_id _ _ (get?_id raw hrender hnodup hid),
    identifier_eq raw hrender hnodup hsolid hnames]

/-- A digest stands for whatever of namespace and name is not there. -/
theorem get?_complete_id_of_neither (hrender : ctx.renderMarkdown = false)
    (hnodup : es.tags.Nodup) (hsolid : HasSolidInlines es) (hid : "id" ∉ es.tags)
    (hnames : ∀ p ∈ es, ¬NamesBundle p)
    (hneither : ¬∃ s name, firstInline? es "namespace" = some s ∧
      firstInline? es "name" = some name ∧ namespaceText ctx.package s ≠ []) :
    Keyed.get? (Record.complete (ofEntries .builtin ctx raw es).record raw) "id" =
      some (.text ("s" ++ Sha256.hexDigest raw)) := by
  rw [get?_complete_id_eq raw hrender hnodup hsolid hid hnames]
  cases hs : firstInline? es "namespace" with
  | none => rfl
  | some s =>
    cases hname : firstInline? es "name" with
    | none => rfl
    | some name =>
      have hempty : namespaceText ctx.package s = [] :=
        not_not.mp fun hne => hneither ⟨s, name, hs, hname, hne⟩
      dsimp only
      rw [if_pos hempty]

/-- **The identifier is built from namespace and name**, or is a digest, whatever the comment says
besides. -/
theorem identifier_coherent (hrender : ctx.renderMarkdown = false) (comment : String)
    (hid : "id" ∉ (Comment.entries comment).tags)
    (hnames : ∀ p ∈ Comment.entries comment, ¬NamesBundle p) :
    let es := Comment.entries comment
    let record := (Block.ofComment .builtin ctx comment).1.record
    (∀ s, firstInline? es "namespace" = some s →
      Keyed.get? record "namespace" =
        some (.text (String.ofList (namespaceText ctx.package s)))) ∧
    (∀ s name, firstInline? es "namespace" = some s → firstInline? es "name" = some name →
      namespaceText ctx.package s ≠ [] →
        let id := identifierText ctx.package s name
        Keyed.get? record "id" = some (.text (String.ofList id)) ∧
          id ≠ [] ∧ Slug.dottedOf id = id ∧
          (id = namespaceText ctx.package s ∨
            ∃ rest, rest ≠ [] ∧ id = namespaceText ctx.package s ++ '.' :: rest)) ∧
    ((¬∃ s name, firstInline? es "namespace" = some s ∧ firstInline? es "name" = some name ∧
      namespaceText ctx.package s ≠ []) →
        ∃ digits : String, Keyed.get? record "id" = some (.text ("s" ++ digits)) ∧
          digits.length = 64 ∧ ∀ c ∈ digits.toList, c ∈ "0123456789abcdef".toList) := by
  have hnodup := nodup_tags_entries comment
  have hsolid := hasSolidInlines_entries comment
  dsimp only
  rw [record_ofComment]
  generalize Comment.entries comment = es at hid hnames hnodup hsolid ⊢
  generalize Comment.normalize comment = raw
  refine ⟨fun s hs => ?_, fun s name hs hname hne => ⟨?_, identifierText_ne_nil hne name,
    dottedOf_identifierText _ _ _, identifierText_eq_or hne name⟩, fun hneither => ?_⟩
  · obtain ⟨e, he, -⟩ := Option.bind_eq_some_iff.mp hs
    rw [Record.get?_complete_of_ne _ _ (by decide) (by decide),
      get?_namespace raw hrender hnodup hsolid, he, Option.map_some, hs]
  · rw [get?_complete_id_eq raw hrender hnodup hsolid hid hnames, hs, hname]
    dsimp only
    rw [if_neg hne]
  · exact ⟨_, get?_complete_id_of_neither raw hrender hnodup hsolid hid hnames hneither,
      Sha256.length_hexDigest raw, fun c => Sha256.isHexDigit_of_mem_hexDigest⟩

/-- A comment with a namespace, a name and a parameter. -/
def namedSample : String :=
  "/**\n * @namespace Shared Tags\n * @name cssClass\n * @param String  names\n */"

/-- A package with a scope. -/
def scopedContext : Context :=
  { package := some { name := some "@acme/Kit" }, renderer := .html }

theorem identifier_coherent_sample :
    (∀ p ∈ Comment.entries namedSample, ¬NamesBundle p) ∧
      Keyed.get? (Block.ofComment .builtin scopedContext namedSample).1.record "id" =
        some (.text "@acme.kit.shared-tags.cssclass") := by
  have hentries : Comment.entries namedSample =
      [("namespace", [{ tag := "namespace", inline := some "Shared Tags" }]),
        ("name", [{ tag := "name", inline := some "cssClass" }]),
        ("param", [{ tag := "param", inline := some "String  names" }])] := by decide +kernel
  have hid : "id" ∉ (Comment.entries namedSample).tags := by rw [hentries]; decide
  have hnames : ∀ p ∈ Comment.entries namedSample, ¬NamesBundle p := by
    rw [hentries]
    unfold NamesBundle
    decide +kernel
  have hspace : namespaceText scopedContext.package "Shared Tags" ≠ [] := by decide +kernel
  have htext : String.ofList (identifierText scopedContext.package "Shared Tags" "cssClass") =
      "@acme.kit.shared-tags.cssclass" := by decide +kernel
  have hrender : scopedContext.renderMarkdown = false := rfl
  obtain ⟨-, hboth, -⟩ := identifier_coherent hrender namedSample hid hnames
  have hfound := hboth "Shared Tags" "cssClass" (by rw [hentries]; rfl) (by rw [hentries]; rfl)
    hspace
  exact ⟨hnames, htext ▸ hfound.1⟩

/-- A parameter by the name `tags` gives the comment its own name, which is then part of an
identifier although the comment has none. -/
theorem not_forall_digest :
    ¬∀ (ctx : Context) (comment : String), ctx.renderMarkdown = false →
      "id" ∉ (Comment.entries comment).tags → "name" ∉ (Comment.entries comment).tags →
        ∃ digits : String, digits.length = 64 ∧
          Keyed.get? (Block.ofComment .builtin ctx comment).1.record "id" =
            some (.text ("s" ++ digits)) := by
  intro h
  have hentries : Comment.entries "/**\n * @namespace a\n * @param String  tags\n */" =
      [("namespace", [{ tag := "namespace", inline := some "a" }]),
        ("param", [{ tag := "param", inline := some "String  tags" }])] := by decide +kernel
  have hfound : (Keyed.get? (Block.ofComment .builtin { renderer := .html }
      "/**\n * @namespace a\n * @param String  tags\n */").1.record "id").bind Value.string? =
        some "a.tags" := by decide +kernel
  obtain ⟨digits, -, hdigits⟩ := h { renderer := .html }
    "/**\n * @namespace a\n * @param String  tags\n */" rfl (by rw [hentries]; decide)
    (by rw [hentries]; decide)
  rw [hdigits] at hfound
  have hchars : ("s" ++ digits).toList = "a.tags".toList :=
    congrArg String.toList (Option.some.inj hfound)
  rw [String.toList_append] at hchars
  exact absurd (List.cons.inj hchars).1 (by decide)

end Interpretation

end DocComment
