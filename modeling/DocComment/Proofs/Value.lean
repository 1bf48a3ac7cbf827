/-
Values and plain data.

Plain data is read as a value without a loss, whatever becomes of its strings (`toJson_ofJsonWith`).
The other way round only one thing is lost, and it is which texts were markdown: what comes back
mirrors the value, with plain leaves (`IsUnmarked`, `ofJson_toJson_eq_iff`).  A value is spelled as
text without going through plain data, and yet like it (`write_toJson`).

* `plainData_lossless` puts this together.
-/
import DocComment.Proofs.Rendering

namespace DocComment.Value

/-! ### From plain data and back -/

mutual

theorem toJson_ofJsonWith {leaf : String → Value} (hleaf : ∀ s, (leaf s).toJson = .string s) :
    ∀ j : Json, (ofJsonWith leaf j).toJson = j
  | .null | .bool _ | .number _ => rfl
  | .string s => hleaf s
  | .array items => congrArg Json.array (toJsonItems_ofItemsWith hleaf items)
  | .object members => congrArg Json.object (toJsonMembers_ofMembersWith hleaf members)

theorem toJsonItems_ofItemsWith {leaf : String → Value}
    (hleaf : ∀ s, (leaf s).toJson = .string s) :
    ∀ items : List Json, toJsonItems (ofItemsWith leaf items) = items
  | [] => rfl
  | j :: items =>
    congrArg₂ List.cons (toJson_ofJsonWith hleaf j) (toJsonItems_ofItemsWith hleaf items)

theorem toJsonMembers_ofMembersWith {leaf : String → Value}
    (hleaf : ∀ s, (leaf s).toJson = .string s) :
    ∀ members : List (String × Json), toJsonMembers (ofMembersWith leaf members) = members
  | [] => rfl
  | (k, j) :: members =>
    congrArg₂ (fun w ws => (k, w) :: ws) (toJson_ofJsonWith hleaf j)
      (toJsonMembers_ofMembersWith hleaf members)

end

/-! ### To plain data and back -/

/-- The second leaf is the first one without its mark, if it is markdown, or else the same. -/
inductive IsUnmarked : Value → Value → Prop
  | markdown (s : String) : IsUnmarked (.markdown s) (.text s)
  | other {v : Value} (h : ∀ s, v ≠ .markdown s) : IsUnmarked v v

theorem isUnmarked_iff_of_ne {v w : Value} (h : ∀ s, v ≠ .markdown s) :
    IsUnmarked v w ↔ v = w := by
  constructor
  · rintro (s | -)
    · exact absurd rfl (h s)
    · rfl
  · rintro rfl
    exact .other h

/-- A leaf without a mark comes back as it is. -/
theorem eq_iff_mirrors_of_ne {path : List String} {v w : Value} (hleaf : v.isLeaf = true)
    (h : ∀ s, v ≠ .markdown s) : v = w ↔ Mirrors (fun _ => IsUnmarked) path v w := by
  rw [mirrors_iff_of_isLeaf hleaf, isUnmarked_iff_of_ne h]

mutual

theorem ofJson_toJson_eq_iff : ∀ (v : Value) (path : List String) (w : Value),
    ofJson v.toJson = w ↔ Mirrors (fun _ => IsUnmarked) path v w
  | .null, _, _ => eq_iff_mirrors_of_ne rfl nofun
  | .bool _, _, _ => eq_iff_mirrors_of_ne rfl nofun
  | .number _, _, _ => eq_iff_mirrors_of_ne rfl nofun
  | .text _, _, _ => eq_iff_mirrors_of_ne rfl nofun
  | .markdown s, path, w => by
    rw [mirrors_iff_of_isLeaf rfl]
    constructor
    · rintro rfl
      exact .markdown s
    · rintro (_ | h)
      · rfl
      · exact absurd rfl (h s)
  | .list vs, path, w => by
    constructor
    · rintro rfl
      exact .list ((ofItems_toJsonItems_eq_iff vs path _).mp rfl)
    · rintro (⟨⟨⟩⟩ | h | h)
      exact congrArg Value.list ((ofItems_toJsonItems_eq_iff vs path _).mpr h)
  | .record fs, path, w => by
    constructor
    · rintro rfl
      exact .record ((ofMembers_toJsonMembers_eq_iff fs path _).mp rfl)
    · rintro (⟨⟨⟩⟩ | h | h)
      exact congrArg Value.record ((ofMembers_toJsonMembers_eq_iff fs path _).mpr h)

theorem ofItems_toJsonItems_eq_iff : ∀ (vs : List Value) (path : List String) (ws : List Value),
    ofItemsWith text (toJsonItems vs) = ws ↔ ItemsMirror (fun _ => IsUnmarked) path vs ws
  | [], path, ws => by
    constructor
    · rintro rfl
      exact .nil
    · rintro ⟨⟩
      rfl
  | v :: vs, path, ws => by
    constructor
    · rintro rfl
      exact .cons ((ofJson_toJson_eq_iff v path _).mp rfl)
        ((ofItems_toJsonItems_eq_iff vs path _).mp rfl)
    · rintro (_ | ⟨h, hs⟩)
      exact congrArg₂ List.cons ((ofJson_toJson_eq_iff v path _).mpr h)
        ((ofItems_toJsonItems_eq_iff vs path _).mpr hs)

theorem ofMembers_toJsonMembers_eq_iff : ∀ (fs : List (String × Value)) (path : List String)
    (gs : List (String × Value)),
    ofMembersWith text (toJsonMembers fs) = gs ↔ FieldsMirror (fun _ => IsUnmarked) path fs gs
  | [], path, gs => by
    constructor
    · rintro rfl
      exact .nil
    · rintro ⟨⟩
      rfl
  | (k, v) :: fs, path, gs => by
    constructor
    · rintro rfl
      exact .cons ((ofJson_toJson_eq_iff v (path ++ [k]) _).mp rfl)
        ((ofMembers_toJsonMembers_eq_iff fs path _).mp rfl)
    · rintro (_ | ⟨h, hs⟩)
      exact congrArg₂ (fun w ws => (k, w) :: ws) ((ofJson_toJson_eq_iff v (path ++ [k]) _).mpr h)
        ((ofMembers_toJsonMembers_eq_iff fs path _).mpr hs)

end

/-! ### As text -/

mutual

theorem write_toJson : ∀ v : Value, v.toJson.write = v.write
  | .null | .bool _ | .number _ | .text _ | .markdown _ => rfl
  | .list vs => by rw [toJson, Json.write, write, writeItems_toJsonItems vs]
  | .record fs => by rw [toJson, Json.write, write, writeMembers_toJsonMembers fs]

theorem writeItems_toJsonItems : ∀ vs : List Value,
    Json.writeItems (toJsonItems vs) = writeItems vs
  | [] => rfl
  | v :: vs => congrArg₂ List.cons (write_toJson v) (writeItems_toJsonItems vs)

theorem writeMembers_toJsonMembers : ∀ fs : List (String × Value),
    Json.writeMembers (toJsonMembers fs) = writeMembers fs
  | [] => rfl
  | (k, v) :: fs =>
    congrArg₂ (fun s ss => (Json.quoted k ++ ":" ++ s) :: ss) (write_toJson v)
      (writeMembers_toJsonMembers fs)

end

/-- **Values and plain data go into each other without loss.**  Plain data comes back from a value
as it was, members in their order; a value comes back from plain data as the same tree, with every
markdown leaf a text and all other leaves as they were; and the text of a value is the text of its
plain data. -/
theorem plainData_lossless :
    (∀ j : Json, (ofJson j).toJson = j) ∧
    (∀ v w : Value, ofJson v.toJson = w ↔ Mirrors (fun _ => IsUnmarked) [] v w) ∧
    ∀ v : Value, v.write = v.toJson.write :=
  ⟨toJson_ofJsonWith fun _ => rfl, fun v => ofJson_toJson_eq_iff v [],
    fun v => (write_toJson v).symm⟩

/-- The mark of the second text is lost, the order of the keys is not. -/
example :
    let v : Value := .record [("see", .list [.text "u", .markdown "*n*"]), ("a", .bool true)]
    ofJson v.toJson = .record [("see", .list [.text "u", .text "*n*"]), ("a", .bool true)] := rfl

end DocComment.Value
