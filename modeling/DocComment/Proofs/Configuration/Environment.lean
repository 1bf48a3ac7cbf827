/-
What an environment variable sets.

The value of a variable is tidy (`isTidy_valueOf`), and so is the object in which its name puts it
(`isTidy_of_layerOf?`); that object has nothing beside the path that the name spells.
-/
import DocComment.Configuration.Environment
import DocComment.Proofs.Json.Reader

namespace DocComment.Environment

theorem isTidy_wordValue (t : Text) : (wordValue t).IsTidy := by
  rw [wordValue]
  split
  · exact .bool true
  · split
    · exact .bool false
    · split
      · exact .number _
      · exact .string _

mutual

theorem isTidy_of_value? : ∀ (fuel : Nat) {t rest : Text} {v : Json},
    value? fuel t = some (v, rest) → v.IsTidy
  | 0, _, _, _, h => by cases h
  | fuel + 1, t, rest, v, h => by
    unfold value? at h
    split at h
    all_goals
      obtain ⟨⟨v', t'⟩, hv, h⟩ := Option.bind_eq_some_iff.mp h
      cases h
    · obtain ⟨⟨items, t''⟩, hitems, heq⟩ := Option.map_eq_some_iff.mp hv
      cases heq
      exact .array (isTidy_of_items? fuel (List.forall_mem_nil _) hitems)
    · obtain ⟨⟨members, t''⟩, hmembers, heq⟩ := Option.map_eq_some_iff.mp hv
      cases heq
      exact isTidy_of_members? fuel Json.isTidy_emptyObject hmembers
    · obtain ⟨⟨s, t''⟩, -, heq⟩ := Option.map_eq_some_iff.mp hv
      cases heq
      exact .string _
    · cases hv
      exact .string _
    · cases hv
    · cases hv
      exact isTidy_wordValue _

theorem isTidy_of_items? : ∀ (fuel : Nat) {done items : List Json} {t rest : Text},
    (∀ j ∈ done, j.IsTidy) → items? fuel done t = some (items, rest) → ∀ j ∈ items, j.IsTidy
  | 0, _, _, _, _, _, h => by cases h
  | fuel + 1, done, items, t, rest, hdone, h => by
    unfold items? at h
    split at h
    · cases h
      exact fun j hj => hdone j (List.mem_reverse.mp hj)
    · split at h
      · next v t' hv =>
        have hmore := List.forall_mem_cons.mpr ⟨isTidy_of_value? fuel hv, hdone⟩
        exact isTidy_of_items? fuel hmore h
      · next v t' hv =>
        have hmore := List.forall_mem_cons.mpr ⟨isTidy_of_value? fuel hv, hdone⟩
        cases h
        exact fun j hj => hmore j (List.mem_reverse.mp hj)
      · cases h

theorem isTidy_of_members? : ∀ (fuel : Nat) {done members : Keyed Json} {t rest : Text},
    (Json.object done).IsTidy → members? fuel done t = some (members, rest) →
    (Json.object members).IsTidy
  | 0, _, _, _, _, _, h => by cases h
  | fuel + 1, done, members, t, rest, hdone, h => by
    unfold members? at h
    split at h
    · cases h
      exact hdone
    · split at h
      · cases h
      · split at h
        · next v t' hv =>
          exact isTidy_of_members? fuel (hdone.insert _ (isTidy_of_value? fuel hv)) h
        · next v t' hv =>
          cases h
          exact hdone.insert _ (isTidy_of_value? fuel hv)
        · cases h

end

theorem isTidy_valueOf (s : String) : (valueOf s).IsTidy := by
  rw [valueOf]
  split
  · next v hv => exact isTidy_of_value? _ hv
  · exact .string s

theorem isTidy_nested {v : Json} (hv : v.IsTidy) (path : List String) : (nested v path).IsTidy := by
  induction path with
  | nil => exact hv
  | cons k ks ih => exact Json.isTidy_emptyObject.insert k ih

theorem pathOf?_ne_nil {name : String} {path : List String} (h : pathOf? name = some path) :
    path ≠ [] := by
  rw [pathOf?] at h
  split at h
  · cases h
  · dsimp only at h
    split at h
    · cases h
    · cases h
      simp

/-- A variable sets a member of the configuration. -/
theorem exists_object_of_layerOf? {name value : String} {layer : Json}
    (h : layerOf? name value = some layer) : ∃ members, layer = .object members := by
  obtain ⟨path, hpath, rfl⟩ := Option.map_eq_some_iff.mp h
  obtain ⟨k, ks, rfl⟩ := List.exists_cons_of_ne_nil (pathOf?_ne_nil hpath)
  exact ⟨_, rfl⟩

theorem isTidy_of_layerOf? {name value : String} {layer : Json}
    (h : layerOf? name value = some layer) : layer.IsTidy := by
  obtain ⟨path, -, rfl⟩ := Option.map_eq_some_iff.mp h
  exact isTidy_nested (isTidy_valueOf value) path

end DocComment.Environment
