/-
What the reading machine makes of a document of tables.

Like every document that is read, it is tidy: each of its objects has each key once
(`isTidy_of_parse?`).  What the machine holds is tidy from the start, and every token leaves it so
(`Reader.IsTidy.step`, `Reader.IsTidy.run`), as values only go under new keys (`isTidy_insertAt?`).
-/
import DocComment.Proofs.Json.Reader
import DocComment.Toml.Reader

namespace DocComment.Toml

/-! ### Tables -/

theorem isTidy_insertAt? {v : Json} (hv : v.IsTidy) {path : List String} {t t' : Keyed Json}
    (ht : (Json.object t).IsTidy) (h : insertAt? v path t = some t') :
    (Json.object t').IsTidy := by
  fun_induction insertAt? v path t generalizing t' with
  | case1 => cases h
  | case2 => cases h
  | case3 k t hnew =>
    cases h
    exact ht.insert k hv
  | case4 k ks t hks hnone ih =>
    obtain ⟨inner, hinner, rfl⟩ := Option.map_eq_some_iff.mp h
    exact ht.insert k (ih Json.isTidy_emptyObject hinner)
  | case5 k ks t hks inner hget ih =>
    obtain ⟨inner', hinner, rfl⟩ := Option.map_eq_some_iff.mp h
    exact ht.insert k (ih (ht.of_get? hget) hinner)
  | case6 => cases h

theorem isTidy_ensureAt? {path : List String} {t t' : Keyed Json} (ht : (Json.object t).IsTidy)
    (h : ensureAt? path t = some t') : (Json.object t').IsTidy := by
  fun_induction ensureAt? path t generalizing t' with
  | case1 t =>
    cases h
    exact ht
  | case2 k ks t hnone ih =>
    obtain ⟨inner, hinner, rfl⟩ := Option.map_eq_some_iff.mp h
    exact ht.insert k (ih Json.isTidy_emptyObject hinner)
  | case3 k ks t inner hget ih =>
    obtain ⟨inner', hinner, rfl⟩ := Option.map_eq_some_iff.mp h
    exact ht.insert k (ih (ht.of_get? hget) hinner)
  | case4 => cases h

theorem isTidy_atomOf? {t : Text} {v : Json} (h : atomOf? t = some v) : v.IsTidy := by
  rw [atomOf?] at h
  split at h
  · cases h
    exact .bool true
  · split at h
    · cases h
      exact .bool false
    · dsimp only at h
      split at h
      · cases h
        exact .number _
      · cases h

/-! ### The machine -/

/-- What a frame holds is tidy. -/
inductive Frame.IsTidy : Frame → Prop where
  | entry (path : List String) : IsTidy (.entry path)
  | items {done : List Json} (h : ∀ j ∈ done, j.IsTidy) : IsTidy (.items done)
  | members {done : Keyed Json} (h : (Json.object done).IsTidy) : IsTidy (.members done)

namespace Frame.IsTidy

theorem of_items {done : List Json} (h : Frame.IsTidy (.items done)) : ∀ j ∈ done, j.IsTidy := by
  cases h with
  | items h => exact h

theorem of_members {done : Keyed Json} (h : Frame.IsTidy (.members done)) :
    (Json.object done).IsTidy := by
  cases h with
  | members h => exact h

end Frame.IsTidy

/-- All that is being read is tidy. -/
inductive Place.IsTidy : Place → Prop where
  | line : IsTidy .line
  | header : IsTidy .header
  | headerEnd (path : List String) : IsTidy (.headerEnd path)
  | lineEnd : IsTidy .lineEnd
  | key {done : Keyed Json} {stack : List Frame} (h : (Json.object done).IsTidy)
      (hstack : ∀ f ∈ stack, f.IsTidy) : IsTidy (.key done stack)
  | equals (path : List String) {stack : List Frame} (hstack : ∀ f ∈ stack, f.IsTidy) :
      IsTidy (.equals path stack)
  | value {stack : List Frame} (hstack : ∀ f ∈ stack, f.IsTidy) : IsTidy (.value stack)
  | after {v : Json} {stack : List Frame} (h : v.IsTidy) (hstack : ∀ f ∈ stack, f.IsTidy) :
      IsTidy (.after v stack)

namespace Reader

/-- All that has been read is tidy. -/
structure IsTidy (r : Reader) : Prop where
  root : (Json.object r.root).IsTidy
  place : r.place.IsTidy

theorem IsTidy.goTo {r : Reader} (hr : r.IsTidy) {p : Place} (hp : p.IsTidy) :
    (r.goTo p).IsTidy := ⟨hr.root, hp⟩

theorem IsTidy.valueStep {r r' : Reader} (hr : r.IsTidy) {stack : List Frame}
    (hstack : ∀ f ∈ stack, f.IsTidy) {token : Token} (h : r.valueStep? stack token = some r') :
    r'.IsTidy := by
  unfold valueStep? at h
  split at h
  · obtain ⟨v, hv, rfl⟩ := Option.map_eq_some_iff.mp h
    exact hr.goTo (.after (isTidy_atomOf? hv) hstack)
  · cases h
    exact hr.goTo (.after (.string _) hstack)
  · cases h
    exact hr.goTo (.value (List.forall_mem_cons.mpr ⟨.items (List.forall_mem_nil _), hstack⟩))
  · cases h
    exact hr.goTo (.key Json.isTidy_emptyObject hstack)
  · cases h

theorem IsTidy.afterStep {r r' : Reader} (hr : r.IsTidy) {v : Json} (hv : v.IsTidy)
    {stack : List Frame} (hstack : ∀ f ∈ stack, f.IsTidy) {token : Token}
    (h : r.afterStep? v stack token = some r') : r'.IsTidy := by
  unfold afterStep? at h
  split at h
  · -- the end of a line
    obtain ⟨root, hroot, rfl⟩ := Option.map_eq_some_iff.mp h
    exact ⟨isTidy_insertAt? hv hr.root hroot, .line⟩
  · -- a comma in an inline table
    obtain ⟨done, hdone, rfl⟩ := Option.map_eq_some_iff.mp h
    obtain ⟨-, htable, hstack⟩ := (List.forall_mem_cons.mp hstack).imp_right List.forall_mem_cons.mp
    exact hr.goTo (.key (isTidy_insertAt? hv htable.of_members hdone) hstack)
  · -- the end of an inline table
    obtain ⟨done, hdone, rfl⟩ := Option.map_eq_some_iff.mp h
    obtain ⟨-, htable, hstack⟩ := (List.forall_mem_cons.mp hstack).imp_right List.forall_mem_cons.mp
    exact hr.goTo (.after (isTidy_insertAt? hv htable.of_members hdone) hstack)
  · -- a comma in an array
    cases h
    obtain ⟨hdone, hstack⟩ := List.forall_mem_cons.mp hstack
    have hitems := List.forall_mem_cons.mpr ⟨hv, hdone.of_items⟩
    exact hr.goTo (.value (List.forall_mem_cons.mpr ⟨.items hitems, hstack⟩))
  · -- the end of an array
    cases h
    obtain ⟨hdone, hstack⟩ := List.forall_mem_cons.mp hstack
    have hitems := List.forall_mem_cons.mpr ⟨hv, hdone.of_items⟩
    exact hr.goTo (.after (.array fun j hj => hitems j (List.mem_reverse.mp hj)) hstack)
  · cases h
    exact hr.goTo (.after hv hstack)
  · cases h

theorem IsTidy.step {r r' : Reader} (hr : r.IsTidy) {token : Token}
    (h : r.step? token = some r') : r'.IsTidy := by
  have hplace := hr.place
  unfold step? at h
  split at h
  · split at h
    · cases h
      exact hr
    · cases h
      exact hr.goTo .header
    · obtain ⟨path, -, rfl⟩ := Option.map_eq_some_iff.mp h
      exact hr.goTo (.equals path (List.forall_mem_nil _))
  · obtain ⟨path, -, rfl⟩ := Option.map_eq_some_iff.mp h
    exact hr.goTo (.headerEnd path)
  · split at h
    · obtain ⟨root, hroot, rfl⟩ := Option.map_eq_some_iff.mp h
      exact ⟨isTidy_ensureAt? hr.root hroot, .lineEnd⟩
    · cases h
  · split at h <;> cases h
    exact hr.goTo .line
  · next hat =>
    rw [hat] at hplace
    cases hplace with
    | key hdone hstack =>
      split at h
      · split at h <;> cases h
        exact hr.goTo (.after Json.isTidy_emptyObject hstack)
      · obtain ⟨path, -, rfl⟩ := Option.map_eq_some_iff.mp h
        exact hr.goTo (.equals path (List.forall_mem_cons.mpr ⟨.members hdone, hstack⟩))
  · next hat =>
    rw [hat] at hplace
    cases hplace with
    | equals _ hstack =>
      split at h <;> cases h
      exact hr.goTo (.value (List.forall_mem_cons.mpr ⟨.entry _, hstack⟩))
  · next hat =>
    rw [hat] at hplace
    cases hplace with
    | value hstack =>
      split at h
      · cases h
        exact hr
      · cases h
        obtain ⟨hdone, hstack⟩ := List.forall_mem_cons.mp hstack
        have hitems := hdone.of_items
        exact hr.goTo (.after (.array fun j hj => hitems j (List.mem_reverse.mp hj)) hstack)
      · exact hr.valueStep hstack h
  · next hat =>
    rw [hat] at hplace
    cases hplace with
    | after hv hstack => exact hr.afterStep hv hstack h

theorem IsTidy.run {r r' : Reader} (hr : r.IsTidy) {tokens : List Token}
    (h : tokens.foldlM step? r = some r') : r'.IsTidy := by
  induction tokens generalizing r with
  | nil =>
    cases h
    exact hr
  | cons token tokens ih =>
    rw [List.foldlM_cons] at h
    obtain ⟨next, hnext, h⟩ := Option.bind_eq_some_iff.mp h
    exact ih (hr.step hnext) h

end Reader

theorem isTidy_of_parse? {s : String} {members : Keyed Json} (h : parse? s = some members) :
    (Json.object members).IsTidy := by
  obtain ⟨tokens, -, h⟩ := Option.bind_eq_some_iff.mp h
  obtain ⟨reader, hrun, h⟩ := Option.bind_eq_some_iff.mp h
  have hreader : reader.IsTidy := Reader.IsTidy.run ⟨Json.isTidy_emptyObject, .line⟩ hrun
  rw [Reader.result?] at h
  split at h <;> cases h
  exact hreader.root

end DocComment.Toml
