/-
Keyed lists through their two views, order of keys and look-up.

* `keys_append`, `get?_append` — the views of a list that goes on: what comes later is looked up only
  under new keys;
* `mem_of_get?`, `mem_alter`, `mem_insert` — what is looked up is there, and a change or an
  insertion adds one pair at most;
* `keys_foldl_alter`, `keys_ofList` — changes one after the other leave their keys in the order in
  which they first occur;
* `get?_ofList`, `get?_ofList_append_cons` — of the pairs with one key, a keyed list takes the last;
* `get?_insertNew`, `keys_insertNew` — an insertion that overwrites nothing;
* `get?_mapValues`, `keys_mapValues` — other values under the same keys;
* `mem_keys_insert`, `alter_alter` — the keys after a change, and two changes under one key;
* `nodup_keys_concat`, `nodup_keys_alter`, `nodup_keys_ofList` — a new key at the end, a change and
  a reading of pairs keep every key once;
* `ext_of_keys` — with each key once, the two views are all there is to a keyed list;
* `get?_eq_of_perm`, `perm_of_get?_eq` — with each key once, look-ups tell two lists apart up to
  their order.
-/
import DocComment.Keyed
import Mathlib.Data.List.Induction
import Mathlib.Data.List.Nodup

namespace DocComment.Keyed

variable {α : Type}

@[simp] theorem keys_append (m m' : Keyed α) : keys (m ++ m') = keys m ++ keys m' :=
  List.map_append

theorem get?_append (m m' : Keyed α) (key : String) :
    get? (m ++ m') key = (get? m key).or (get? m' key) := by
  induction m with
  | nil => rfl
  | cons p m ih =>
    obtain ⟨k, v⟩ := p
    by_cases h : k = key
    · simp [get?, h]
    · simp only [List.cons_append, get?, if_neg h, ih]

theorem get?_eq_none_iff {m : Keyed α} {key : String} : get? m key = none ↔ key ∉ m.keys := by
  rw [← contains_iff_mem_keys, contains]
  cases get? m key <;> simp

theorem get?_singleton_eq_some_iff {k key : String} {v w : α} :
    get? [(k, v)] key = some w ↔ k = key ∧ v = w := by
  by_cases h : k = key <;> simp [get?, h]

theorem mem_of_get? {m : Keyed α} {key : String} {v : α} (h : get? m key = some v) :
    (key, v) ∈ m := by
  induction m with
  | nil => cases h
  | cons p m ih =>
    obtain ⟨k, w⟩ := p
    by_cases hk : k = key
    · obtain rfl : w = v := by simpa [get?, hk] using h
      exact hk ▸ List.mem_cons_self
    · exact List.mem_cons_of_mem _ (ih (by simpa [get?, hk] using h))

theorem mem_keys_of_get? {m : Keyed α} {key : String} {v : α} (h : get? m key = some v) :
    key ∈ m.keys :=
  List.mem_map.mpr ⟨_, mem_of_get? h, rfl⟩

theorem mem_alter {m : Keyed α} {key : String} {f : Option α → α} {p : String × α}
    (h : p ∈ m.alter key f) : p ∈ m ∨ ∃ old, p = (key, f old) := by
  induction m with
  | nil => exact Or.inr ⟨none, List.mem_singleton.mp h⟩
  | cons q m ih =>
    obtain ⟨k, w⟩ := q
    by_cases hk : k = key
    · rw [alter, if_pos hk, List.mem_cons] at h
      rcases h with rfl | h
      · exact Or.inr ⟨some w, by rw [hk]⟩
      · exact Or.inl (List.mem_cons_of_mem _ h)
    · rw [alter, if_neg hk, List.mem_cons] at h
      rcases h with rfl | h
      · exact Or.inl List.mem_cons_self
      · exact (ih h).imp_left (List.mem_cons_of_mem _)

theorem mem_insert {m : Keyed α} {key : String} {v : α} {p : String × α}
    (h : p ∈ m.insert key v) : p ∈ m ∨ p = (key, v) :=
  (mem_alter h).imp_right fun ⟨_, hp⟩ => hp

/-- What is looked up after a fold was there before, or one of its steps put it there. -/
theorem exists_of_get?_foldl {β : Type} {f : Keyed α → β → Keyed α} {key : String} {w : α}
    {Q : β → Prop}
    (hstep : ∀ m b, get? (f m b) key = some w → get? m key = some w ∨ Q b) {bs : List β}
    {m : Keyed α} (h : get? (bs.foldl f m) key = some w) :
    get? m key = some w ∨ ∃ b ∈ bs, Q b := by
  induction bs generalizing m with
  | nil => exact Or.inl h
  | cons b bs ih =>
    rcases ih h with h | ⟨b', hb', hq⟩
    · exact (hstep m b h).imp_right fun hq => ⟨b, List.mem_cons_self, hq⟩
    · exact Or.inr ⟨b', List.mem_cons_of_mem b hb', hq⟩

theorem get?_erase_of_ne (m : Keyed α) {key k : String} (h : k ≠ key) :
    get? (m.erase key) k = get? m k := by
  induction m with
  | nil => rfl
  | cons p m ih =>
    obtain ⟨k', v⟩ := p
    by_cases hk : k' = key
    · have hne : k' ≠ k := fun hk' => h (hk'.symm.trans hk)
      rw [erase, List.filter_cons_of_neg (by simpa using hk), ← erase, ih, get?, if_neg hne]
    · rw [erase, List.filter_cons_of_pos (by simpa using hk), ← erase, get?, get?, ih]

theorem get?_erase_self (m : Keyed α) (key : String) : get? (m.erase key) key = none := by
  rw [get?_eq_none_iff]
  simp [keys, erase]

theorem keys_foldl_alter {β : Type} (key : β → String) (f : β → Option α → α) (bs : List β) :
    keys (bs.foldl (fun m b => alter m (key b) (f b)) []) = (bs.map key).eraseDups := by
  induction bs using List.reverseRecOn with
  | nil => rfl
  | append_singleton bs b ih =>
    rw [List.foldl_append, List.foldl_cons, List.foldl_nil, keys_alter, List.map_append,
      List.eraseDups_append, ih]
    by_cases h : key b ∈ bs.map key
    · rw [if_pos (by rwa [contains_iff_mem_keys, ih, List.mem_eraseDups]), List.map_singleton,
        List.removeAll, List.filter_cons_of_neg (by simpa using h)]
      simp
    · rw [if_neg (by rwa [contains_iff_mem_keys, ih, List.mem_eraseDups]), List.map_singleton,
        List.removeAll, List.filter_cons_of_pos (by simpa using h)]
      simp [List.eraseDups_cons]

theorem keys_ofList (pairs : List (String × α)) :
    (ofList pairs).keys = (pairs.map Prod.fst).eraseDups :=
  keys_foldl_alter Prod.fst (fun p _ => p.2) pairs

/-- Under each key is the last value that is given for it. -/
theorem get?_ofList (pairs : List (String × α)) (key : String) :
    get? (ofList pairs) key = ((pairs.filter (·.1 = key)).getLast?).map Prod.snd := by
  induction pairs using List.reverseRecOn with
  | nil => rfl
  | append_singleton pairs p ih =>
    rw [ofList, List.foldl_append, List.foldl_cons, List.foldl_nil, get?_insert, ← ofList, ih,
      List.filter_append]
    by_cases hkey : p.1 = key
    · rw [List.filter_cons_of_pos (by simpa using hkey), if_pos hkey.symm]
      simp
    · rw [List.filter_cons_of_neg (by simpa using hkey), if_neg (Ne.symm hkey)]
      simp

/-- Of the pairs with one key, the last counts. -/
theorem get?_ofList_append_cons {after : List (String × α)} {key : String}
    (h : key ∉ after.map Prod.fst) (before : List (String × α)) (v : α) :
    get? (ofList (before ++ (key, v) :: after)) key = some v := by
  have hafter : after.filter (·.1 = key) = [] := List.filter_eq_nil_iff.mpr fun p hp hkey =>
    h (List.mem_map.mpr ⟨p, hp, of_decide_eq_true hkey⟩)
  rw [get?_ofList, List.filter_append, List.filter_cons_of_pos (by simp), hafter,
    List.getLast?_concat]
  rfl

/-- What is under a key comes from the last item with this key. -/
theorem exists_last_of_get?_ofList {β : Type} {f : β → Option (String × α)} {bs : List β}
    {key : String} {v : α}
    (h : get? (ofList (bs.filterMap f)) key = some v) :
    ∃ before b after, bs = before ++ b :: after ∧ f b = some (key, v) ∧
      ∀ later ∈ after, ∀ w, f later ≠ some (key, w) := by
  induction bs using List.reverseRecOn with
  | nil => cases h
  | append_singleton bs b ih =>
    have hkeep (hb : ∀ w, f b ≠ some (key, w)) (h : get? (ofList (bs.filterMap f)) key = some v) :
        ∃ before b' after, bs ++ [b] = before ++ b' :: after ∧ f b' = some (key, v) ∧
          ∀ later ∈ after, ∀ w, f later ≠ some (key, w) := by
      obtain ⟨before, b', after, rfl, hb', hafter⟩ := ih h
      refine ⟨before, b', after ++ [b], by simp, hb', fun later hlater => ?_⟩
      rcases List.mem_append.mp hlater with hlater | hlater
      · exact hafter later hlater
      · exact List.mem_singleton.mp hlater ▸ hb
    rw [List.filterMap_append] at h
    cases hb : f b with
    | none =>
      rw [List.filterMap_cons_none hb, List.filterMap_nil, List.append_nil] at h
      exact hkeep (fun w => by simp [hb]) h
    | some p =>
      rw [List.filterMap_cons_some hb, List.filterMap_nil, ofList, List.foldl_append] at h
      change get? (insert (ofList (bs.filterMap f)) p.1 p.2) key = some v at h
      rw [get?_insert] at h
      split at h
      · next hkey =>
        refine ⟨bs, b, [], rfl, ?_, by simp⟩
        rw [hb, hkey, ← Option.some.inj h]
      · next hkey =>
        refine hkeep (fun w hw => hkey ?_) h
        rw [← (Prod.mk.inj (Option.some.inj (hb.symm.trans hw))).1]

theorem get?_insertNew (m : Keyed α) (key : String) (value : α) (k : String) :
    get? (m.insertNew key value) k =
      (get? m k).or (if k = key then some value else none) := by
  rw [insertNew]
  split
  · next hkey =>
    by_cases hk : k = key
    · obtain ⟨v, hv⟩ := Option.isSome_iff_exists.mp hkey
      rw [hk, hv]
      rfl
    · rw [if_neg hk, Option.or_none]
  · rw [get?_append]
    by_cases hk : k = key
    · simp [get?, hk]
    · simp [get?, hk, Ne.symm hk]

theorem contains_congr {β : Type} {m : Keyed α} {m' : Keyed β} (h : m.keys = m'.keys)
    (key : String) : m.contains key = m'.contains key := by
  rw [Bool.eq_iff_iff, contains_iff_mem_keys, contains_iff_mem_keys, h]

theorem keys_insertNew (m : Keyed α) (key : String) (value : α) :
    (m.insertNew key value).keys = if m.contains key then m.keys else m.keys ++ [key] := by
  rw [insertNew]
  split
  · rfl
  · exact keys_append m [(key, value)]

theorem keys_mapValues (f : String × α → α) (m : Keyed α) :
    keys (m.map fun p => (p.1, f p)) = m.keys := by
  rw [keys, List.map_map]
  rfl

theorem get?_mapValues (f : String × α → α) (m : Keyed α) (key : String) :
    get? (m.map fun p => (p.1, f p)) key = (get? m key).map fun v => f (key, v) := by
  induction m with
  | nil => rfl
  | cons p m ih =>
    obtain ⟨k, v⟩ := p
    by_cases h : k = key
    · simp [get?, h]
    · simp only [List.map_cons, get?, if_neg h, ih]

theorem mem_keys_insert {m : Keyed α} {key : String} {value : α} {k : String} :
    k ∈ (m.insert key value).keys ↔ k = key ∨ k ∈ m.keys := by
  rw [keys_insert]
  split
  · next h =>
    refine ⟨Or.inr, fun hk => hk.elim (fun hkey => ?_) id⟩
    exact hkey ▸ contains_iff_mem_keys.mp h
  · rw [List.mem_append, List.mem_singleton, or_comm]

theorem insert_of_notMem {m : Keyed α} {key : String} (h : key ∉ m.keys) (value : α) :
    m.insert key value = m ++ [(key, value)] := by
  induction m with
  | nil => rfl
  | cons p m ih =>
    obtain ⟨k, v⟩ := p
    obtain ⟨hk, hm⟩ := List.ne_and_not_mem_of_not_mem_cons h
    rw [insert, alter, if_neg (Ne.symm hk), ← insert, ih hm, List.cons_append]

theorem alter_alter (m : Keyed α) (key : String) (f g : Option α → α) :
    (m.alter key f).alter key g = m.alter key fun old => g (some (f old)) := by
  induction m with
  | nil => simp [alter]
  | cons p m ih =>
    obtain ⟨k, v⟩ := p
    by_cases h : k = key
    · simp [alter, h]
    · simp [alter, h, ih]

theorem keys_prefix_insert (m : Keyed α) (key : String) (value : α) :
    m.keys <+: (m.insert key value).keys := by
  rw [keys_insert]
  split
  · exact List.prefix_rfl
  · exact List.prefix_append _ _

theorem keys_prefix_insertNew (m : Keyed α) (key : String) (value : α) :
    m.keys <+: (m.insertNew key value).keys := by
  rw [insertNew]
  split
  · exact List.prefix_rfl
  · rw [keys_append]
    exact List.prefix_append _ _

theorem nodup_keys_concat {m : Keyed α} {key : String} (hm : m.keys.Nodup)
    (hkey : m.contains key = false) : (m.keys ++ [key]).Nodup := by
  have hnew : key ∉ m.keys := by
    rw [← contains_iff_mem_keys, hkey]
    exact Bool.false_ne_true
  rw [List.nodup_append]
  refine ⟨hm, by simp, ?_⟩
  intro a ha b hb hab
  rw [List.mem_singleton] at hb
  exact hnew (hb ▸ hab ▸ ha)

theorem nodup_keys_alter {m : Keyed α} (hm : m.keys.Nodup) (key : String)
    (f : Option α → α) : (m.alter key f).keys.Nodup := by
  rw [keys_alter]
  split
  · exact hm
  · next hnew => exact nodup_keys_concat hm (Bool.eq_false_iff.mpr hnew)

theorem nodup_keys_ofList (pairs : List (String × α)) : (ofList pairs).keys.Nodup := by
  induction pairs using List.reverseRecOn with
  | nil => exact List.nodup_nil
  | append_singleton pairs p ih =>
    rw [ofList, List.foldl_append]
    exact nodup_keys_alter ih p.1 _

theorem mem_of_mem_ofList {pairs : List (String × α)} {p : String × α} (h : p ∈ ofList pairs) :
    p ∈ pairs := by
  induction pairs using List.reverseRecOn with
  | nil => cases h
  | append_singleton pairs q ih =>
    rw [ofList, List.foldl_append] at h
    rcases mem_insert h with h | rfl
    · exact List.mem_append_left _ (ih h)
    · exact List.mem_append_right _ (List.mem_singleton_self q)

theorem ext_of_keys {m m' : Keyed α} (hkeys : m.keys = m'.keys) (hnodup : m.keys.Nodup)
    (hget : ∀ key, get? m key = get? m' key) : m = m' := by
  induction m generalizing m' with
  | nil =>
    rw [keys, List.map_nil, keys, eq_comm, List.map_eq_nil_iff] at hkeys
    rw [hkeys]
  | cons p m ih =>
    obtain ⟨k, v⟩ := p
    cases m' with
    | nil => simp [keys] at hkeys
    | cons p' m' =>
      obtain ⟨k', v'⟩ := p'
      obtain ⟨rfl, hrest⟩ := List.cons.inj hkeys
      obtain ⟨hk, hm⟩ := List.nodup_cons.mp hnodup
      have hv : some v = some v' := by simpa [get?] using hget k
      rw [Option.some.inj hv, ih hrest hm]
      intro key
      by_cases hkey : key = k
      · -- the first key comes nowhere else, in neither list
        have hk' : k ∉ keys m' := fun hmem => hk (by rw [hrest]; exact hmem)
        rw [hkey, get?_eq_none_iff.mpr hk, get?_eq_none_iff.mpr hk']
      · simpa [get?, Ne.symm hkey] using hget key

/-! ### Look-ups under distinct keys -/

theorem get?_of_mem {m : Keyed α} (hnodup : m.keys.Nodup) {key : String} {v : α}
    (h : (key, v) ∈ m) : get? m key = some v := by
  induction m with
  | nil => cases h
  | cons p m ih =>
    obtain ⟨k, w⟩ := p
    obtain ⟨hk, hm⟩ := List.nodup_cons.mp hnodup
    rcases List.mem_cons.mp h with heq | h
    · obtain ⟨rfl, rfl⟩ := Prod.mk.inj heq
      exact if_pos rfl
    · have hne : k ≠ key := fun heq => hk (List.mem_map.mpr ⟨_, h, heq.symm⟩)
      rw [get?, if_neg hne, ih hm h]

theorem get?_eq_some_iff_mem {m : Keyed α} (hnodup : m.keys.Nodup) {key : String} {v : α} :
    get? m key = some v ↔ (key, v) ∈ m :=
  ⟨mem_of_get?, get?_of_mem hnodup⟩

theorem get?_eq_of_perm {m m' : Keyed α} (hnodup : m.keys.Nodup) (h : m.Perm m') (key : String) :
    get? m key = get? m' key := by
  have hnodup' : m'.keys.Nodup := (h.map Prod.fst).nodup_iff.mp hnodup
  refine Option.ext fun v => ?_
  rw [get?_eq_some_iff_mem hnodup, get?_eq_some_iff_mem hnodup', h.mem_iff]

theorem perm_of_get?_eq {m m' : Keyed α} (hnodup : m.keys.Nodup) (hnodup' : m'.keys.Nodup)
    (h : ∀ key, get? m key = get? m' key) : m.Perm m' := by
  refine (List.perm_ext_iff_of_nodup (.of_map Prod.fst hnodup) (.of_map Prod.fst hnodup')).mpr ?_
  rintro ⟨key, v⟩
  rw [← get?_eq_some_iff_mem hnodup, ← get?_eq_some_iff_mem hnodup', h]

end DocComment.Keyed
