import Mathlib.Data.Finset.Card
import Mathlib.Data.List.Nodup
import Mathlib.Data.List.Basic

/-!
# Insertion-ordered dictionaries

A finite map that remembers the order in which its keys were first inserted: assigning to a
present key replaces the value where it stands, assigning to a new key appends. The list of keys
carries its own duplicate-freeness, so that "the" entry of a key makes sense everywhere else.
-/

namespace Common

/-- A finite map with unique keys, in insertion order. -/
structure Dict (K V : Type*) where
  /-- The key–value pairs, oldest key first. -/
  entries : List (K × V)
  nodup : (entries.map Prod.fst).Nodup

namespace Dict

variable {K V : Type*}

/-- The empty dictionary. -/
def empty : Dict K V := ⟨[], List.nodup_nil⟩

/-- The keys in insertion order. -/
def keys (d : Dict K V) : List K := d.entries.map Prod.fst

/-- The values in insertion order of their keys. -/
def values (d : Dict K V) : List V := d.entries.map Prod.snd

/-- The number of keys. -/
def size (d : Dict K V) : ℕ := d.entries.length

/-- Keep the entries whose key passes `p`. -/
def filterKeys (d : Dict K V) (p : K → Bool) : Dict K V :=
  ⟨d.entries.filter (fun kv => p kv.1), d.nodup.sublist (List.filter_sublist.map _)⟩

/-- No key occurs twice. -/
theorem keys_nodup (d : Dict K V) : d.keys.Nodup := d.nodup

@[simp] theorem length_keys (d : Dict K V) : d.keys.length = d.size := List.length_map _

variable [DecidableEq K]

/-- The value stored at `k`, if any. -/
def get? (d : Dict K V) (k : K) : Option V :=
  (d.entries.find? (fun kv => kv.1 = k)).map Prod.snd

/-- Replace the value of `k` in a list of pairs, leaving the other pairs in place. -/
def replaceIn (k : K) (v : V) (l : List (K × V)) : List (K × V) :=
  l.map (fun kv => if kv.1 = k then (k, v) else kv)

omit [DecidableEq K] in
/-- Whether a key occurs twice is a matter of the keys alone. -/
theorem map_fst_congr {l l' : List (K × V)} (h : l.map Prod.fst = l'.map Prod.fst)
    (hn : (l'.map Prod.fst).Nodup) : (l.map Prod.fst).Nodup := h ▸ hn

/-- Replacing a value leaves the keys as they are, in their order. -/
theorem map_fst_replaceIn (k : K) (v : V) (l : List (K × V)) :
    (replaceIn k v l).map Prod.fst = l.map Prod.fst := by
  rw [replaceIn, List.map_map]
  refine List.map_congr_left fun kv _ => ?_
  by_cases h : kv.1 = k <;> simp [h]

/-- Assign `v` to `k`: in place when `k` is present, at the end otherwise. -/
def set (d : Dict K V) (k : K) (v : V) : Dict K V :=
  if h : k ∈ d.keys then
    ⟨replaceIn k v d.entries, map_fst_congr (map_fst_replaceIn k v _) d.nodup⟩
  else
    ⟨d.entries ++ [(k, v)], by
      rw [List.map_append, List.nodup_append]
      refine ⟨d.nodup, by simp, ?_⟩
      intro a ha b hb
      obtain rfl : b = k := by simpa using hb
      exact fun hab => h (hab ▸ ha)⟩

@[simp] theorem get?_empty (k : K) : (empty : Dict K V).get? k = none := rfl

/-- A key is present exactly when it is listed. -/
theorem mem_keys_iff {d : Dict K V} {k : K} : k ∈ d.keys ↔ (d.get? k).isSome := by
  simp [keys, get?, List.find?_isSome]

/-- A lookup fails exactly when the key is not there. -/
theorem get?_eq_none_iff {d : Dict K V} {k : K} : d.get? k = none ↔ k ∉ d.keys := by
  rw [mem_keys_iff]
  cases d.get? k <;> simp

/-- Reading `k` finds exactly the pair stored under `k`. -/
theorem get?_eq_some_iff {d : Dict K V} {k : K} {v : V} :
    d.get? k = some v ↔ (k, v) ∈ d.entries := by
  obtain ⟨l, hl⟩ := d
  simp only [get?]
  induction l with
  | nil => simp
  | cons kv l ih =>
      obtain ⟨k', v'⟩ := kv
      rw [List.map_cons, List.nodup_cons] at hl
      by_cases hk : k' = k
      · subst hk
        have hne : (k', v) ∉ l := fun hm => hl.1 (List.mem_map.mpr ⟨_, hm, rfl⟩)
        simp [hne, eq_comm]
      · simpa [hk, Ne.symm hk] using ih hl.2

/-- A lookup that succeeds has found one of the keys. -/
theorem mem_keys_of_get? {d : Dict K V} {k : K} {v : V} (h : d.get? k = some v) : k ∈ d.keys := by
  rw [mem_keys_iff, h]; rfl

/-- The replaced value is found under its key. -/
theorem find?_replaceIn_self {k : K} (v : V) {l : List (K × V)} (h : k ∈ l.map Prod.fst) :
    ((replaceIn k v l).find? (fun kv => kv.1 = k)).map Prod.snd = some v := by
  induction l with
  | nil => simp at h
  | cons kv l ih =>
      by_cases hk : kv.1 = k
      · simp [replaceIn, hk]
      · have h' : k ∈ l.map Prod.fst := by
          rcases List.mem_cons.mp (by simpa using h : k ∈ kv.1 :: l.map Prod.fst) with h | h
          · exact absurd h.symm hk
          · exact h
        simpa [replaceIn, hk] using ih h'

/-- What stands under another key is found as before. -/
theorem find?_replaceIn_ne {k k' : K} (v : V) (l : List (K × V)) (hne : k' ≠ k) :
    (replaceIn k v l).find? (fun kv => kv.1 = k') = l.find? (fun kv => kv.1 = k') := by
  induction l with
  | nil => rfl
  | cons kv l ih =>
      simp only [replaceIn, List.map_cons] at ih ⊢
      by_cases hk : kv.1 = k
      · simp [hk, Ne.symm hne, ih]
      · simp only [if_neg hk, List.find?_cons, ih]

/-- Reading back the key just assigned. -/
@[simp] theorem get?_set_self (d : Dict K V) (k : K) (v : V) : (d.set k v).get? k = some v := by
  unfold set
  split
  · rename_i h
    exact find?_replaceIn_self v h
  · rename_i h
    have hnone : d.entries.find? (fun kv => kv.1 = k) = none := by
      rw [List.find?_eq_none]
      intro kv hkv
      have : kv.1 ≠ k := fun hk => h (hk ▸ List.mem_map_of_mem hkv)
      simpa using this
    simp [get?, hnone]

/-- Reading any other key is unaffected by an assignment. -/
theorem get?_set_ne (d : Dict K V) {k k' : K} (v : V) (hne : k' ≠ k) :
    (d.set k v).get? k' = d.get? k' := by
  unfold set
  split
  · simp only [get?, find?_replaceIn_ne v _ hne]
  · simp [get?, List.find?_append, Ne.symm hne]

/-- Setting a key changes the lookup of this key only. -/
theorem get?_set (d : Dict K V) (k k' : K) (v : V) :
    (d.set k v).get? k' = if k' = k then some v else d.get? k' := by
  by_cases h : k' = k
  · rw [if_pos h, h, get?_set_self]
  · rw [if_neg h, get?_set_ne d v h]

/-- Setting a key adds it, if it was not there, and no other. -/
theorem mem_keys_set {d : Dict K V} {k k' : K} {v : V} :
    k' ∈ (d.set k v).keys ↔ k' = k ∨ k' ∈ d.keys := by
  rw [mem_keys_iff, mem_keys_iff, get?_set]
  by_cases h : k' = k <;> simp [h]

omit [DecidableEq K] in
/-- Two dictionaries with the same entries are the same. -/
theorem ext_entries {d d' : Dict K V} (h : d.entries = d'.entries) : d = d' := by
  cases d; cases d'; congr

/-- A key that is there keeps its place. -/
theorem entries_set_of_mem {d : Dict K V} {k : K} (v : V) (h : k ∈ d.keys) :
    (d.set k v).entries = replaceIn k v d.entries := by
  rw [set, dif_pos h]

/-- A new key comes last. -/
theorem entries_set_of_not_mem {d : Dict K V} {k : K} (v : V) (h : k ∉ d.keys) :
    (d.set k v).entries = d.entries ++ [(k, v)] := by
  rw [set, dif_neg h]

/-- A new key makes the dictionary larger by one. -/
theorem size_set_of_not_mem {d : Dict K V} {k : K} (v : V) (h : k ∉ d.keys) :
    (d.set k v).size = d.size + 1 := by
  rw [size, entries_set_of_not_mem v h, List.length_append]
  rfl

/-- Replacing is idle where the key has no other value. -/
theorem replaceIn_eq_self {k : K} {v : V} {l : List (K × V)}
    (h : ∀ kv ∈ l, kv.1 = k → kv = (k, v)) : replaceIn k v l = l := by
  have hid : ∀ kv ∈ l, (if kv.1 = k then (k, v) else kv) = kv := by
    intro kv hkv
    by_cases hk : kv.1 = k
    · rw [if_pos hk, h kv hkv hk]
    · rw [if_neg hk]
  rw [replaceIn, List.map_congr_left hid, List.map_id']

/-- Assigning the value a key already has changes nothing. -/
theorem set_eq_self {d : Dict K V} {k : K} {v : V} (h : d.get? k = some v) : d.set k v = d := by
  apply ext_entries
  rw [entries_set_of_mem v (mem_keys_of_get? h)]
  refine replaceIn_eq_self fun kv hkv hk => ?_
  obtain ⟨k', v'⟩ := kv
  obtain rfl : k' = k := hk
  obtain rfl : v' = v := by simpa [get?_eq_some_iff.mpr hkv] using h
  rfl

/-- Of two assignments to one key the later counts. -/
@[simp] theorem set_set (d : Dict K V) (k : K) (v w : V) : (d.set k v).set k w = d.set k w := by
  have hk : k ∈ (d.set k v).keys := mem_keys_set.mpr (Or.inl rfl)
  apply ext_entries
  rw [entries_set_of_mem w hk]
  by_cases h : k ∈ d.keys
  · rw [entries_set_of_mem v h, entries_set_of_mem w h, replaceIn, replaceIn, List.map_map]
    refine List.map_congr_left fun kv _ => ?_
    by_cases hkv : kv.1 = k <;> simp [hkv]
  · have hfix : replaceIn k w d.entries = d.entries :=
      replaceIn_eq_self fun kv hkv hkk => absurd (List.mem_map_of_mem hkv) (hkk ▸ h)
    rw [entries_set_of_not_mem v h, entries_set_of_not_mem w h, replaceIn, List.map_append,
      ← replaceIn, hfix]
    simp

/-- Filtering on keys keeps a value exactly when its key passes. -/
theorem get?_filterKeys (d : Dict K V) (p : K → Bool) (k : K) :
    (d.filterKeys p).get? k = if p k then d.get? k else none := by
  split
  · rename_i hp
    ext v
    simp [get?_eq_some_iff, filterKeys, hp]
  · rename_i hp
    rw [get?_eq_none_iff]
    simp only [keys, filterKeys, List.mem_map, List.mem_filter]
    rintro ⟨kv, ⟨-, hkv⟩, rfl⟩
    exact hp hkv

/-- The keys whose value passes a test. -/
def keysWith (d : Dict K V) (p : V → Bool) : Finset K :=
  d.keys.toFinset.filter fun k => (d.get? k).any p

/-- The keys with a property are those under which a value with the property stands. -/
theorem mem_keysWith {d : Dict K V} {p : V → Bool} {k : K} :
    k ∈ d.keysWith p ↔ (d.get? k).any p = true := by
  rw [keysWith, Finset.mem_filter, List.mem_toFinset, mem_keys_iff]
  cases d.get? k <;> simp

/-- Values that pass a test are counted by their keys. -/
theorem card_keysWith (d : Dict K V) (p : V → Bool) : (d.keysWith p).card = d.values.countP p := by
  have hnodup : ((d.entries.filter fun kv => p kv.2).map Prod.fst).Nodup :=
    d.nodup.sublist (List.filter_sublist.map _)
  have hkeys : d.keysWith p = ((d.entries.filter fun kv => p kv.2).map Prod.fst).toFinset := by
    ext k
    rw [mem_keysWith, Option.any_eq_true, List.mem_toFinset, List.mem_map]
    constructor
    · rintro ⟨v, hv, hp⟩
      exact ⟨(k, v), List.mem_filter.mpr ⟨get?_eq_some_iff.mp hv, hp⟩, rfl⟩
    · rintro ⟨kv, hkv, rfl⟩
      obtain ⟨hmem, hp⟩ := List.mem_filter.mp hkv
      exact ⟨kv.2, get?_eq_some_iff.mpr hmem, hp⟩
  rw [hkeys, List.toFinset_card_of_nodup hnodup, List.length_map, values, List.countP_map,
    List.countP_eq_length_filter]
  rfl

end Dict

end Common
