import Mathlib.Data.List.Nodup

/-!
# Insertion-ordered maps

A JavaScript `Map` (and a table with a primary key, read in row order) is a
list of entries with distinct keys: `set` on a known key overwrites in place,
on a new key appends, and iteration visits the entries oldest first. The
distinctness of the keys is a field, so no later proof re-establishes it.

Everything below is stated through `get?`: `get?_set`, `get?_delete` and
`get?_adjust` say what each operation does to every key, and
`mem_entries_iff` says that iteration sees exactly what `get?` returns.
-/

namespace Js

variable {κ ν : Type} [DecidableEq κ]

/-- An insertion-ordered map: entries oldest first, one per key. -/
structure OrderedMap (κ ν : Type) [DecidableEq κ] where
  entries : List (κ × ν)
  nodup : (entries.map Prod.fst).Nodup

/-- The value filed under `k`, if any. -/
def getEntry (k : κ) : List (κ × ν) → Option ν
  | [] => none
  | e :: es => if e.1 = k then some e.2 else getEntry k es

/-- Overwrite in place, or append. -/
def setEntry (k : κ) (v : ν) : List (κ × ν) → List (κ × ν)
  | [] => [(k, v)]
  | e :: es => if e.1 = k then (k, v) :: es else e :: setEntry k v es

theorem getEntry_eq_none_iff {k : κ} {es : List (κ × ν)} :
    getEntry k es = none ↔ k ∉ es.map Prod.fst := by
  induction es with
  | nil => simp [getEntry]
  | cons e es ih =>
    by_cases he : e.1 = k
    · simp [getEntry, he]
    · simp only [getEntry, if_neg he, List.map_cons, List.mem_cons, not_or, ih]
      exact ⟨fun h => ⟨fun hk => he hk.symm, h⟩, fun h => h.2⟩

theorem mem_of_getEntry {k : κ} {v : ν} {es : List (κ × ν)}
    (h : getEntry k es = some v) : (k, v) ∈ es := by
  induction es with
  | nil => simp [getEntry] at h
  | cons e es ih =>
    by_cases he : e.1 = k
    · simp only [getEntry, if_pos he, Option.some.injEq] at h
      obtain ⟨rfl, rfl⟩ := And.intro he h
      exact List.mem_cons_self ..
    · simp only [getEntry, if_neg he] at h
      exact List.mem_cons_of_mem _ (ih h)

theorem getEntry_of_mem {k : κ} {v : ν} {es : List (κ × ν)}
    (hnd : (es.map Prod.fst).Nodup) (h : (k, v) ∈ es) : getEntry k es = some v := by
  induction es with
  | nil => simp at h
  | cons e es ih =>
    rw [List.map_cons, List.nodup_cons] at hnd
    rcases List.mem_cons.mp h with rfl | hin
    · simp [getEntry]
    · have hne : e.1 ≠ k := fun he => hnd.1 (he ▸ List.mem_map_of_mem (f := Prod.fst) hin)
      simp only [getEntry, if_neg hne]
      exact ih hnd.2 hin

theorem getEntry_setEntry (k k' : κ) (v : ν) (es : List (κ × ν)) :
    getEntry k' (setEntry k v es) = if k' = k then some v else getEntry k' es := by
  induction es with
  | nil =>
    by_cases hk : k' = k
    · simp [setEntry, getEntry, hk]
    · simp [setEntry, getEntry, hk, Ne.symm hk]
  | cons e es ih =>
    by_cases he : e.1 = k
    · by_cases hk : k' = k
      · simp [setEntry, getEntry, he, hk]
      · simp [setEntry, getEntry, he, hk, Ne.symm hk]
    · by_cases hk : k' = k
      · simp only [hk, if_true] at ih ⊢
        simp [setEntry, getEntry, he, ih]
      · simp only [hk, if_false] at ih ⊢
        simp [setEntry, getEntry, he, ih]

theorem setEntry_keys (k : κ) (v : ν) (es : List (κ × ν)) :
    (setEntry k v es).map Prod.fst
      = if k ∈ es.map Prod.fst then es.map Prod.fst else es.map Prod.fst ++ [k] := by
  induction es with
  | nil => simp [setEntry]
  | cons e es ih =>
    by_cases he : e.1 = k
    · simp [setEntry, he]
    · simp only [setEntry, if_neg he, List.map_cons, ih, List.mem_cons, Ne.symm he, false_or]
      split <;> simp

theorem setEntry_nodup (k : κ) (v : ν) {es : List (κ × ν)} (h : (es.map Prod.fst).Nodup) :
    ((setEntry k v es).map Prod.fst).Nodup := by
  rw [setEntry_keys]
  split
  next => exact h
  next hk =>
    rw [List.nodup_append]
    refine ⟨h, List.nodup_singleton k, ?_⟩
    intro a ha b hb
    rw [List.mem_singleton] at hb
    exact fun hab => hk (hb ▸ hab ▸ ha)

/-- A search that finds nothing, or the entry of `k`, finds what is set there. -/
theorem find?_setEntry {p : κ × ν → Bool} {k : κ} {v : ν} (hp : p (k, v) = true)
    {es : List (κ × ν)} (h : ∀ e, es.find? p = some e → e.1 = k) :
    (setEntry k v es).find? p = some (k, v) := by
  induction es with
  | nil => rw [setEntry, List.find?_cons_of_pos hp]
  | cons e es ih =>
    rw [setEntry]
    split
    next => rw [List.find?_cons_of_pos hp]
    next hk =>
      have he : ¬p e = true := fun he => hk (h e (List.find?_cons_of_pos he))
      rw [List.find?_cons_of_neg he] at h ⊢
      exact ih h

/-- A new key is appended. -/
theorem setEntry_of_not_mem {k : κ} {v : ν} {es : List (κ × ν)} (h : k ∉ es.map Prod.fst) :
    setEntry k v es = es ++ [(k, v)] := by
  induction es with
  | nil => rfl
  | cons e es ih =>
    rw [List.map_cons, List.mem_cons, not_or] at h
    rw [setEntry, if_neg (Ne.symm h.1), ih h.2, List.cons_append]

/-- An entry that is there already. -/
theorem setEntry_self {k : κ} {v : ν} {es : List (κ × ν)} (h : getEntry k es = some v) :
    setEntry k v es = es := by
  induction es with
  | nil => cases h
  | cons e es ih =>
    rw [getEntry] at h
    rw [setEntry]
    split
    next he =>
      rw [if_pos he] at h
      obtain rfl := Option.some.inj h
      rw [← he]
    next he =>
      rw [if_neg he] at h
      rw [ih h]

/-- What setting an entry does to the number of values that meet `p`. -/
theorem countP_setEntry (p : ν → Bool) (k : κ) (v : ν) (es : List (κ × ν)) :
    ((setEntry k v es).map Prod.snd).countP p + (getEntry k es).toList.countP p
      = (es.map Prod.snd).countP p + [v].countP p := by
  induction es with
  | nil => simp [setEntry, getEntry]
  | cons e es ih =>
    by_cases he : e.1 = k
    · simp only [setEntry, getEntry, if_pos he, List.map_cons, Option.toList_some,
        List.countP_cons, List.countP_nil]
      omega
    · simp only [setEntry, getEntry, if_neg he, List.map_cons, List.countP_cons] at ih ⊢
      omega

/-- What deleting an entry does to the number of values that meet `p`. -/
theorem countP_filter_ne (p : ν → Bool) (k : κ) {es : List (κ × ν)}
    (hnd : (es.map Prod.fst).Nodup) :
    ((es.filter fun e => e.1 ≠ k).map Prod.snd).countP p + (getEntry k es).toList.countP p
      = (es.map Prod.snd).countP p := by
  induction es with
  | nil => rfl
  | cons e es ih =>
    rw [List.map_cons, List.nodup_cons] at hnd
    have htail := ih hnd.2
    by_cases he : e.1 = k
    · -- the other entries have other keys, so nothing else goes
      have hnone : getEntry k es = none := getEntry_eq_none_iff.mpr (he ▸ hnd.1)
      rw [hnone, Option.toList_none, List.countP_nil] at htail
      rw [List.filter_cons_of_neg (by simp [he]), getEntry, if_pos he, List.map_cons,
        List.countP_cons, Option.toList_some, List.countP_cons, List.countP_nil]
      omega
    · rw [List.filter_cons_of_pos (by simp [he]), getEntry, if_neg he, List.map_cons,
        List.map_cons, List.countP_cons, List.countP_cons]
      omega

namespace OrderedMap

/-- `new Map()`. -/
def empty : OrderedMap κ ν := ⟨[], List.nodup_nil⟩

/-- `map.get(k)`. -/
def get? (m : OrderedMap κ ν) (k : κ) : Option ν := getEntry k m.entries

/-- `map.has(k)`. -/
def has (m : OrderedMap κ ν) (k : κ) : Bool := (m.get? k).isSome

/-- `map.set(k, v)`. -/
def set (m : OrderedMap κ ν) (k : κ) (v : ν) : OrderedMap κ ν :=
  ⟨setEntry k v m.entries, setEntry_nodup k v m.nodup⟩

/-- `map.delete(k)`. -/
def delete (m : OrderedMap κ ν) (k : κ) : OrderedMap κ ν :=
  ⟨m.entries.filter fun e => e.1 ≠ k, m.nodup.sublist (List.filter_sublist.map Prod.fst)⟩

/-- Rewrite every value in place; the entries keep their order. -/
def adjust (m : OrderedMap κ ν) (f : κ → ν → ν) : OrderedMap κ ν :=
  ⟨m.entries.map fun e => (e.1, f e.1 e.2), by
    rw [List.map_map]
    exact m.nodup⟩

/-- Rewrite the value filed under `k`, if there is one. -/
def modify (m : OrderedMap κ ν) (k : κ) (f : ν → ν) : OrderedMap κ ν :=
  match m.get? k with
  | none => m
  | some v => m.set k (f v)

/-- Delete, while iterating, every entry that fails `p`. -/
def filter (m : OrderedMap κ ν) (p : κ → ν → Bool) : OrderedMap κ ν :=
  ⟨m.entries.filter fun e => p e.1 e.2, m.nodup.sublist (List.filter_sublist.map Prod.fst)⟩

/-- The values, oldest entry first. -/
def values (m : OrderedMap κ ν) : List ν := m.entries.map Prod.snd

/-- `map.size`. -/
def size (m : OrderedMap κ ν) : Nat := m.entries.length

@[simp] theorem get?_empty (k : κ) : (empty : OrderedMap κ ν).get? k = none := rfl

/-- What `set` does to every key. -/
theorem get?_set (m : OrderedMap κ ν) (k k' : κ) (v : ν) :
    (m.set k v).get? k' = if k' = k then some v else m.get? k' :=
  getEntry_setEntry k k' v m.entries

@[simp] theorem get?_set_self (m : OrderedMap κ ν) (k : κ) (v : ν) :
    (m.set k v).get? k = some v := by
  rw [get?_set, if_pos rfl]

theorem get?_set_ne (m : OrderedMap κ ν) {k k' : κ} (v : ν) (h : k' ≠ k) :
    (m.set k v).get? k' = m.get? k' := by
  rw [get?_set, if_neg h]

/-- Setting what is there changes nothing. -/
theorem set_self {m : OrderedMap κ ν} {k : κ} {v : ν} (h : m.get? k = some v) : m.set k v = m := by
  cases m with
  | mk entries nodup =>
    rw [set, mk.injEq]
    exact setEntry_self h

/-- An entry after `set` is the one that was set, or an old one of another key. -/
theorem get?_set_some {m : OrderedMap κ ν} {k k' : κ} {v v' : ν}
    (h : (m.set k v).get? k' = some v') :
    (k' = k ∧ v' = v) ∨ (k' ≠ k ∧ m.get? k' = some v') := by
  rw [get?_set] at h
  split at h
  next hk => exact Or.inl ⟨hk, (Option.some.inj h).symm⟩
  next hk => exact Or.inr ⟨hk, h⟩

/-- Iteration sees exactly what `get?` returns. -/
theorem mem_entries_iff (m : OrderedMap κ ν) (k : κ) (v : ν) :
    (k, v) ∈ m.entries ↔ m.get? k = some v :=
  ⟨getEntry_of_mem m.nodup, mem_of_getEntry⟩

/-- A new key is appended. -/
theorem entries_set_of_none (m : OrderedMap κ ν) {k : κ} (v : ν) (h : m.get? k = none) :
    (m.set k v).entries = m.entries ++ [(k, v)] :=
  setEntry_of_not_mem (getEntry_eq_none_iff.mp h)

/-- What `delete` does to every key. -/
theorem get?_delete (m : OrderedMap κ ν) (k k' : κ) :
    (m.delete k).get? k' = if k' = k then none else m.get? k' := by
  apply Option.ext
  intro v
  rw [← mem_entries_iff]
  by_cases hk : k' = k
  · simp [delete, hk]
  · simp [delete, hk, mem_entries_iff]

@[simp] theorem get?_delete_self (m : OrderedMap κ ν) (k : κ) : (m.delete k).get? k = none := by
  rw [get?_delete, if_pos rfl]

theorem get?_delete_ne (m : OrderedMap κ ν) {k k' : κ} (h : k' ≠ k) :
    (m.delete k).get? k' = m.get? k' := by
  rw [get?_delete, if_neg h]

/-- An entry after `delete` is an old one of another key. -/
theorem get?_delete_some {m : OrderedMap κ ν} {k k' : κ} {v : ν}
    (h : (m.delete k).get? k' = some v) : k' ≠ k ∧ m.get? k' = some v := by
  rw [get?_delete] at h
  split at h
  next => exact absurd h (by simp)
  next hk => exact ⟨hk, h⟩

/-- What `adjust` does to every key. -/
theorem get?_adjust (m : OrderedMap κ ν) (f : κ → ν → ν) (k : κ) :
    (m.adjust f).get? k = (m.get? k).map (f k) := by
  cases hv : m.get? k with
  | none =>
    rw [get?, getEntry_eq_none_iff] at hv
    rw [Option.map_none, get?, getEntry_eq_none_iff]
    simpa [adjust, List.map_map, Function.comp_def] using hv
  | some v =>
    rw [Option.map_some, ← mem_entries_iff]
    exact List.mem_map.mpr ⟨(k, v), (m.mem_entries_iff k v).mpr hv, rfl⟩

/-- Every value is rewritten, the one that is set as well. -/
theorem adjust_set (m : OrderedMap κ ν) (f : κ → ν → ν) (k : κ) (v : ν) :
    (m.set k v).adjust f = (m.adjust f).set k (f k v) := by
  rw [adjust, set, set, mk.injEq]
  show (setEntry k v m.entries).map _ = setEntry k (f k v) (m.entries.map _)
  induction m.entries with
  | nil => rfl
  | cons e es ih =>
    rw [setEntry, List.map_cons, setEntry]
    by_cases he : e.1 = k
    · rw [if_pos he, if_pos he, List.map_cons]
    · rw [if_neg he, if_neg he, List.map_cons, ih]

/-- What `modify` does to every key. -/
theorem get?_modify (m : OrderedMap κ ν) (k k' : κ) (f : ν → ν) :
    (m.modify k f).get? k' = if k' = k then (m.get? k).map f else m.get? k' := by
  unfold modify
  cases hv : m.get? k with
  | none =>
    by_cases hk : k' = k
    · rw [if_pos hk, hk]
      exact hv
    · rw [if_neg hk]
  | some v => exact get?_set ..

theorem get?_modify_ne (m : OrderedMap κ ν) {k k' : κ} (f : ν → ν) (h : k' ≠ k) :
    (m.modify k f).get? k' = m.get? k' := by
  rw [get?_modify, if_neg h]

/-- Rewriting the values under several distinct keys, one after the other. -/
theorem get?_foldl_modify (f : ν → ν) (k : κ) : ∀ (ks : List κ) (m : OrderedMap κ ν), ks.Nodup →
    (ks.foldl (fun m k => m.modify k f) m).get? k
      = if k ∈ ks then (m.get? k).map f else m.get? k := by
  intro ks
  induction ks with
  | nil =>
    intro m _
    rw [List.foldl_nil, if_neg List.not_mem_nil]
  | cons k₀ ks ih =>
    intro m hnd
    rw [List.nodup_cons] at hnd
    rw [List.foldl_cons, ih _ hnd.2]
    by_cases hk : k = k₀
    · rw [hk, if_neg hnd.1, if_pos (List.mem_cons_self ..), get?_modify, if_pos rfl]
    · rw [get?_modify_ne _ _ hk]
      simp only [List.mem_cons, hk, false_or]

/-- What `filter` does to every key. -/
theorem get?_filter (m : OrderedMap κ ν) (p : κ → ν → Bool) (k : κ) :
    (m.filter p).get? k = (m.get? k).filter (p k) := by
  apply Option.ext
  intro v
  rw [← mem_entries_iff, Option.filter_eq_some_iff, ← mem_entries_iff]
  exact List.mem_filter

theorem has_iff (m : OrderedMap κ ν) (k : κ) : m.has k = true ↔ ∃ v, m.get? k = some v := by
  rw [has, Option.isSome_iff_exists]

theorem mem_values_iff (m : OrderedMap κ ν) (v : ν) :
    v ∈ m.values ↔ ∃ k, m.get? k = some v := by
  constructor
  · intro h
    obtain ⟨e, he, rfl⟩ := List.mem_map.mp h
    exact ⟨e.1, (m.mem_entries_iff e.1 e.2).mp he⟩
  · intro hgiven
    obtain ⟨k, h⟩ := hgiven
    exact List.mem_map.mpr ⟨(k, v), (m.mem_entries_iff k v).mpr h, rfl⟩

/-- When every value is filed under its own key, iteration meets each key once. -/
theorem values_key_nodup (m : OrderedMap κ ν) (key : ν → κ)
    (hkey : ∀ k v, m.get? k = some v → key v = k) : (m.values.map key).Nodup := by
  have hkeys : m.values.map key = m.entries.map Prod.fst := by
    rw [values, List.map_map]
    apply List.map_congr_left
    intro e he
    exact hkey e.1 e.2 ((m.mem_entries_iff e.1 e.2).mp he)
  rw [hkeys]
  exact m.nodup

/-- What `set` does to the number of values that meet `p`. -/
theorem countP_values_set (m : OrderedMap κ ν) (k : κ) (v : ν) (p : ν → Bool) :
    (m.set k v).values.countP p + (m.get? k).toList.countP p
      = m.values.countP p + [v].countP p :=
  countP_setEntry p k v m.entries

/-- What `delete` does to the number of values that meet `p`. -/
theorem countP_values_delete (m : OrderedMap κ ν) (k : κ) (p : ν → Bool) :
    (m.delete k).values.countP p + (m.get? k).toList.countP p = m.values.countP p :=
  countP_filter_ne p k m.nodup

theorem size_eq_countP (m : OrderedMap κ ν) : m.size = m.values.countP fun _ => true := by
  rw [List.countP_true, values, List.length_map, size]

/-- What `set` does to the size. -/
theorem size_set (m : OrderedMap κ ν) (k : κ) (v : ν) :
    (m.set k v).size = if m.has k then m.size else m.size + 1 := by
  have h := m.countP_values_set k v fun _ => true
  rw [← size_eq_countP, ← size_eq_countP] at h
  rw [has]
  cases hg : m.get? k with
  | none =>
    rw [hg] at h
    simpa using h
  | some u =>
    rw [hg] at h
    simpa using h

/-- What `delete` does to the size. -/
theorem size_delete (m : OrderedMap κ ν) (k : κ) :
    (m.delete k).size = if m.has k then m.size - 1 else m.size := by
  have h := m.countP_values_delete k fun _ => true
  rw [← size_eq_countP, ← size_eq_countP] at h
  rw [has]
  cases hg : m.get? k with
  | none =>
    rw [hg] at h
    simpa using h
  | some u =>
    rw [hg] at h
    simp only [Option.toList_some, List.countP_singleton, if_true] at h
    simp only [Option.isSome_some, if_true]
    omega

/-- A filter that deletes nothing keeps every entry. -/
theorem size_filter_le (m : OrderedMap κ ν) (p : κ → ν → Bool) : (m.filter p).size ≤ m.size :=
  List.length_filter_le ..

theorem size_filter_eq_iff (m : OrderedMap κ ν) (p : κ → ν → Bool) :
    (m.filter p).size = m.size ↔ ∀ k v, m.get? k = some v → p k v = true := by
  rw [size, size, filter, List.length_filter_eq_length_iff]
  constructor
  · intro h k v hg
    exact h (k, v) ((m.mem_entries_iff k v).mpr hg)
  · intro h e he
    exact h e.1 e.2 ((m.mem_entries_iff e.1 e.2).mp he)

end OrderedMap

/-- A loop over values with distinct keys, each step of which rewrites only the
entry of its own value (`f` says to what): the entries of the values end up
rewritten, all others untouched. `get` is any view of the loop's state as a
map. -/
theorem get_foldl_local {σ : Type} (get : σ → κ → Option ν) (key : ν → κ) (step : σ → ν → σ)
    (f : ν → Option ν)
    (hstep : ∀ s v k, get s (key v) = some v →
      get (step s v) k = if k = key v then f v else get s k) :
    ∀ (vs : List ν) (s : σ), (vs.map key).Nodup → (∀ v ∈ vs, get s (key v) = some v) →
      (∀ k, k ∉ vs.map key → get (vs.foldl step s) k = get s k) ∧
      ∀ v ∈ vs, get (vs.foldl step s) (key v) = f v := by
  intro vs
  induction vs with
  | nil =>
    intro s _ _
    exact ⟨fun k _ => rfl, fun v hv => absurd hv (List.not_mem_nil)⟩
  | cons v vs ih =>
    intro s hnd hs
    rw [List.map_cons, List.nodup_cons] at hnd
    have hv := fun k => hstep s v k (hs v (List.mem_cons_self ..))
    have hrest : ∀ u ∈ vs, get (step s v) (key u) = some u := by
      intro u hu
      have hne : key u ≠ key v := fun he => hnd.1 (he ▸ List.mem_map_of_mem hu)
      rw [hv, if_neg hne]
      exact hs u (List.mem_cons_of_mem _ hu)
    obtain ⟨hout, hin⟩ := ih (step s v) hnd.2 hrest
    rw [List.foldl_cons]
    constructor
    · intro k hk
      rw [List.map_cons, List.mem_cons, not_or] at hk
      rw [hout k hk.2, hv, if_neg hk.1]
    · intro u hu
      rcases List.mem_cons.mp hu with rfl | hu
      · rw [hout _ hnd.1, hv, if_pos rfl]
      · exact hin u hu

end Js
