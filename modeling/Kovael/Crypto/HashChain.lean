import Mathlib.Data.List.Induction
import Mathlib.Data.List.Nodup

/-!
# Hash chains

Records that each have a hash and name the hash of the record before them, in a list that
grows at its end. `Linked` says that they do; the rules are that a record may be appended
that names the last hash (`linked_append`), and that the hashes of a chain are distinct, and
so are the hashes that its records name, if a hash binds what its record names
(`nodup_hashes`, `nodup_prevs`).
-/

namespace Crypto.HashChain

variable {ρ η : Type} (prev : ρ → Option η) (hash : ρ → η)

/-- Each record names the hash of the one before it, the first names `last`. -/
def LinkedFrom (last : Option η) : List ρ → Prop
  | [] => True
  | r :: rs => prev r = last ∧ LinkedFrom (some (hash r)) rs

/-- A chain from its first record on. -/
def Linked (rs : List ρ) : Prop := LinkedFrom prev hash none rs

variable {prev hash}

/-- The hash that the next record has to name. -/
theorem linkedFrom_append {last : Option η} {rs : List ρ} {r : ρ} :
    LinkedFrom prev hash last (rs ++ [r]) ↔
      LinkedFrom prev hash last rs ∧ prev r = (rs.getLast?.map hash).or last := by
  induction rs generalizing last with
  | nil => simp [LinkedFrom]
  | cons r' rs ih =>
    rw [List.cons_append, LinkedFrom, LinkedFrom, ih, and_assoc]
    have hnext : (rs.getLast?.map hash).or (some (hash r')) =
        ((r' :: rs).getLast?.map hash).or last := by
      cases rs with
      | nil => rfl
      | cons r'' rs =>
        rw [List.getLast?_cons_cons, List.getLast?_eq_some_getLast (List.cons_ne_nil r'' rs)]
        rfl
    rw [hnext]

theorem linked_append {rs : List ρ} {r : ρ} :
    Linked prev hash (rs ++ [r]) ↔ Linked prev hash rs ∧ prev r = rs.getLast?.map hash := by
  rw [Linked, linkedFrom_append, Option.or_none]
  rfl

/-- A chain, said of its first record and of its neighbours. -/
theorem linkedFrom_iff {last : Option η} {rs : List ρ} :
    LinkedFrom prev hash last rs ↔
      (∀ r post, rs = r :: post → prev r = last) ∧
        ∀ pre r r' post, rs = pre ++ r :: r' :: post → prev r' = some (hash r) := by
  induction rs generalizing last with
  | nil => simp [LinkedFrom]
  | cons r₀ rs ih =>
    rw [LinkedFrom, ih]
    constructor
    · intro hgiven
      obtain ⟨hfirst, hnext, hrest⟩ := hgiven
      refine ⟨?_, ?_⟩
      · intro r post heq
        rw [← (List.cons.inj heq).1]
        exact hfirst
      · intro pre r r' post heq
        cases pre with
        | nil =>
          obtain ⟨rfl, hrs⟩ := List.cons.inj heq
          exact hnext r' post hrs
        | cons p pre => exact hrest pre r r' post (List.cons.inj heq).2
    · intro hgiven
      obtain ⟨hfirst, hneighbours⟩ := hgiven
      refine ⟨hfirst r₀ rs rfl, ?_, ?_⟩
      · intro r post heq
        exact hneighbours [] r₀ r post (by rw [heq]; rfl)
      · intro pre r r' post heq
        exact hneighbours (r₀ :: pre) r r' post (by rw [heq]; rfl)

/-- What the records name are the hashes of the others, and what the first names. -/
theorem map_prev {last : Option η} {rs : List ρ} (h : LinkedFrom prev hash last rs) :
    rs.map prev = (last :: rs.map fun r => some (hash r)).dropLast := by
  induction rs generalizing last with
  | nil => rfl
  | cons r rs ih =>
    rw [List.map_cons, List.map_cons, List.dropLast_cons_cons, h.1, ih h.2]

/-- The hashes of a chain are distinct, if records with one hash name one hash. -/
theorem nodup_hashes {rs : List ρ} (h : Linked prev hash rs)
    (hbinds : ∀ r ∈ rs, ∀ r' ∈ rs, hash r = hash r' → prev r = prev r') :
    (rs.map hash).Nodup := by
  induction rs using List.reverseRecOn with
  | nil => exact List.nodup_nil
  | append_singleton rs r ih =>
    obtain ⟨hlinked, hprev⟩ := linked_append.mp h
    have hnodup := ih hlinked fun a ha b hb =>
      hbinds a (List.mem_append_left _ ha) b (List.mem_append_left _ hb)
    rw [List.map_append, List.map_singleton, List.nodup_append]
    refine ⟨hnodup, List.nodup_singleton _, ?_⟩
    intro _ hmem _ hlast heq
    obtain rfl := heq
    obtain ⟨r₀, hr₀, heq⟩ := List.mem_map.mp hmem
    rw [List.mem_singleton] at hlast
    -- the earlier record names what the new one names, which is the hash of the last one
    have hbound := hbinds r₀ (List.mem_append_left _ hr₀) r
      (List.mem_append_right _ (List.mem_singleton_self r)) (heq.trans hlast)
    rcases List.eq_nil_or_concat rs with rfl | ⟨rs', l, rfl⟩
    · exact absurd hr₀ List.not_mem_nil
    · rw [List.concat_eq_append] at *
      rw [hprev, List.getLast?_concat, Option.map_some] at hbound
      have hnamed : some (hash l) ∈ (rs' ++ [l]).map prev := hbound ▸ List.mem_map_of_mem hr₀
      rw [map_prev hlinked, List.map_append, List.map_singleton, ← List.cons_append,
        List.dropLast_concat] at hnamed
      rcases List.mem_cons.mp hnamed with hnone | hearlier
      · exact absurd hnone (by simp)
      · obtain ⟨r₁, hr₁, heq₁⟩ := List.mem_map.mp hearlier
        rw [List.map_append, List.map_singleton, List.nodup_append] at hnodup
        exact hnodup.2.2 _ (List.mem_map_of_mem hr₁) _ (List.mem_singleton_self _)
          (Option.some.inj heq₁)

/-- The hashes that the records of a chain name are distinct. -/
theorem nodup_prevs {rs : List ρ} (h : Linked prev hash rs)
    (hbinds : ∀ r ∈ rs, ∀ r' ∈ rs, hash r = hash r' → prev r = prev r') :
    (rs.map prev).Nodup := by
  have hnodup := nodup_hashes h hbinds
  rw [map_prev h]
  refine List.Nodup.sublist (List.dropLast_sublist _) ?_
  rw [List.nodup_cons]
  constructor
  · intro hmem
    obtain ⟨r, -, hr⟩ := List.mem_map.mp hmem
    exact absurd hr (by simp)
  · have hsome : (rs.map fun r => some (hash r)) = (rs.map hash).map some := by
      rw [List.map_map]
      rfl
    rw [hsome]
    exact hnodup.map fun _ _ heq => Option.some.inj heq

end Crypto.HashChain
