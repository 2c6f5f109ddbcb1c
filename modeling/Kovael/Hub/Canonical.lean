import Kovael.Hub.Store
import Kovael.Js.JsonSame

/-!
# The canonical text of a value

`stableStringify` sorts the keys of objects at every depth, so that values that are equal up
to the order of keys have one text. Two values have one text if and only if they are equal
so far without their `__proto__` members (`stableStringify_eq_iff`): the copy that
`stableValue` fills key by key has none.

Everything is about values that JavaScript can hold (`Js.Json.Held`): numbers are printed as
they read, and an object has its keys once each and in the order of enumeration.
-/

namespace Kovael.Hub

open Js (Json enumerated arrayIndex? units)
open Js.Json (Held Same dropProto dropProtoFields)

/-! ## The order of fields -/

section Order

variable {α : Type}

/-- The fields of `stableValue`, in the order of its object. -/
def stableOrder (fields : List (String × α)) : List (String × α) :=
  enumerated ((fields.insertionSort (fun a b => units a.1 ≤ units b.1)).filter
    fun f => f.1 ≠ "__proto__")

theorem enumerated_perm (fields : List (String × α)) : (enumerated fields).Perm fields := by
  have hnames : (fun f : String × α => (arrayIndex? f.1).isNone) =
      fun f => !(arrayIndex? f.1).isSome := by
    funext f
    cases arrayIndex? f.1 <;> rfl
  unfold enumerated
  rw [hnames]
  exact ((List.perm_insertionSort _ _).append_right _).trans (List.filter_append_perm _ fields)

/-- The order of array indices. -/
def indexLe (a b : String × α) : Prop := (arrayIndex? a.1).getD 0 ≤ (arrayIndex? b.1).getD 0

instance : DecidableRel (indexLe (α := α)) := fun _ _ => inferInstanceAs (Decidable (_ ≤ _))

instance : Std.Total (indexLe (α := α)) := ⟨fun _ _ => Nat.le_total _ _⟩

instance : IsTrans (String × α) indexLe := ⟨fun _ _ _ => Nat.le_trans⟩

/-- The order of `sort()` on keys. -/
def keyLe (a b : String × α) : Prop := units a.1 ≤ units b.1

instance : DecidableRel (keyLe (α := α)) := fun _ _ => inferInstanceAs (Decidable (_ ≤ _))

instance : Std.Total (keyLe (α := α)) := ⟨fun _ _ => le_total _ _⟩

instance : IsTrans (String × α) keyLe := ⟨fun _ _ _ => le_trans⟩

/-- What is enumerated stays as it is. -/
theorem enumerated_enumerated (fields : List (String × α)) :
    enumerated (enumerated fields) = enumerated fields := by
  let indices := (fields.filter fun f => (arrayIndex? f.1).isSome).insertionSort indexLe
  let names := fields.filter fun f => (arrayIndex? f.1).isNone
  have hindices : ∀ f ∈ indices, (arrayIndex? f.1).isSome = true := by
    intro f hf
    exact (List.mem_filter.mp ((List.mem_insertionSort _).mp hf)).2
  have hnames : ∀ f ∈ names, (arrayIndex? f.1).isNone = true := by
    intro f hf
    exact (List.mem_filter.mp hf).2
  have hfirst : (indices ++ names).filter (fun f => (arrayIndex? f.1).isSome) = indices := by
    rw [List.filter_append, List.filter_eq_self.mpr hindices, List.filter_eq_nil_iff.mpr,
      List.append_nil]
    intro f hf
    have hnone := hnames f hf
    rw [Option.isNone_iff_eq_none] at hnone
    simp [hnone]
  have hrest : (indices ++ names).filter (fun f => (arrayIndex? f.1).isNone) = names := by
    rw [List.filter_append, List.filter_eq_self.mpr hnames, List.filter_eq_nil_iff.mpr,
      List.nil_append]
    intro f hf
    have hsome := hindices f hf
    cases hindex : arrayIndex? f.1 with
    | none =>
      rw [hindex] at hsome
      exact absurd hsome (by simp)
    | some n => simp
  have hsorted : indices.insertionSort indexLe = indices :=
    (List.pairwise_insertionSort indexLe _).insertionSort_eq
  show ((indices ++ names).filter _).insertionSort indexLe ++ (indices ++ names).filter _ =
    indices ++ names
  rw [hfirst, hrest, hsorted]

/-- An object without some of its fields is enumerated in its order. -/
theorem enumerated_filter {fields : List (String × α)} (h : enumerated fields = fields)
    (p : String × α → Bool) : enumerated (fields.filter p) = fields.filter p := by
  let indices := fields.filter fun f => (arrayIndex? f.1).isSome
  let names := fields.filter fun f => (arrayIndex? f.1).isNone
  have hsplit : fields = indices.insertionSort indexLe ++ names := h.symm
  have hindices : indices = indices.insertionSort indexLe := by
    conv_lhs => rw [show indices = fields.filter fun f => (arrayIndex? f.1).isSome from rfl, hsplit]
    rw [List.filter_append, List.filter_eq_self.mpr, List.filter_eq_nil_iff.mpr, List.append_nil]
    · intro f hf
      have hnone := (List.mem_filter.mp hf).2
      rw [Option.isNone_iff_eq_none] at hnone
      simp [hnone]
    · intro f hf
      exact (List.mem_filter.mp ((List.mem_insertionSort _).mp hf)).2
  have hsorted : (indices.filter p).Pairwise indexLe := by
    refine List.Pairwise.filter p ?_
    rw [hindices]
    exact List.pairwise_insertionSort ..
  have hfirst : ((fields.filter p).filter fun f => (arrayIndex? f.1).isSome) =
      indices.filter p := List.filter_comm ..
  have hrest : ((fields.filter p).filter fun f => (arrayIndex? f.1).isNone) =
      names.filter p := List.filter_comm ..
  calc enumerated (fields.filter p)
      = (indices.filter p).insertionSort indexLe ++ names.filter p := by
        rw [← hfirst, ← hrest]
        rfl
    _ = (indices ++ names).filter p := by
        rw [hsorted.insertionSort_eq, List.filter_append]
    _ = fields.filter p := by
        rw [hindices, ← hsplit]

/-- Fields of distinct keys are sorted in one way. -/
theorem sorted_congr {fields fields' : List (String × α)} (h : fields.Perm fields')
    (hnodup : (fields.map Prod.fst).Nodup) :
    fields.insertionSort keyLe = fields'.insertionSort keyLe := by
  refine List.Perm.eq_of_pairwise ?_ (List.pairwise_insertionSort keyLe _)
    (List.pairwise_insertionSort keyLe _) ?_
  · intro a b ha hb hab hba
    have hkey : a.1 = b.1 := Js.units_injective (le_antisymm hab hba)
    have ha' := (List.mem_insertionSort _).mp ha
    have hb' := h.symm.subset ((List.mem_insertionSort _).mp hb)
    exact List.inj_on_of_nodup_map hnodup ha' hb' hkey
  · exact (List.perm_insertionSort _ _).trans (h.trans (List.perm_insertionSort _ _).symm)

theorem stableOrder_eq (fields : List (String × α)) :
    stableOrder fields =
      enumerated ((fields.insertionSort keyLe).filter fun f => f.1 ≠ "__proto__") := rfl

theorem stableOrder_perm (fields : List (String × α)) :
    (stableOrder fields).Perm (fields.filter fun f => f.1 ≠ "__proto__") :=
  (enumerated_perm _).trans ((List.perm_insertionSort keyLe fields).filter _)

theorem mem_stableOrder {fields : List (String × α)} {f : String × α} :
    f ∈ stableOrder fields ↔ f ∈ fields ∧ f.1 ≠ "__proto__" := by
  rw [(stableOrder_perm fields).mem_iff, List.mem_filter, decide_eq_true_eq]

theorem stableOrder_nodup {fields : List (String × α)} (h : (fields.map Prod.fst).Nodup) :
    ((stableOrder fields).map Prod.fst).Nodup := by
  rw [((stableOrder_perm fields).map Prod.fst).nodup_iff]
  exact h.sublist (List.filter_sublist.map Prod.fst)

theorem stableOrder_congr {fields fields' : List (String × α)} (h : fields.Perm fields')
    (hnodup : (fields.map Prod.fst).Nodup) : stableOrder fields = stableOrder fields' := by
  rw [stableOrder_eq, stableOrder_eq, sorted_congr h hnodup]

/-- The order is kept when it is made again. -/
theorem stableOrder_stableOrder {fields : List (String × α)} (h : (fields.map Prod.fst).Nodup) :
    stableOrder (stableOrder fields) = stableOrder fields := by
  have hnodup := stableOrder_nodup h
  rw [stableOrder_eq fields] at hnodup ⊢
  let kept := (fields.insertionSort keyLe).filter fun f => f.1 ≠ "__proto__"
  have hsorted : kept.insertionSort keyLe = kept :=
    ((List.pairwise_insertionSort keyLe fields).filter _).insertionSort_eq
  have hkept : kept.filter (fun f => f.1 ≠ "__proto__") = kept :=
    List.filter_eq_self.mpr fun f hf => (List.mem_filter.mp hf).2
  show stableOrder (enumerated kept) = enumerated kept
  rw [stableOrder_eq, sorted_congr (enumerated_perm kept) hnodup, hsorted, hkept]

end Order

/-! ## Canonical values -/

/-- A field of the copy. -/
def stableField (f : String × Json) : String × Json := (f.1, stableValue f.2)

theorem stableItems_eq_map (xs : List Json) : stableItems xs = xs.map stableValue := by
  induction xs with
  | nil => rfl
  | cons x xs ih => rw [stableItems, ih, List.map_cons]

theorem stableFields_eq_map (fields : List (String × Json)) :
    stableFields fields = fields.map stableField := by
  induction fields with
  | nil => rfl
  | cons f fields ih => rw [stableFields, ih, List.map_cons, stableField]

theorem stableValue_array (xs : List Json) :
    stableValue (.array xs) = .array (xs.map stableValue) := by
  rw [stableValue, stableItems_eq_map]

theorem stableValue_object (fields : List (String × Json)) :
    stableValue (.object fields) = .object (stableOrder (fields.map stableField)) := by
  rw [stableValue, stableFields_eq_map]
  rfl

theorem stableField_keys (fields : List (String × Json)) :
    (fields.map stableField).map Prod.fst = fields.map Prod.fst := by
  rw [List.map_map]
  rfl

/-- The members of the copy. -/
theorem mem_stable {fields : List (String × Json)} {key : String} {w : Json} :
    (key, w) ∈ stableOrder (fields.map stableField) ↔
      ∃ v, (key, v) ∈ fields ∧ key ≠ "__proto__" ∧ w = stableValue v := by
  rw [mem_stableOrder, List.mem_map]
  constructor
  · intro hgiven
    obtain ⟨⟨⟨key', v⟩, hmem, heq⟩, hkey⟩ := hgiven
    obtain ⟨rfl, rfl⟩ := Prod.mk.inj heq
    exact ⟨v, hmem, hkey, rfl⟩
  · intro hgiven
    obtain ⟨v, hmem, hkey, rfl⟩ := hgiven
    exact ⟨⟨(key, v), hmem, rfl⟩, hkey⟩

theorem length_stable (fields : List (String × Json)) :
    (stableOrder (fields.map stableField)).length = (dropProtoFields fields).length := by
  rw [(stableOrder_perm _).length_eq, Js.Json.dropProtoFields_eq, List.filter_map, List.length_map,
    List.length_map]
  rfl

variable {number : String → String}

theorem Held.nodup {fields : List (String × Json)} (h : Held number (.object fields)) :
    (fields.map Prod.fst).Nodup := h.1

theorem Held.value {fields : List (String × Json)} (h : Held number (.object fields))
    {f : String × Json} (hf : f ∈ fields) : Held number f.2 :=
  Js.Json.heldFields_iff.mp h.2.2 f hf

theorem Held.item {xs : List Json} (h : Held number (.array xs)) {x : Json} (hx : x ∈ xs) :
    Held number x :=
  Js.Json.heldAll_iff.mp h x hx

/-- A value that can be held can be held without one of its fields. -/
theorem Held.deleteField {v : Json} (hv : Held number v) (key : String) :
    Held number (v.deleteField key) := by
  cases v with
  | object fields =>
    refine ⟨?_, enumerated_filter hv.2.1 _, Js.Json.heldFields_iff.mpr ?_⟩
    · exact List.Sublist.nodup (List.Sublist.map Prod.fst List.filter_sublist) hv.1
    · intro f hf
      exact Held.value hv (List.mem_filter.mp hf).1
  | _ => exact hv

/-- What a value that can be held is copied to can be held. -/
theorem held_stableValue (v : Json) (hv : Held number v) : Held number (stableValue v) := by
  induction v using Js.Json.inductOn with
  | null => exact hv
  | bool b => exact hv
  | number text => exact hv
  | string s => exact hv
  | array xs ih =>
    rw [stableValue_array]
    refine Js.Json.heldAll_iff.mpr fun y hy => ?_
    obtain ⟨x, hx, rfl⟩ := List.mem_map.mp hy
    exact ih x hx (Held.item hv hx)
  | object fields ih =>
    rw [stableValue_object]
    refine ⟨?_, enumerated_enumerated _, Js.Json.heldFields_iff.mpr ?_⟩
    · refine stableOrder_nodup ?_
      rw [stableField_keys]
      exact Held.nodup hv
    · intro hgiven
      obtain ⟨key, w⟩ := hgiven
      intro hmem
      obtain ⟨v, hv', -, rfl⟩ := mem_stable.mp hmem
      exact ih (key, v) hv' (Held.value hv hv')

/-- The copy has no `__proto__` members. -/
theorem dropProto_stableValue (v : Json) : (stableValue v).dropProto = stableValue v := by
  induction v using Js.Json.inductOn with
  | null => rfl
  | bool b => rfl
  | number text => rfl
  | string s => rfl
  | array xs ih =>
    rw [stableValue_array, dropProto, Js.Json.dropProtoItems_eq_map, List.map_map]
    exact congrArg Json.array (List.map_congr_left fun x hx => ih x hx)
  | object fields ih =>
    rw [stableValue_object]
    refine Js.Json.dropProto_object_iff.mpr ?_
    intro hgiven
    obtain ⟨key, w⟩ := hgiven
    intro hmem
    obtain ⟨v, hv, hkey, rfl⟩ := mem_stable.mp hmem
    exact ⟨hkey, ih (key, v) hv⟩

/-- A copy is copied to itself. -/
theorem stableValue_stableValue (v : Json) (hv : Held number v) :
    stableValue (stableValue v) = stableValue v := by
  induction v using Js.Json.inductOn with
  | null => rfl
  | bool b => rfl
  | number text => rfl
  | string s => rfl
  | array xs ih =>
    rw [stableValue_array, stableValue_array, List.map_map]
    exact congrArg Json.array (List.map_congr_left fun x hx => ih x hx (Held.item hv hx))
  | object fields ih =>
    have hself : (stableOrder (fields.map stableField)).map stableField =
        stableOrder (fields.map stableField) := by
      refine (List.map_congr_left ?_).trans (List.map_id _)
      intro hgiven
      obtain ⟨key, w⟩ := hgiven
      intro hmem
      obtain ⟨v, hv', -, rfl⟩ := mem_stable.mp hmem
      exact Prod.ext rfl (ih (key, v) hv' (Held.value hv hv'))
    rw [stableValue_object, stableValue_object, hself, stableOrder_stableOrder]
    rw [stableField_keys]
    exact Held.nodup hv

/-! ## Lists that are compared item by item -/

section Lists

variable {α β γ : Type} {R S : α → β → Prop} {xs : List α} {ys : List β}

theorem forall₂_imp_of_mem (h : List.Forall₂ R xs ys)
    (hRS : ∀ x ∈ xs, ∀ y ∈ ys, R x y → S x y) : List.Forall₂ S xs ys := by
  induction h with
  | nil => exact .nil
  | @cons x y xs ys hxy _ ih =>
    refine .cons (hRS x (List.mem_cons_self ..) y (List.mem_cons_self ..) hxy) (ih ?_)
    intro x' hx' y' hy'
    exact hRS x' (List.mem_cons_of_mem _ hx') y' (List.mem_cons_of_mem _ hy')

theorem exists_of_forall₂ (h : List.Forall₂ R xs ys) {x : α} (hx : x ∈ xs) :
    ∃ y ∈ ys, R x y := by
  induction h with
  | nil => exact absurd hx List.not_mem_nil
  | @cons x' y xs ys hxy _ ih =>
    rcases List.mem_cons.mp hx with rfl | hx
    · exact ⟨y, List.mem_cons_self .., hxy⟩
    · obtain ⟨y', hy', hR⟩ := ih hx
      exact ⟨y', List.mem_cons_of_mem _ hy', hR⟩

theorem map_eq_map_iff_forall₂ {f : α → γ} {g : β → γ} :
    xs.map f = ys.map g ↔ List.Forall₂ (fun x y => f x = g y) xs ys := by
  rw [← List.forall₂_eq_eq_eq, List.forall₂_map_left_iff, List.forall₂_map_right_iff]

end Lists

/-! ## Values with one copy -/

/-- Values with one copy are equal without their `__proto__` members, up to the order of
keys. -/
theorem same_of_stableValue (v : Json) :
    ∀ w, stableValue v = stableValue w → Same v.dropProto w.dropProto := by
  induction v using Js.Json.inductOn with
  | null =>
    intro w h
    cases w with
    | null => trivial
    | _ => exact absurd h (by simp [stableValue])
  | bool b =>
    intro w h
    cases w with
    | bool b' => exact Json.bool.inj h
    | _ => exact absurd h (by simp [stableValue])
  | number text =>
    intro w h
    cases w with
    | number text' => exact Json.number.inj h
    | _ => exact absurd h (by simp [stableValue])
  | string s =>
    intro w h
    cases w with
    | string s' => exact Json.string.inj h
    | _ => exact absurd h (by simp [stableValue])
  | array xs ih =>
    intro w h
    cases w with
    | array ys =>
      rw [stableValue_array, stableValue_array, Json.array.injEq] at h
      rw [dropProto, dropProto, Js.Json.dropProtoItems_eq_map, Js.Json.dropProtoItems_eq_map]
      refine Js.Json.sameItems_iff.mpr ?_
      rw [List.forall₂_map_left_iff, List.forall₂_map_right_iff]
      exact forall₂_imp_of_mem (map_eq_map_iff_forall₂.mp h) fun x hx y _ heq => ih x hx y heq
    | _ => exact absurd h (by simp [stableValue])
  | object fields ih =>
    intro w h
    cases w with
    | object fields' =>
      rw [stableValue_object, stableValue_object, Json.object.injEq] at h
      rw [dropProto, dropProto]
      refine Js.Json.same_object_iff.mpr ⟨?_, ?_⟩
      · rw [← length_stable, ← length_stable, h]
      · intro hgiven
        obtain ⟨key, v⟩ := hgiven
        intro hmem
        obtain ⟨v, hv, hkey, rfl⟩ := Js.Json.mem_dropProtoFields.mp hmem
        have hcopied := mem_stable.mpr ⟨v, hv, hkey, rfl⟩
        rw [h] at hcopied
        obtain ⟨w, hw, -, heq⟩ := mem_stable.mp hcopied
        exact ⟨w.dropProto, Js.Json.mem_dropProtoFields.mpr ⟨w, hw, hkey, rfl⟩,
          ih (key, v) hv w heq⟩
    | _ => exact absurd h (by simp [stableValue])

/-- Values that are equal without their `__proto__` members, up to the order of keys, have one
copy. -/
theorem stableValue_of_same (v : Json) (hv : Held number v) :
    ∀ w, Held number w → Same v.dropProto w.dropProto → stableValue v = stableValue w := by
  induction v using Js.Json.inductOn with
  | null =>
    intro w _ h
    cases w with
    | null => rfl
    | _ => exact absurd h id
  | bool b =>
    intro w _ h
    cases w with
    | bool b' => exact congrArg Json.bool h
    | _ => exact absurd h id
  | number text =>
    intro w _ h
    cases w with
    | number text' => exact congrArg Json.number h
    | _ => exact absurd h id
  | string s =>
    intro w _ h
    cases w with
    | string s' => exact congrArg Json.string h
    | _ => exact absurd h id
  | array xs ih =>
    intro w hw h
    cases w with
    | array ys =>
      rw [dropProto, dropProto, Js.Json.dropProtoItems_eq_map, Js.Json.dropProtoItems_eq_map] at h
      have hitems := Js.Json.sameItems_iff.mp h
      rw [List.forall₂_map_left_iff, List.forall₂_map_right_iff] at hitems
      rw [stableValue_array, stableValue_array]
      refine congrArg Json.array (map_eq_map_iff_forall₂.mpr ?_)
      exact forall₂_imp_of_mem hitems fun x hx y hy hsame =>
        ih x hx (Held.item hv hx) y (Held.item hw hy) hsame
    | _ => exact absurd h id
  | object fields ih =>
    intro w hw h
    cases w with
    | object fields' =>
      rw [dropProto, dropProto] at h
      obtain ⟨hlength, hfields⟩ := Js.Json.same_object_iff.mp h
      have hkeys : ((fields.map stableField).map Prod.fst).Nodup := by
        rw [stableField_keys]
        exact Held.nodup hv
      have hkeys' : ((fields'.map stableField).map Prod.fst).Nodup := by
        rw [stableField_keys]
        exact Held.nodup hw
      -- the one copy has as many members as the other, and all of them
      have hsubset : stableOrder (fields.map stableField) ⊆
          stableOrder (fields'.map stableField) := by
        intro hgiven
        obtain ⟨key, u⟩ := hgiven
        intro hmem
        obtain ⟨v, hv', hkey, rfl⟩ := mem_stable.mp hmem
        obtain ⟨u, hu, hsame⟩ := hfields (key, v.dropProto)
          (Js.Json.mem_dropProtoFields.mpr ⟨v, hv', hkey, rfl⟩)
        obtain ⟨w, hw', -, rfl⟩ := Js.Json.mem_dropProtoFields.mp hu
        have heq := ih (key, v) hv' (Held.value hv hv') w (Held.value hw hw') hsame
        exact mem_stable.mpr ⟨w, hw', hkey, heq⟩
      have hperm : (stableOrder (fields.map stableField)).Perm
          (stableOrder (fields'.map stableField)) := by
        have hnodup := (stableOrder_nodup hkeys).of_map
        refine (List.subperm_of_subset hnodup hsubset).perm_of_length_le ?_
        rw [length_stable, length_stable, hlength]
      have horder := stableOrder_congr hperm (stableOrder_nodup hkeys)
      rw [stableOrder_stableOrder hkeys, stableOrder_stableOrder hkeys'] at horder
      rw [stableValue_object, stableValue_object, horder]
    | _ => exact absurd h id

/-! ## Canonical texts -/

/-- Two values have one text if and only if they are equal without their `__proto__` members,
up to the order of keys. -/
theorem stableStringify_eq_iff {v w : Json} (hv : Held number v) (hw : Held number w) :
    stableStringify v = stableStringify w ↔ Same v.dropProto w.dropProto := by
  constructor
  · intro h
    exact same_of_stableValue v w
      (Js.Json.stringify_injective (held_stableValue v hv) (held_stableValue w hw) h)
  · intro h
    exact congrArg Json.stringify (stableValue_of_same v hv w hw h)

/-- `JSON.parse(stableStringify(value))`. -/
theorem parse_stableStringify {v : Json} (hv : Held number v) :
    Js.Json.parse number (stableStringify v) = some (stableValue v) :=
  Js.Json.parse_stringify number (held_stableValue v hv)

theorem length_dropProtoFields (fields : List (String × Json)) :
    (dropProtoFields fields).length =
      ((fields.map Prod.fst).filter fun key => key ≠ "__proto__").length := by
  rw [Js.Json.dropProtoFields_eq, List.length_map, List.filter_map, List.length_map]
  rfl

/-- What is equal to a value without `__proto__` members has none. -/
theorem dropProto_of_same (v : Json) :
    ∀ w, Same v w → w.dropProto = w → v.dropProto = v := by
  induction v using Js.Json.inductOn with
  | null => exact fun _ _ _ => rfl
  | bool b => exact fun _ _ _ => rfl
  | number text => exact fun _ _ _ => rfl
  | string s => exact fun _ _ _ => rfl
  | array xs ih =>
    intro w h hw
    cases w with
    | array ys =>
      rw [dropProto, Js.Json.dropProtoItems_eq_map, Json.array.injEq] at hw ⊢
      have hself := List.map_inj_left.mp (hw.trans (List.map_id ys).symm)
      have hitems := Js.Json.sameItems_iff.mp h
      refine (List.map_congr_left fun x hx => ?_).trans (List.map_id xs)
      obtain ⟨y, hy, hsame⟩ := exists_of_forall₂ hitems hx
      exact ih x hx y hsame (hself y hy)
    | _ => exact absurd h id
  | object fields ih =>
    intro w h hw
    cases w with
    | object fields' =>
      obtain ⟨-, hfields⟩ := Js.Json.same_object_iff.mp h
      have hw' := Js.Json.dropProto_object_iff.mp hw
      refine Js.Json.dropProto_object_iff.mpr fun f hf => ?_
      obtain ⟨u, hu, hsame⟩ := hfields f hf
      obtain ⟨hkey, hself⟩ := hw' (f.1, u) hu
      exact ⟨hkey, ih f hf u hsame hself⟩
    | _ => exact absurd h id

/-- Equal values are equal without their `__proto__` members. -/
theorem same_dropProto (v : Json) (hv : Held number v) :
    ∀ w, Held number w → Same v w → Same v.dropProto w.dropProto := by
  induction v using Js.Json.inductOn with
  | null =>
    intro w _ h
    cases w <;> exact h
  | bool b =>
    intro w _ h
    cases w <;> exact h
  | number text =>
    intro w _ h
    cases w <;> exact h
  | string s =>
    intro w _ h
    cases w <;> exact h
  | array xs ih =>
    intro w hw h
    cases w with
    | array ys =>
      have hitems := Js.Json.sameItems_iff.mp h
      rw [dropProto, dropProto, Js.Json.dropProtoItems_eq_map, Js.Json.dropProtoItems_eq_map]
      refine Js.Json.sameItems_iff.mpr ?_
      rw [List.forall₂_map_left_iff, List.forall₂_map_right_iff]
      exact forall₂_imp_of_mem hitems fun x hx y hy hsame =>
        ih x hx (Held.item hv hx) y (Held.item hw hy) hsame
    | _ => exact absurd h id
  | object fields ih =>
    intro w hw h
    cases w with
    | object fields' =>
      obtain ⟨hlength, hfields⟩ := Js.Json.same_object_iff.mp h
      -- the keys are the same, so as many of them are left
      have hsubset : fields.map Prod.fst ⊆ fields'.map Prod.fst := by
        intro key hkey
        obtain ⟨f, hf, rfl⟩ := List.mem_map.mp hkey
        obtain ⟨u, hu, -⟩ := hfields f hf
        exact List.mem_map.mpr ⟨(f.1, u), hu, rfl⟩
      have hperm : (fields.map Prod.fst).Perm (fields'.map Prod.fst) := by
        refine (List.subperm_of_subset (Held.nodup hv) hsubset).perm_of_length_le ?_
        rw [List.length_map, List.length_map, hlength]
      rw [dropProto, dropProto]
      refine Js.Json.same_object_iff.mpr ⟨?_, ?_⟩
      · rw [length_dropProtoFields, length_dropProtoFields, (hperm.filter _).length_eq]
      · intro hgiven
        obtain ⟨key, u⟩ := hgiven
        intro hmem
        obtain ⟨v, hv', hkey, rfl⟩ := Js.Json.mem_dropProtoFields.mp hmem
        obtain ⟨w, hw', hsame⟩ := hfields (key, v) hv'
        exact ⟨w.dropProto, Js.Json.mem_dropProtoFields.mpr ⟨w, hw', hkey, rfl⟩,
          ih (key, v) hv' (Held.value hv hv') w (Held.value hw hw') hsame⟩
    | _ => exact absurd h id

/-- A value is equal to its copy, up to the order of keys, if it has no `__proto__`
members. -/
theorem same_stableValue_iff {v : Json} (hv : Held number v) :
    Same v (stableValue v) ↔ v.dropProto = v := by
  constructor
  · intro h
    exact dropProto_of_same v _ h (dropProto_stableValue v)
  · intro h
    have hsame := same_of_stableValue v (stableValue v) (stableValue_stableValue v hv).symm
    rw [h, dropProto_stableValue] at hsame
    exact hsame

end Kovael.Hub
