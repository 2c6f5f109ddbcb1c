import Kovael.Js.JsonText

/-!
# Equality of JSON values

`Same` is equality up to the order of object keys, at every depth. `dropProto` is what is
left of a value whose objects were copied key by key with `copy[key] = value`: an
assignment to `__proto__` sets the prototype, and adds no field.
-/

namespace Js

/-! ## Code units -/

/-- The units of one character. -/
def charUnits (c : Char) : List Nat :=
  if c.toNat < 0x10000 then [c.toNat]
  else [0xD800 + (c.toNat - 0x10000) / 0x400, 0xDC00 + (c.toNat - 0x10000) % 0x400]

theorem toNat_valid (c : Char) : c.toNat < 0xD800 ∨ 0xDFFF < c.toNat ∧ c.toNat < 0x110000 :=
  c.valid

theorem toNat_inj {c d : Char} (h : c.toNat = d.toNat) : c = d :=
  Char.ext (UInt32.toNat_inj.mp h)

/-- The first unit of a character says how many it has. -/
theorem charUnits_append_inj {c d : Char} {us vs : List Nat}
    (h : charUnits c ++ us = charUnits d ++ vs) : c = d ∧ us = vs := by
  have hc := toNat_valid c
  have hd := toNat_valid d
  unfold charUnits at h
  split at h <;> split at h <;>
    simp only [List.cons_append, List.nil_append, List.cons.injEq] at h
  next => exact ⟨toNat_inj h.1, h.2⟩
  next => omega
  next => omega
  next =>
    obtain ⟨hhigh, hlow, hrest⟩ := h
    exact ⟨toNat_inj (by omega), hrest⟩

theorem flatMap_charUnits_inj : ∀ cs ds : List Char,
    cs.flatMap charUnits = ds.flatMap charUnits → cs = ds := by
  have hcons : ∀ (c : Char) (cs : List Char), (c :: cs).flatMap charUnits ≠ [] := by
    intro c cs
    rw [List.flatMap_cons]
    unfold charUnits
    split <;> simp
  intro cs
  induction cs with
  | nil =>
    intro ds h
    cases ds with
    | nil => rfl
    | cons d ds => exact absurd h.symm (hcons d ds)
  | cons c cs ih =>
    intro ds h
    cases ds with
    | nil => exact absurd h (hcons c cs)
    | cons d ds =>
      rw [List.flatMap_cons, List.flatMap_cons] at h
      obtain ⟨hhead, htail⟩ := charUnits_append_inj h
      rw [hhead, ih ds htail]

/-- Two strings have two lists of units. -/
theorem units_injective {s t : String} (h : units s = units t) : s = t :=
  String.toList_injective (flatMap_charUnits_inj s.toList t.toList h)

namespace Json

mutual

/-- Equal up to the order of the keys of objects. -/
def Same : Json → Json → Prop
  | .null, .null => True
  | .bool b, .bool b' => b = b'
  | .number text, .number text' => text = text'
  | .string s, .string s' => s = s'
  | .array xs, .array ys => SameItems xs ys
  | .object fields, .object fields' => fields.length = fields'.length ∧ SameFields fields fields'
  | _, _ => False

def SameItems : List Json → List Json → Prop
  | [], [] => True
  | x :: xs, y :: ys => Same x y ∧ SameItems xs ys
  | _, _ => False

/-- Every field is among the others. -/
def SameFields : List (String × Json) → List (String × Json) → Prop
  | [], _ => True
  | (key, v) :: fields, fields' => (∃ w, (key, w) ∈ fields' ∧ Same v w) ∧ SameFields fields fields'

end

mutual

/-- The value without the `__proto__` members of its objects. -/
def dropProto : Json → Json
  | .array xs => .array (dropProtoItems xs)
  | .object fields => .object (dropProtoFields fields)
  | value => value

def dropProtoItems : List Json → List Json
  | [] => []
  | x :: xs => dropProto x :: dropProtoItems xs

def dropProtoFields : List (String × Json) → List (String × Json)
  | [] => []
  | (key, v) :: fields =>
    if key = "__proto__" then dropProtoFields fields
    else (key, dropProto v) :: dropProtoFields fields

end

/-! ## Induction -/

mutual

/-- What holds of a value when it holds of its items and fields, holds of all values. -/
theorem inductOn {P : Json → Prop} (null : P .null) (bool : ∀ b, P (.bool b))
    (number : ∀ text, P (.number text)) (string : ∀ s, P (.string s))
    (array : ∀ xs, (∀ x ∈ xs, P x) → P (.array xs))
    (object : ∀ fields, (∀ f ∈ fields, P f.2) → P (.object fields)) : ∀ v, P v
  | .null => null
  | .bool b => bool b
  | .number text => number text
  | .string s => string s
  | .array xs => array xs (inductItems null bool number string array object xs)
  | .object fields => object fields (inductFields null bool number string array object fields)

theorem inductItems {P : Json → Prop} (null : P .null) (bool : ∀ b, P (.bool b))
    (number : ∀ text, P (.number text)) (string : ∀ s, P (.string s))
    (array : ∀ xs, (∀ x ∈ xs, P x) → P (.array xs))
    (object : ∀ fields, (∀ f ∈ fields, P f.2) → P (.object fields)) :
    ∀ xs : List Json, ∀ x ∈ xs, P x
  | [] => fun _ hx => absurd hx List.not_mem_nil
  | x :: xs =>
    List.forall_mem_cons.mpr ⟨inductOn null bool number string array object x,
      inductItems null bool number string array object xs⟩

theorem inductFields {P : Json → Prop} (null : P .null) (bool : ∀ b, P (.bool b))
    (number : ∀ text, P (.number text)) (string : ∀ s, P (.string s))
    (array : ∀ xs, (∀ x ∈ xs, P x) → P (.array xs))
    (object : ∀ fields, (∀ f ∈ fields, P f.2) → P (.object fields)) :
    ∀ fields : List (String × Json), ∀ f ∈ fields, P f.2
  | [] => fun _ hf => absurd hf List.not_mem_nil
  | f :: fields =>
    List.forall_mem_cons.mpr ⟨inductOn null bool number string array object f.2,
      inductFields null bool number string array object fields⟩

end

/-! ## Equality -/

theorem sameFields_iff {fields fields' : List (String × Json)} :
    SameFields fields fields' ↔
      ∀ f ∈ fields, ∃ w, (f.1, w) ∈ fields' ∧ Same f.2 w := by
  induction fields with
  | nil => simp [SameFields]
  | cons f fields ih =>
    obtain ⟨key, v⟩ := f
    rw [SameFields, ih, List.forall_mem_cons]

theorem sameItems_iff {xs ys : List Json} : SameItems xs ys ↔ List.Forall₂ Same xs ys := by
  induction xs generalizing ys with
  | nil => cases ys <;> simp [SameItems]
  | cons x xs ih =>
    cases ys with
    | nil => simp [SameItems]
    | cons y ys => rw [SameItems, ih, List.forall₂_cons]

theorem same_object_iff {fields fields' : List (String × Json)} :
    Same (.object fields) (.object fields') ↔
      fields.length = fields'.length ∧ ∀ f ∈ fields, ∃ w, (f.1, w) ∈ fields' ∧ Same f.2 w := by
  rw [Same, sameFields_iff]

theorem Same.refl (v : Json) : Same v v := by
  induction v using inductOn with
  | null => trivial
  | bool b => rfl
  | number text => rfl
  | string s => rfl
  | array xs ih => exact sameItems_iff.mpr (List.forall₂_same.mpr ih)
  | object fields ih => exact same_object_iff.mpr ⟨rfl, fun f hf => ⟨f.2, hf, ih f hf⟩⟩

/-! ## Without prototypes -/

theorem dropProtoItems_eq_map (xs : List Json) : dropProtoItems xs = xs.map dropProto := by
  induction xs with
  | nil => rfl
  | cons x xs ih => rw [dropProtoItems, ih, List.map_cons]

theorem dropProtoFields_eq (fields : List (String × Json)) :
    dropProtoFields fields =
      (fields.filter fun f => f.1 ≠ "__proto__").map fun f => (f.1, f.2.dropProto) := by
  induction fields with
  | nil => rfl
  | cons f fields ih =>
    obtain ⟨key, v⟩ := f
    rw [dropProtoFields, ih]
    split
    next hkey => rw [List.filter_cons_of_neg (by simpa using hkey)]
    next hkey => rw [List.filter_cons_of_pos (by simpa using hkey), List.map_cons]

theorem mem_dropProtoFields {fields : List (String × Json)} {f : String × Json} :
    f ∈ dropProtoFields fields ↔
      ∃ v, (f.1, v) ∈ fields ∧ f.1 ≠ "__proto__" ∧ f.2 = v.dropProto := by
  obtain ⟨key, w⟩ := f
  rw [dropProtoFields_eq, List.mem_map]
  constructor
  · intro hgiven
    obtain ⟨⟨key', v⟩, hmem, heq⟩ := hgiven
    rw [List.mem_filter, decide_eq_true_eq] at hmem
    obtain ⟨rfl, rfl⟩ := Prod.mk.inj heq
    exact ⟨v, hmem.1, hmem.2, rfl⟩
  · intro hgiven
    obtain ⟨v, hmem, hkey, heq⟩ := hgiven
    refine ⟨(key, v), ?_, Prod.ext rfl heq.symm⟩
    rw [List.mem_filter, decide_eq_true_eq]
    exact ⟨hmem, hkey⟩

/-- An object is as it was without its `__proto__` members if it and its values have none. -/
theorem dropProto_object_iff {fields : List (String × Json)} :
    dropProto (.object fields) = .object fields ↔
      ∀ f ∈ fields, f.1 ≠ "__proto__" ∧ f.2.dropProto = f.2 := by
  rw [dropProto, object.injEq, dropProtoFields_eq]
  constructor
  · intro h
    have hall : fields.filter (fun f => f.1 ≠ "__proto__") = fields := by
      refine List.filter_sublist.eq_of_length ?_
      have hlength := congrArg List.length h
      rw [List.length_map] at hlength
      exact hlength
    rw [hall] at h
    have hself := List.map_inj_left.mp (h.trans (List.map_id fields).symm)
    intro f hf
    have hkey := of_decide_eq_true (List.filter_eq_self.mp hall f hf)
    exact ⟨hkey, congrArg Prod.snd (hself f hf)⟩
  · intro h
    rw [List.filter_eq_self.mpr fun f hf => decide_eq_true (h f hf).1]
    refine (List.map_congr_left fun f hf => ?_).trans (List.map_id fields)
    rw [(h f hf).2]
    rfl

/-! ## Values that can be held -/

section

variable {number : String → String}

theorem heldAll_iff {xs : List Json} : HeldAll number xs ↔ ∀ x ∈ xs, Held number x := by
  induction xs with
  | nil => simp [HeldAll]
  | cons x xs ih => rw [HeldAll, ih, List.forall_mem_cons]

theorem heldFields_iff {fields : List (String × Json)} :
    HeldFields number fields ↔ ∀ f ∈ fields, Held number f.2 := by
  induction fields with
  | nil => simp [HeldFields]
  | cons f fields ih => rw [HeldFields, ih, List.forall_mem_cons]

/-- Values that can be held are equal if they print alike. -/
theorem stringify_injective {v w : Json} (hv : Held number v) (hw : Held number w)
    (h : stringify v = stringify w) : v = w := by
  have hparse := parse_stringify number hv
  rw [h, parse_stringify number hw] at hparse
  exact (Option.some.inj hparse).symm

end

end Json

end Js
