import Kovael.Workflow.FrontMatter

/-!
# References into a document

The parser holds a reference as the path from the root. A change through one path is
read back through that path (`follow?_modifyAt`), two changes through one path are one
change (`modifyAt_modifyAt`), and a map off the path keeps what it has
(`ordinary_modifyAt`).
-/

namespace Kovael.Workflow.Value

/-- An assignment to a slot of a map is read back. -/
theorem read?_place {v w : Value} {slot : Slot} (h : v.read? slot = some w) (x : Value) :
    (place slot x v).read? slot = some x := by
  cases v with
  | map own proto =>
    cases slot with
    | own key => exact (Js.getEntry_setEntry key key x own).trans (if_pos rfl)
    | proto => rfl
  | null => cases h
  | bool b => cases h
  | number n => cases h
  | string s => cases h
  | list xs => cases h
  | objectPrototype => cases h

/-- Another slot is left as it is. -/
theorem read?_place_ne {slot slot' : Slot} (hne : slot' ≠ slot) (x v : Value) :
    (place slot x v).read? slot' = v.read? slot' := by
  cases v with
  | map own proto =>
    cases slot with
    | own key =>
      cases slot' with
      | own key' =>
        refine (Js.getEntry_setEntry key key' x own).trans (if_neg ?_)
        intro heq
        obtain rfl := heq
        exact hne rfl
      | proto => rfl
    | proto =>
      cases slot' with
      | own key' => rfl
      | proto => exact absurd rfl hne
  | null => rfl
  | bool b => rfl
  | number n => rfl
  | string s => rfl
  | list xs => rfl
  | objectPrototype => rfl

theorem follow?_append (path path' : List Slot) (v : Value) :
    v.follow? (path ++ path') = (v.follow? path).bind (follow? path') := by
  induction path generalizing v with
  | nil => rfl
  | cons slot path ih =>
    rw [List.cons_append, follow?, follow?, Option.bind_assoc]
    exact congrArg (Option.bind _) (funext ih)

/-- A change through a path is read back through it. -/
theorem follow?_modifyAt (f : Value → Value) (path : List Slot) :
    ∀ {v w : Value}, v.follow? path = some w → (v.modifyAt f path).follow? path = some (f w) := by
  induction path with
  | nil =>
    intro v w h
    obtain rfl := Option.some.inj h
    rfl
  | cons slot path ih =>
    intro v w h
    rw [follow?, Option.bind_eq_some_iff] at h
    obtain ⟨u, hu, hw⟩ := h
    rw [modifyAt, hu, follow?]
    dsimp only
    rw [read?_place hu, Option.bind_some]
    exact ih hw

/-- The second of two assignments to a slot stays. -/
theorem place_place (slot : Slot) (x y v : Value) :
    place slot y (place slot x v) = place slot y v := by
  have hentry : ∀ (key : String) (own : List (String × Value)),
      Js.setEntry key y (Js.setEntry key x own) = Js.setEntry key y own := by
    intro key own
    induction own with
    | nil => exact if_pos rfl
    | cons e own ih =>
      rw [Js.setEntry, Js.setEntry]
      split
      next => exact if_pos rfl
      next hne => rw [Js.setEntry, if_neg hne, ih]
  cases v with
  | map own proto =>
    cases slot with
    | own key => exact congrArg (Value.map · proto) (hentry key own)
    | proto => rfl
  | _ => rfl

/-- A change through a path that goes on is a change of what the path leads to. -/
theorem modifyAt_append (f : Value → Value) (path path' : List Slot) (v : Value) :
    v.modifyAt f (path ++ path') = v.modifyAt (fun w => w.modifyAt f path') path := by
  induction path generalizing v with
  | nil => rfl
  | cons slot path ih =>
    rw [List.cons_append, modifyAt, modifyAt]
    cases v.read? slot with
    | none => rfl
    | some w => exact congrArg (place slot · v) (ih w)

/-- Two changes through a path are one. -/
theorem modifyAt_modifyAt (f g : Value → Value) (path : List Slot) (v : Value) :
    (v.modifyAt f path).modifyAt g path = v.modifyAt (fun w => g (f w)) path := by
  induction path generalizing v with
  | nil => rfl
  | cons slot path ih =>
    rw [modifyAt, modifyAt]
    cases hread : v.read? slot with
    | none =>
      dsimp only
      rw [modifyAt, hread]
    | some w =>
      dsimp only
      rw [modifyAt, read?_place hread]
      dsimp only
      rw [place_place, ih, hread]

/-- What a change does to what the path leads to is all there is of it. -/
theorem modifyAt_congr {f g : Value → Value} (path : List Slot) {v w : Value}
    (hw : v.follow? path = some w) (h : f w = g w) : v.modifyAt f path = v.modifyAt g path := by
  induction path generalizing v with
  | nil =>
    obtain rfl := Option.some.inj hw
    exact h
  | cons slot path ih =>
    rw [follow?, Option.bind_eq_some_iff] at hw
    obtain ⟨u, hu, hw⟩ := hw
    rw [modifyAt, modifyAt, hu]
    exact congrArg (place slot · v) (ih hw)

/-- A slot set to what it has. -/
theorem place_self {slot : Slot} {v w : Value} (h : v.read? slot = some w) :
    place slot w v = v := by
  cases v with
  | map own proto =>
    cases slot with
    | own key => exact congrArg (Value.map · proto) (Js.setEntry_self h)
    | proto =>
      obtain rfl := Option.some.inj h
      rfl
  | _ => cases h

/-- A change to what there is. -/
theorem modifyAt_self {path : List Slot} {v w : Value} (h : v.follow? path = some w) :
    v.modifyAt (fun _ => w) path = v := by
  induction path generalizing v with
  | nil => exact (Option.some.inj h).symm
  | cons slot path ih =>
    rw [follow?, Option.bind_eq_some_iff] at h
    obtain ⟨u, hu, h⟩ := h
    rw [modifyAt, hu]
    dsimp only
    rw [ih h, place_self hu]

/-- The last key of a map. -/
theorem modifyAt_last {own : List (String × Value)} {key : String} (hnew : key ∉ own.map Prod.fst)
    (x y proto : Value) :
    (Value.map (own ++ [(key, x)]) proto).modifyAt (fun _ => y) [.own key] =
      .map (own ++ [(key, y)]) proto := by
  rw [← Js.setEntry_of_not_mem hnew, ← Js.setEntry_of_not_mem hnew]
  have hread : (Value.map (Js.setEntry key x own) proto).read? (.own key) = some x :=
    (Js.getEntry_setEntry key key x own).trans (if_pos rfl)
  rw [modifyAt, hread]
  exact place_place (.own key) x y (.map own proto)

/-- The last key of a map is read. -/
theorem follow?_last {own : List (String × Value)} {key : String} (hnew : key ∉ own.map Prod.fst)
    (x proto : Value) : (Value.map (own ++ [(key, x)]) proto).follow? [.own key] = some x := by
  have hread : (Value.map (Js.setEntry key x own) proto).read? (.own key) = some x :=
    (Js.getEntry_setEntry key key x own).trans (if_pos rfl)
  rw [← Js.setEntry_of_not_mem hnew, follow?, hread]
  rfl

/-- A change below the last key of a map that was just put there. -/
theorem modifyAt_below {own : List (String × Value)} {key : String}
    (hnew : key ∉ own.map Prod.fst) (x y proto : Value) (path : List Slot) (v : Value) :
    (v.modifyAt (fun _ => .map (own ++ [(key, x)]) proto) path).modifyAt (fun _ => y)
        (path ++ [.own key]) =
      v.modifyAt (fun _ => .map (own ++ [(key, y)]) proto) path := by
  rw [modifyAt_append, modifyAt_modifyAt]
  exact congrArg (v.modifyAt · path) (funext fun _ => modifyAt_last hnew x y proto)

/-- A map whose prototype was not set. -/
def IsOrdinary (v : Value) : Prop :=
  ∃ own, v = .map own .objectPrototype ∧ Js.getEntry "__proto__" own = none

/-- A path through properties other than the prototype. -/
def OwnPath (path : List Slot) : Prop := ∀ slot ∈ path, ∃ key, slot = .own key ∧ key ≠ "__proto__"

theorem ordinary_emptyMap : IsOrdinary emptyMap := ⟨[], rfl, rfl⟩

/-- An assignment to another key leaves a map ordinary. -/
theorem ordinary_place {v : Value} (h : IsOrdinary v) {key : String} (hkey : key ≠ "__proto__")
    (x : Value) : IsOrdinary (place (.own key) x v) := by
  obtain ⟨own, rfl, hown⟩ := h
  refine ⟨Js.setEntry key x own, rfl, ?_⟩
  rw [Js.getEntry_setEntry, if_neg hkey.symm]
  exact hown

/-- In an ordinary map a key is its own property, unless it is the prototype's. -/
theorem slotOf_ordinary {v : Value} (h : IsOrdinary v) (key : String) (x : Value) :
    v.slotOf key x =
      if key = "__proto__" then (if x.isObject then some .proto else none) else some (.own key) := by
  obtain ⟨own, rfl, hown⟩ := h
  have hsetter : (Value.map own .objectPrototype).inheritsSetter = true := by
    rw [inheritsSetter, hown]
    rfl
  rw [slotOf]
  by_cases hkey : key = "__proto__"
  · rw [if_pos ⟨hkey, hsetter⟩, if_pos hkey]
  · rw [if_neg (fun h => hkey h.1), if_neg hkey]

/-- A key that is set in a map is read back. -/
theorem read?_place_own {v : Value} (h : IsOrdinary v) (key : String) (x : Value) :
    (place (.own key) x v).read? (.own key) = some x := by
  obtain ⟨own, rfl, -⟩ := h
  exact (Js.getEntry_setEntry key key x own).trans (if_pos rfl)

/-- Whatever the prototype, the map has no property of its name. -/
theorem read?_place_proto {v : Value} (h : IsOrdinary v) (x : Value) :
    (place .proto x v).read? (.own "__proto__") = none := by
  obtain ⟨own, rfl, hown⟩ := h
  exact hown

/-- Through a list no path goes on. -/
theorem not_prefix_of_list {v w : Value} {path other : List Slot} {xs : List Value}
    (hlist : v.follow? path = some (.list xs)) (hother : v.follow? other = some w)
    (hw : IsOrdinary w) : ¬ path <+: other := by
  intro hgiven
  obtain ⟨rest, rfl⟩ := hgiven
  rw [follow?_append, hlist, Option.bind_some] at hother
  cases rest with
  | nil =>
    obtain ⟨own, rfl, -⟩ := hw
    cases hother
  | cons slot rest => cases hother

/-- A change leaves every map that is not below it ordinary. -/
theorem ordinary_modifyAt (f : Value → Value) (path : List Slot) (hpath : OwnPath path) :
    ∀ {other : List Slot} {v w : Value}, ¬ path <+: other → v.follow? other = some w →
      IsOrdinary w → ∃ w', (v.modifyAt f path).follow? other = some w' ∧ IsOrdinary w' := by
  induction path with
  | nil =>
    intro other v w hnot
    exact absurd List.nil_prefix hnot
  | cons slot path ih =>
    obtain ⟨key, rfl, hkey⟩ := hpath slot (List.mem_cons_self ..)
    have hrest : OwnPath path := fun s hs => hpath s (List.mem_cons_of_mem _ hs)
    intro other v w hnot hfollow hw
    rw [modifyAt]
    cases hread : v.read? (.own key) with
    | none => exact ⟨w, hfollow, hw⟩
    | some u =>
      cases other with
      | nil =>
        obtain rfl := Option.some.inj hfollow
        exact ⟨_, rfl, ordinary_place hw hkey _⟩
      | cons slot' other =>
        rw [follow?, Option.bind_eq_some_iff] at hfollow
        obtain ⟨u', hu', hfollow⟩ := hfollow
        dsimp only
        rw [follow?]
        by_cases hslot : slot' = .own key
        · subst hslot
          obtain rfl := Option.some.inj (hread.symm.trans hu')
          rw [read?_place hread, Option.bind_some]
          refine ih hrest ?_ hfollow hw
          intro hway
          exact hnot (List.cons_prefix_cons.mpr ⟨rfl, hway⟩)
        · rw [read?_place_ne hslot, hu']
          exact ⟨w, hfollow, hw⟩

/-- A key set in a map leaves the maps on the way to it ordinary. -/
theorem ordinary_set {path other : List Slot} {v w u : Value} {key : String} (hpath : OwnPath path)
    (hkey : key ≠ "__proto__") (x : Value) (hw : v.follow? path = some w) (hwmap : IsOrdinary w)
    (hway : other <+: path) (hu : v.follow? other = some u) (humap : IsOrdinary u) :
    ∃ u', (v.modifyAt (place (.own key) x) path).follow? other = some u' ∧ IsOrdinary u' := by
  by_cases hsame : other = path
  · subst hsame
    exact ⟨_, follow?_modifyAt _ _ hw, ordinary_place hwmap hkey x⟩
  · refine ordinary_modifyAt _ path hpath ?_ hu humap
    intro hback
    exact hsame (hway.eq_of_length_le hback.length_le)

end Kovael.Workflow.Value
