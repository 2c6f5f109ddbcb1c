import Kovael.Js.OrderedMap
import Kovael.Js.Utf16

/-!
# The telemetry pressure valve

`packages/spatial-war-room/src/store/useWarRoomStore.ts` coalesces the telemetry of each
node in a buffer and applies the buffer on the next flush. `shown_flushNodes` and
`flushNodes_none_iff` say what a flush does to what is shown of each node, and when it
throws.

Mirroring notes vs the TS:
- node ids are the keys of a `Map`, of any type: two messages with an object as their
  `nodeId` have different keys.
- an object is what it holds at each key. The order of the keys is not looked at.
- where a new node is drawn is random, and not modelled.
-/

namespace Kovael.Cockpit

open Js (Utf16 OrderedMap getEntry)

/-! ## Values -/

/-- What `JSON.parse` returns; a number is its text. -/
inductive Value where
  | null
  | bool (b : Bool)
  | number (text : String)
  | string (s : Utf16)
  | array (items : List Value)
  | object (fields : Utf16 → Option Value)

/-- A value of a message; `none` is `undefined`. -/
abbrev Data := Option Value

namespace Data

/-- Whether it counts as true. -/
def truthy : Data → Bool
  | none | some .null => false
  | some (.bool b) => b
  | some (.number text) => text ≠ "0"
  | some (.string s) => s ≠ []
  | some (.array _) | some (.object _) => true

/-- `undefined` or `null`, which have no properties to ask for. -/
def nullish : Data → Bool
  | none | some .null => true
  | _ => false

/-- The own property at an index. -/
def indexed (items : List Value) (key : Utf16) : Option Value :=
  (items.zipIdx.find? fun item => Utf16.ascii (toString item.2) = key).map Prod.fst

/-- The own enumerable properties, which a spread copies. -/
def own : Data → Utf16 → Option Value
  | some (.object fields) => fields
  | some (.array items) => indexed items
  | some (.string s) => indexed (s.map fun c => .string [c])
  | _ => fun _ => none

/-- `{ ...old, ...new }`. -/
def spread (old new : Data) : Data :=
  some (.object fun key => (own new key).or (own old key))

/-- `data.status`. -/
def status (data : Data) : Data := own data (Utf16.ascii "status")

/-- `data.label`. -/
def label (data : Data) : Data := own data (Utf16.ascii "label")

end Data

/-! ## The store -/

/-- The label of a node: a text of its own, or its id. -/
inductive NodeLabel (κ : Type) where
  | text (value : Data)
  | id (id : κ)

/-- The part of a node that telemetry reads or writes. -/
structure WarRoomNode (κ : Type) where
  id : κ
  label : NodeLabel κ
  status : Data
  telemetry : Data

section
variable {κ : Type} [DecidableEq κ]

/-- The store and the buffers of the valve. -/
structure ValveSlice (κ : Type) [DecidableEq κ] where
  nodes : List (WarRoomNode κ)
  hardware : Data
  flushCount : Nat
  pendingTelemetry : OrderedMap κ Data
  pendingHardware : Data
  pendingHardwareDirty : Bool

/-- `enqueueTelemetry(id, telemetry)`. -/
def enqueueTelemetry (s : ValveSlice κ) (id : κ) (telemetry : Data) : ValveSlice κ :=
  let existing : Data := (s.pendingTelemetry.get? id).join
  { s with
    pendingTelemetry := s.pendingTelemetry.set id
      (if existing.truthy then existing.spread telemetry else telemetry) }

/-- `enqueueHardware(metrics)`. -/
def enqueueHardware (s : ValveSlice κ) (metrics : Data) : ValveSlice κ :=
  { s with pendingHardware := metrics, pendingHardwareDirty := true }

/-- What telemetry does to a node. -/
def WarRoomNode.update (t : Data) (node : WarRoomNode κ) : WarRoomNode κ :=
  { node with
    status := if t.status.truthy then t.status else node.status
    telemetry := node.telemetry.spread t }

/-- The nodes with their updates, and the updates that are left. -/
def applyUpdates : OrderedMap κ Data → List (WarRoomNode κ) →
    List (WarRoomNode κ) × OrderedMap κ Data
  | updates, [] => ([], updates)
  | updates, node :: nodes =>
    let t : Data := (updates.get? node.id).join
    if t.truthy then
      let (nodes, updates) := applyUpdates (updates.delete node.id) nodes
      (node.update t :: nodes, updates)
    else
      let (nodes, updates) := applyUpdates updates nodes
      (node :: nodes, updates)

/-- The node that an update of an unknown id makes; to ask `undefined` or `null` for a label
throws. -/
def newNode (id : κ) (t : Data) : Option (WarRoomNode κ) :=
  if t.nullish then none
  else some
    { id := id
      label := if t.label.truthy then .text t.label else .id id
      status := if t.status.truthy then t.status else some (.string (Utf16.ascii "ONLINE"))
      telemetry := t }

/-- The nodes with the new ones; `none` if this throws. -/
def addNodes (known : List κ) : List (κ × Data) → List (WarRoomNode κ) →
    Option (List (WarRoomNode κ))
  | [], nodes => some nodes
  | (id, t) :: updates, nodes =>
    if id ∈ known then addNodes known updates nodes
    else (newNode id t).bind fun node => addNodes known updates (nodes ++ [node])

/-- The nodes after the updates; `none` if this throws. -/
def flushNodes (nodes : List (WarRoomNode κ)) (pending : OrderedMap κ Data) :
    Option (List (WarRoomNode κ)) :=
  let (updated, updates) := applyUpdates pending nodes
  addNodes (nodes.map WarRoomNode.id) updates.entries updated

/-- `flushPressureValve()`. The buffer is cleared before anything can throw; what is thrown
leaves the store as it was. -/
def flushPressureValve (s : ValveSlice κ) : ValveSlice κ :=
  if s.pendingTelemetry.entries = [] ∧ s.pendingHardwareDirty = false then s
  else
    match flushNodes s.nodes s.pendingTelemetry with
    | none => { s with pendingTelemetry := .empty }
    | some nodes =>
      let s := { s with
        nodes := nodes
        flushCount := s.flushCount + 1
        pendingTelemetry := .empty }
      if s.pendingHardwareDirty ∧ s.pendingHardware.truthy then
        { s with hardware := s.pendingHardware, pendingHardwareDirty := false }
      else s

/-! ## What the store shows -/

/-- The status and the telemetry of a node, if there is one. -/
def shown (nodes : List (WarRoomNode κ)) (id : κ) : Option (Data × Data) :=
  (nodes.find? fun node => node.id = id).map fun node => (node.status, node.telemetry)

/-- What an update does to what is shown of a known node. -/
def applyKnown (t : Data) (v : Data × Data) : Data × Data :=
  if t.truthy then (if t.status.truthy then t.status else v.1, Data.spread v.2 t) else v

/-- What is shown of a new node. -/
def applyNew (t : Data) : Option (Data × Data) :=
  if t.nullish then none
  else some (if t.status.truthy then t.status else some (.string (Utf16.ascii "ONLINE")), t)

/-- What one update does to what is shown of its node. -/
def applyOne (v : Option (Data × Data)) (t : Data) : Option (Data × Data) :=
  v.elim (applyNew t) fun v => some (applyKnown t v)

theorem shown_nil (id : κ) : shown [] id = none := rfl

theorem shown_cons (node : WarRoomNode κ) (nodes : List (WarRoomNode κ)) (id : κ) :
    shown (node :: nodes) id =
      if node.id = id then some (node.status, node.telemetry) else shown nodes id := by
  unfold shown
  rw [List.find?_cons]
  by_cases hid : node.id = id
  · simp only [hid, decide_true, if_true, Option.map_some]
  · simp only [hid, decide_false, if_false]

theorem shown_append (nodes nodes' : List (WarRoomNode κ)) (id : κ) :
    shown (nodes ++ nodes') id = (shown nodes id).or (shown nodes' id) := by
  unfold shown
  rw [List.find?_append]
  cases nodes.find? fun node => node.id = id with
  | none => rfl
  | some node => rfl

theorem shown_eq_none_iff {nodes : List (WarRoomNode κ)} {id : κ} :
    shown nodes id = none ↔ id ∉ nodes.map WarRoomNode.id := by
  unfold shown
  rw [Option.map_eq_none_iff, List.find?_eq_none]
  simp only [decide_eq_true_eq, List.mem_map, not_exists, not_and]

/-- A node is updated by what is filed under its id. -/
theorem shown_applyUpdates (id : κ) : ∀ (updates : OrderedMap κ Data)
    (nodes : List (WarRoomNode κ)),
      shown (applyUpdates updates nodes).1 id
        = (shown nodes id).map (applyKnown (updates.get? id).join)
  | updates, [] => rfl
  | updates, node :: nodes => by
    have hdelete := shown_applyUpdates id (updates.delete node.id) nodes
    have hkeep := shown_applyUpdates id updates nodes
    rw [applyUpdates]
    dsimp only
    split
    next htruthy =>
      rw [shown_cons, shown_cons]
      by_cases hid : node.id = id
      · rw [if_pos (show (node.update _).id = id from hid), if_pos hid, Option.map_some, ← hid,
          applyKnown, if_pos htruthy]
        rfl
      · rw [if_neg (show (node.update _).id ≠ id from hid), if_neg hid, hdelete,
          OrderedMap.get?_delete_ne updates (Ne.symm hid)]
    next hfalsy =>
      rw [shown_cons, shown_cons]
      by_cases hid : node.id = id
      · rw [if_pos hid, if_pos hid, Option.map_some, ← hid, applyKnown, if_neg hfalsy]
      · rw [if_neg hid, if_neg hid, hkeep]

/-- The updates of unknown ids are left. -/
theorem left_applyUpdates {id : κ} : ∀ (updates : OrderedMap κ Data)
    (nodes : List (WarRoomNode κ)), id ∉ nodes.map WarRoomNode.id →
      (applyUpdates updates nodes).2.get? id = updates.get? id
  | updates, [], _ => rfl
  | updates, node :: nodes, hid => by
    rw [List.map_cons, List.mem_cons, not_or] at hid
    have hdelete := left_applyUpdates (updates.delete node.id) nodes hid.2
    have hkeep := left_applyUpdates updates nodes hid.2
    rw [applyUpdates]
    dsimp only
    split
    next => rw [hdelete, OrderedMap.get?_delete_ne updates hid.1]
    next => exact hkeep

omit [DecidableEq κ] in
theorem shown_newNode {id : κ} {t : Data} {node : WarRoomNode κ}
    (hnode : newNode id t = some node) :
    node.id = id ∧ applyNew t = some (node.status, node.telemetry) := by
  unfold newNode at hnode
  unfold applyNew
  split at hnode
  next => cases hnode
  next hnullish =>
    obtain rfl := Option.some.inj hnode
    exact ⟨rfl, if_neg hnullish⟩

omit [DecidableEq κ] in
/-- To ask a new node for its label throws exactly if it is `undefined` or `null`. -/
theorem newNode_none_iff {id : κ} {t : Data} : newNode id t = none ↔ t.nullish = true := by
  unfold newNode
  split
  next hnullish => exact iff_of_true rfl hnullish
  next hnullish => exact iff_of_false (fun h => by cases h) hnullish

theorem addNodes_none_iff (known : List κ) : ∀ (updates : List (κ × Data))
    (nodes : List (WarRoomNode κ)),
      addNodes known updates nodes = none ↔
        ∃ e ∈ updates, e.1 ∉ known ∧ Data.nullish e.2 = true
  | [], nodes => by
    refine iff_of_false (fun h => by cases h) ?_
    intro hgiven
    obtain ⟨e, he, -⟩ := hgiven
    exact absurd he List.not_mem_nil
  | (id, t) :: updates, nodes => by
    rw [addNodes, List.exists_mem_cons_iff]
    by_cases hknown : id ∈ known
    · rw [if_pos hknown, addNodes_none_iff known updates nodes]
      exact (or_iff_right fun h => h.1 hknown).symm
    · rw [if_neg hknown]
      cases hnode : newNode id t with
      | none => exact iff_of_true rfl (Or.inl ⟨hknown, newNode_none_iff.mp hnode⟩)
      | some node =>
        rw [Option.bind_some, addNodes_none_iff known updates (nodes ++ [node])]
        refine (or_iff_right fun h => ?_).symm
        rw [newNode_none_iff.mpr h.2] at hnode
        cases hnode

/-- A new node is made of what is left under its id. -/
theorem shown_addNodes (known : List κ) (id : κ) : ∀ (updates : List (κ × Data))
    (nodes : List (WarRoomNode κ)) {nodes' : List (WarRoomNode κ)},
      (updates.map Prod.fst).Nodup → addNodes known updates nodes = some nodes' →
        shown nodes' id =
          (shown nodes id).or (if id ∈ known then none else (getEntry id updates).bind applyNew)
  | [], nodes, nodes', _, hadd => by
    obtain rfl := Option.some.inj hadd
    rw [getEntry, Option.bind_none, ite_self, Option.or_none]
  | (id', t) :: updates, nodes, nodes', hnodup, hadd => by
    rw [List.map_cons, List.nodup_cons] at hnodup
    rw [addNodes] at hadd
    rw [getEntry]
    dsimp only at *
    by_cases hknown : id' ∈ known
    · rw [if_pos hknown] at hadd
      rw [shown_addNodes known id updates nodes hnodup.2 hadd]
      by_cases hid : id' = id
      · rw [if_pos (hid ▸ hknown), if_pos (hid ▸ hknown)]
      · rw [if_neg hid]
    · rw [if_neg hknown] at hadd
      obtain ⟨node, hnode, hadd⟩ := Option.bind_eq_some_iff.mp hadd
      obtain ⟨hnodeId, hnew⟩ := shown_newNode hnode
      rw [shown_addNodes known id updates _ hnodup.2 hadd, shown_append, shown_cons, shown_nil,
        hnodeId]
      by_cases hid : id' = id
      · have hgone : getEntry id updates = none := Js.getEntry_eq_none_iff.mpr (hid ▸ hnodup.1)
        rw [if_pos hid, if_pos hid, if_neg (hid ▸ hknown), if_neg (hid ▸ hknown), hgone,
          Option.bind_none, Option.or_none, Option.bind_some, hnew]
      · rw [if_neg hid, if_neg hid, Option.or_none]

/-- A flush throws exactly if a new node would be made of `undefined` or `null`. -/
theorem flushNodes_none_iff (nodes : List (WarRoomNode κ)) (pending : OrderedMap κ Data) :
    flushNodes nodes pending = none ↔
      ∃ id t, pending.get? id = some t ∧ shown nodes id = none ∧ t.nullish = true := by
  unfold flushNodes
  dsimp only
  rw [addNodes_none_iff]
  constructor
  · intro hgiven
    obtain ⟨⟨id, t⟩, he, hknown, hnullish⟩ := hgiven
    refine ⟨id, t, ?_, shown_eq_none_iff.mpr hknown, hnullish⟩
    rw [← left_applyUpdates pending nodes hknown]
    exact (OrderedMap.mem_entries_iff _ id t).mp he
  · intro hgiven
    obtain ⟨id, t, hget, hknown, hnullish⟩ := hgiven
    rw [shown_eq_none_iff] at hknown
    refine ⟨(id, t), (OrderedMap.mem_entries_iff _ id t).mpr ?_, hknown, hnullish⟩
    rw [left_applyUpdates pending nodes hknown]
    exact hget

/-- A flush that does not throw applies to each node what is filed under its id. -/
theorem shown_flushNodes {nodes nodes' : List (WarRoomNode κ)} {pending : OrderedMap κ Data}
    (hflush : flushNodes nodes pending = some nodes') (id : κ) :
    shown nodes' id = (pending.get? id).elim (shown nodes id) (applyOne (shown nodes id)) := by
  unfold flushNodes at hflush
  dsimp only at hflush
  rw [shown_addNodes _ id _ _ (applyUpdates pending nodes).2.nodup hflush, shown_applyUpdates]
  show _ = Option.elim (pending.get? id) _ _
  cases hshown : shown nodes id with
  | none =>
    have hknown := shown_eq_none_iff.mp hshown
    have hleft : getEntry id (applyUpdates pending nodes).2.entries = pending.get? id :=
      left_applyUpdates pending nodes hknown
    rw [Option.map_none, Option.none_or, if_neg hknown, hleft]
    cases pending.get? id with
    | none => rfl
    | some t => rfl
  | some v =>
    rw [Option.map_some, Option.some_or]
    cases pending.get? id with
    | none => rfl
    | some t => rfl

end

end Kovael.Cockpit
