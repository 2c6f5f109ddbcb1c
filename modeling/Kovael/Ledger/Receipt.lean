import Kovael.Js.JsonNesting
import Kovael.Ledger.CycleLog

/-!
# What a sealed receipt pins

A receipt holds the Merkle root of a cycle's events and their number. Two streams of a
cycle with one root and one number are the same stream: the tree binds its leaves
(`Crypto.MerkleTree.root_injective`), and the text of a leaf binds the event. The kinds
and the timestamps have no colon, and an actor with colons cannot run into the payload,
because no object of JSON ends, after a colon, in another (`text_object_inj`).

SHA-256 is injective on what is hashed for the two streams, not on all bytes: no function
with digests of 32 bytes is.
-/

namespace Kovael.Ledger

open Js (Json)
open Js.Base64 (Bytes)
open Js.Json (Held Prints)
open Crypto (MerkleTree.root MerkleTree.pairs)

/-- A stream of events of one cycle, from its first on. -/
structure Stream (number : String → String) (cycleId : String) (events : List CycleEvent) :
    Prop where
  cycle : ∀ e ∈ events, e.cycleId = cycleId
  numbered : events.map CycleEvent.seq = List.range events.length
  payload : ∀ e ∈ events, ∃ fields, e.payload = .object fields ∧ Held number (.object fields)

/-- All that is hashed for the root of the events. -/
def hashed (sha256 : Bytes → Bytes) (events : List CycleEvent) : List Bytes :=
  events.map (fun e => Js.Utf8.encode (CycleLog.leafText e)) ++
    (MerkleTree.pairs (CycleLog.combine sha256) (events.map (CycleLog.leaf sha256))).map
      fun p => p.1 ++ p.2

/-- The root of the events. -/
def rootOf (sha256 : Bytes → Bytes) (events : List CycleEvent) : String :=
  CycleLog.computeMerkleRoot sha256 (events.map (CycleLog.leaf sha256))

/-- No two of the texts have one digest. -/
def InjectiveOn (sha256 : Bytes → Bytes) (texts : List Bytes) : Prop :=
  ∀ a ∈ texts, ∀ b ∈ texts, sha256 a = sha256 b → a = b

/-! ## Texts -/

theorem colon_toString (n : Int) : ':' ∉ (toString n).toList := by
  intro h
  exact absurd (Json.all_of_isNumber (Json.isNumber_toString n) ':' h) (by decide)

theorem toString_int_inj {n m : Int} (h : (toString n).toList = (toString m).toList) : n = m := by
  have hvalue := congrArg Json.numberValue (String.toList_injective h)
  rw [Json.numberValue_toString, Json.numberValue_toString] at hvalue
  exact Rat.intCast_inj.mp (Js.Number.fin.inj hvalue)

theorem colon_kind (kind : CycleEventKind) : ':' ∉ kind.text.toList := by
  cases kind <;> decide

theorem kind_text_inj {kind kind' : CycleEventKind}
    (h : kind.text.toList = kind'.text.toList) : kind = kind' := by
  have htext := String.toList_injective h
  revert htext
  cases kind <;> cases kind' <;> decide

/-- What stands before the first colon, and what stands after it. -/
theorem first_colon_inj {xs ys rest rest' : List Char} (hxs : ':' ∉ xs) (hys : ':' ∉ ys)
    (h : xs ++ ':' :: rest = ys ++ ':' :: rest') : xs = ys ∧ rest = rest' := by
  induction xs generalizing ys with
  | nil =>
    cases ys with
    | nil => exact ⟨rfl, (List.cons.inj h).2⟩
    | cons y ys =>
      obtain ⟨rfl, -⟩ := List.cons.inj h
      exact absurd (List.mem_cons_self ..) hys
  | cons x xs ih =>
    cases ys with
    | nil =>
      obtain ⟨rfl, -⟩ := List.cons.inj h
      exact absurd (List.mem_cons_self ..) hxs
    | cons y ys =>
      obtain ⟨rfl, htail⟩ := List.cons.inj h
      obtain ⟨rfl, rfl⟩ := ih (fun hx => hxs (List.mem_cons_of_mem _ hx))
        (fun hy => hys (List.mem_cons_of_mem _ hy)) htail
      exact ⟨rfl, rfl⟩

/-- The text of an event, after its cycle and its number. -/
theorem toList_leafText (e : CycleEvent) :
    (CycleLog.leafText e).toList = (e.cycleId ++ ":" ++ toString e.seq ++ ":").toList ++
      (e.kind.text.toList ++ ':' :: ((toString e.timestamp).toList ++
        ':' :: (e.actor.toList ++ ':' :: e.payload.stringify.toList))) := by
  have hcolon : (":" : String).toList = [':'] := rfl
  rw [CycleLog.leafText]
  simp only [String.toList_append, hcolon, List.append_assoc, List.cons_append,
    List.nil_append]

/-- The text of a leaf binds the event. -/
theorem leafText_inj {number : String → String} {e e' : CycleEvent}
    {fields fields' : List (String × Json)} (hcycle : e.cycleId = e'.cycleId)
    (hseq : e.seq = e'.seq) (hpayload : e.payload = .object fields)
    (hheld : Held number (.object fields)) (hpayload' : e'.payload = .object fields')
    (hheld' : Held number (.object fields'))
    (h : CycleLog.leafText e = CycleLog.leafText e') : e = e' := by
  have htext := congrArg String.toList h
  rw [toList_leafText, toList_leafText, hcycle, hseq] at htext
  have hrest := List.append_cancel_left htext
  obtain ⟨hkind, hrest⟩ := first_colon_inj (colon_kind _) (colon_kind _) hrest
  obtain ⟨htimestamp, hrest⟩ := first_colon_inj (colon_toString _) (colon_toString _) hrest
  rw [hpayload, hpayload'] at hrest
  obtain ⟨hactor, hfields⟩ := Json.Nesting.text_object_inj hheld hheld' hrest
  obtain ⟨c, n, kind, timestamp, actor, payload⟩ := e
  obtain ⟨c', n', kind', timestamp', actor', payload'⟩ := e'
  rw [CycleEvent.mk.injEq]
  refine ⟨hcycle, hseq, kind_text_inj hkind, toString_int_inj htimestamp,
    String.toList_injective hactor, ?_⟩
  rw [show payload = _ from hpayload, show payload' = _ from hpayload', hfields]

/-! ## Roots -/

theorem hexDigit_inj : ∀ n < 16, ∀ m < 16, Json.hexDigit n = Json.hexDigit m → n = m := by decide

theorem hex_inj : ∀ {a b : Bytes}, CycleLog.hex a = CycleLog.hex b → a = b := by
  intro a b h
  have hlist := congrArg String.toList h
  rw [CycleLog.hex, CycleLog.hex, String.toList_ofList, String.toList_ofList] at hlist
  clear h
  induction a generalizing b with
  | nil =>
    cases b with
    | nil => rfl
    | cons y b => simp at hlist
  | cons x a ih =>
    cases b with
    | nil => simp at hlist
    | cons y b =>
      rw [List.flatMap_cons, List.flatMap_cons] at hlist
      obtain ⟨hhigh, hlist⟩ := List.cons.inj hlist
      obtain ⟨hlow, hlist⟩ := List.cons.inj hlist
      have hx := x.toNat_lt
      have hy := y.toNat_lt
      have hhigh := hexDigit_inj _ (by omega) _ (by omega) hhigh
      have hlow := hexDigit_inj _ (by omega) _ (by omega) hlow
      have hxy : x = y := UInt8.toNat_inj.mp (by omega)
      rw [hxy, ih hlist]

/-- Roots in hexadecimal digits are equal just if the roots are. -/
theorem root_eq_of_computeMerkleRoot {sha256 : Bytes → Bytes} {xs ys : List Bytes}
    (hlen : xs.length = ys.length)
    (h : CycleLog.computeMerkleRoot sha256 xs = CycleLog.computeMerkleRoot sha256 ys) :
    MerkleTree.root (CycleLog.combine sha256) xs = MerkleTree.root (CycleLog.combine sha256) ys := by
  have hnone : MerkleTree.root (CycleLog.combine sha256) xs = none
      ↔ MerkleTree.root (CycleLog.combine sha256) ys = none := by
    rw [Crypto.MerkleTree.root_eq_none_iff, Crypto.MerkleTree.root_eq_none_iff,
      ← List.length_eq_zero_iff, ← List.length_eq_zero_iff, hlen]
  rw [CycleLog.computeMerkleRoot, CycleLog.computeMerkleRoot] at h
  cases hx : MerkleTree.root (CycleLog.combine sha256) xs with
  | none => rw [hnone.mp hx]
  | some x =>
    cases hy : MerkleTree.root (CycleLog.combine sha256) ys with
    | none =>
      rw [hnone.mpr hy] at hx
      cases hx
    | some y =>
      rw [hx, hy] at h
      rw [hex_inj h]

/-- Leaves with one root are equal, if SHA-256 is injective on the pairs of both trees. -/
theorem leaves_eq_of_root {sha256 : Bytes → Bytes} {texts xs ys : List Bytes}
    (hdigest : ∀ bytes, (sha256 bytes).length = 32) (hinj : InjectiveOn sha256 texts)
    (hxs : ∀ x ∈ xs, x.length = 32) (hys : ∀ y ∈ ys, y.length = 32)
    (hpairs : ∀ p ∈ MerkleTree.pairs (CycleLog.combine sha256) xs, p.1 ++ p.2 ∈ texts)
    (hpairs' : ∀ p ∈ MerkleTree.pairs (CycleLog.combine sha256) ys, p.1 ++ p.2 ∈ texts)
    (hlen : xs.length = ys.length)
    (hroot : CycleLog.computeMerkleRoot sha256 xs = CycleLog.computeMerkleRoot sha256 ys) :
    xs = ys := by
  have hnodes : ∀ {zs : List Bytes}, (∀ z ∈ zs, z.length = 32) →
      ∀ p ∈ MerkleTree.pairs (CycleLog.combine sha256) zs, p.1.length = 32 ∧ p.2.length = 32 :=
    fun h => Crypto.MerkleTree.pairs_forall (CycleLog.combine sha256) (fun _ _ => hdigest _) _ h
  have hroots := root_eq_of_computeMerkleRoot hlen hroot
  refine Crypto.MerkleTree.root_injective (P := fun p => p.1.length = 32 ∧ p.1 ++ p.2 ∈ texts) ?_
    xs hlen (fun p hp => ⟨(hnodes hxs p hp).1, hpairs p hp⟩)
    (fun p hp => ⟨(hnodes hys p hp).1, hpairs' p hp⟩) hroots
  intro hgiven
  obtain ⟨x, x'⟩ := hgiven
  intro hgiven'
  obtain ⟨y, y'⟩ := hgiven'
  intro hgiven''
  obtain ⟨hx, hmem⟩ := hgiven''
  intro hgiven'''
  obtain ⟨hy, hmem'⟩ := hgiven'''
  intro h
  have hconcat : x ++ x' = y ++ y' := hinj _ hmem _ hmem' h
  obtain ⟨rfl, rfl⟩ := List.append_inj hconcat (hx.trans hy.symm)
  rfl

/-- Streams with one root and one number of events are the same. -/
theorem stream_eq_of_root {number : String → String} {sha256 : Bytes → Bytes} {c : String}
    {events events' : List CycleEvent} (hdigest : ∀ bytes, (sha256 bytes).length = 32)
    (h : Stream number c events) (h' : Stream number c events')
    (hinj : InjectiveOn sha256 (hashed sha256 events ++ hashed sha256 events'))
    (hroot : rootOf sha256 events = rootOf sha256 events')
    (hcount : events.length = events'.length) : events = events' := by
  have hdigests : ∀ {es : List CycleEvent}, ∀ x ∈ es.map (CycleLog.leaf sha256), x.length = 32 := by
    intro es x hx
    obtain ⟨e, -, rfl⟩ := List.mem_map.mp hx
    exact hdigest _
  have hleaves : events.map (CycleLog.leaf sha256) = events'.map (CycleLog.leaf sha256) := by
    refine leaves_eq_of_root hdigest hinj hdigests hdigests ?_ ?_ (by simpa using hcount) hroot
    · intro p hp
      exact List.mem_append_left _ (List.mem_append_right _ (List.mem_map_of_mem hp))
    · intro p hp
      exact List.mem_append_right _ (List.mem_append_right _ (List.mem_map_of_mem hp))
  refine List.ext_getElem hcount ?_
  intro i hi hi'
  have hmem := List.getElem_mem hi
  have hmem' := List.getElem_mem hi'
  have htext : CycleLog.leafText events[i] = CycleLog.leafText events'[i] := by
    have hleaf : CycleLog.leaf sha256 events[i] = CycleLog.leaf sha256 events'[i] := by
      have hget := congrArg (fun leaves => leaves[i]?) hleaves
      simpa [List.getElem?_map, hi, hi'] using hget
    have hbytes := hinj _
      (List.mem_append_left _ (List.mem_append_left _ (List.mem_map_of_mem hmem))) _
      (List.mem_append_right _ (List.mem_append_left _ (List.mem_map_of_mem hmem'))) hleaf
    have hdecoded := congrArg Js.Utf8.decode hbytes
    rwa [Js.Utf8.decode_encode, Js.Utf8.decode_encode] at hdecoded
  have hseq : ∀ {es : List CycleEvent}, es.map CycleEvent.seq = List.range es.length →
      ∀ (hi : i < es.length), es[i].seq = i := by
    intro es hnumbered hi
    have hget := congrArg (fun seqs => seqs[i]?) hnumbered
    simpa [List.getElem?_map, List.getElem?_range, hi] using hget
  obtain ⟨fields, hpayload, hheld⟩ := h.payload _ hmem
  obtain ⟨fields', hpayload', hheld'⟩ := h'.payload _ hmem'
  exact leafText_inj ((h.cycle _ hmem).trans (h'.cycle _ hmem').symm)
    ((hseq h.numbered hi).trans (hseq h'.numbered hi').symm) hpayload hheld hpayload' hheld' htext

/-! ## Receipts -/

/-- A receipt has the root of the events that the cycle had when it was sealed, whatever
is appended later. -/
theorem rootOf_trail {env : Env} (hnumber : Prints env.number) (calls : List (Call env.number))
    (c : String) (sealedAt now : Int) (fault : Option String) (r : CycleReceipt)
    (hseal : ((CycleLog.new.after env calls).sealCycle env c sealedAt now fault).2 = .ok r)
    (calls' : List (Call env.number)) :
    rootOf env.sha256
      (((((CycleLog.new.after env calls).sealCycle env c sealedAt now fault).1.after env
        calls').trail env.number c).take r.eventCount) = r.merkleRoot := by
  obtain ⟨events, hkept⟩ : ∃ events, Kept env.number (CycleLog.new.after env calls) events :=
    ⟨_, (after_kept hnumber calls (kept_new env.number)).1⟩
  rcases seal_kept hnumber hkept c sealedAt now fault with
    ⟨err, hrun, -⟩ | ⟨log', r', e, hrun, -, hreceipt, hkept', -⟩
  · rw [hrun] at hseal
    cases hseal
  · rw [hrun] at hseal ⊢
    obtain rfl := Except.ok.inj hseal
    obtain ⟨hafter, -⟩ := after_kept hnumber calls' hkept'
    rw [receipt_kept hkept] at hreceipt
    split at hreceipt
    next => cases hreceipt
    next =>
      obtain rfl := Except.ok.inj hreceipt
      rw [hafter.trail_eq, List.append_assoc, eventsOf_append]
      exact congrArg (rootOf env.sha256) List.take_left

/-- A root and a number of events pin the stream, and a receipt holds both of the events
that its cycle had when it was sealed. -/
theorem receipt_pins_stream (env : Env) (hnumber : Prints env.number)
    (hdigest : ∀ bytes, (env.sha256 bytes).length = 32) :
    (∀ c events events', Stream env.number c events → Stream env.number c events' →
      InjectiveOn env.sha256 (hashed env.sha256 events ++ hashed env.sha256 events') →
      rootOf env.sha256 events = rootOf env.sha256 events' → events.length = events'.length →
        events = events') ∧
    ∀ (calls : List (Call env.number)) c sealedAt now fault r,
      ((CycleLog.new.after env calls).sealCycle env c sealedAt now fault).2 = .ok r →
      ∀ calls', rootOf env.sha256
        (((((CycleLog.new.after env calls).sealCycle env c sealedAt now fault).1.after env
          calls').trail env.number c).take r.eventCount) = r.merkleRoot :=
  ⟨fun _ _ _ h h' hinj hroot hcount => stream_eq_of_root hdigest h h' hinj hroot hcount,
    rootOf_trail hnumber⟩

/-- The digests of two leaves and of their pair. -/
def recordedDigest (bytes : Bytes) : Bytes :=
  if bytes = Js.Utf8.encode "c1:0:cycle_started:5:host:8080:\x7b\x7d" then
    [140, 118, 247, 197, 176, 9, 13, 183, 134, 164, 22, 195, 130, 164, 59, 79,
     242, 163, 185, 60, 0, 213, 56, 241, 9, 31, 91, 89, 168, 83, 74, 170]
  else if bytes = Js.Utf8.encode "c1:1:task_claimed:7:nyx:\x7b\x7d" then
    [108, 156, 78, 139, 5, 179, 105, 132, 237, 105, 184, 157, 7, 27, 3, 168,
     63, 66, 115, 82, 204, 125, 217, 172, 90, 99, 131, 247, 20, 28, 46, 251]
  else
    [2, 33, 30, 69, 5, 214, 245, 84, 82, 179, 152, 223, 242, 11, 38, 206,
     179, 228, 97, 56, 207, 89, 166, 228, 229, 159, 63, 148, 33, 103, 247, 175]

/-- The events of a cycle, from its table and as they were appended; and the receipt of a
cycle with the first of them. -/
theorem two_events_pinned :
    let env : Env := ⟨id, recordedDigest⟩
    let payload : Payload id := ⟨[], by decide, rfl, trivial⟩
    let events : List CycleEvent := [⟨"c1", 0, .cycleStarted, 5, "host:8080", .object []⟩,
      ⟨"c1", 1, .taskClaimed, 7, "nyx", .object []⟩]
    let events' : List CycleEvent := events.map fun e => ⟨e.cycleId, e.seq, e.kind, e.timestamp,
      e.actor, payload.value⟩
    let calls : List (Call id) := [.append "c1" .cycleStarted "host:8080" payload 5 none]
    let r : CycleReceipt := ⟨"c1", CycleLog.hex (recordedDigest
      (Js.Utf8.encode "c1:0:cycle_started:5:host:8080:\x7b\x7d")), 1, 6⟩
    events = events' ∧
      rootOf env.sha256 (((((CycleLog.new.after env calls).sealCycle env "c1" 6 6 none).1.after env
        [.rebuild]).trail id "c1").take r.eventCount) = r.merkleRoot := by
  intro env payload events events' calls r
  have hdigest : ∀ bytes, (env.sha256 bytes).length = 32 := by
    intro bytes
    show (recordedDigest bytes).length = 32
    rw [recordedDigest]
    split
    next => rfl
    split
    next => rfl
    next => rfl
  have hpins := receipt_pins_stream env Json.prints_id hdigest
  have hstream : Stream id "c1" events := by
    refine ⟨?_, rfl, ?_⟩
    · exact List.forall_mem_cons.mpr ⟨rfl, List.forall_mem_singleton.mpr rfl⟩
    · exact List.forall_mem_cons.mpr ⟨⟨[], rfl, payload.held⟩,
        List.forall_mem_singleton.mpr ⟨[], rfl, payload.held⟩⟩
  have hhashed : hashed env.sha256 events = [
      Js.Utf8.encode "c1:0:cycle_started:5:host:8080:\x7b\x7d",
      Js.Utf8.encode "c1:1:task_claimed:7:nyx:\x7b\x7d",
      env.sha256 (Js.Utf8.encode "c1:0:cycle_started:5:host:8080:\x7b\x7d") ++
        env.sha256 (Js.Utf8.encode "c1:1:task_claimed:7:nyx:\x7b\x7d")] := by
    have hpair : ∀ x y : Bytes, MerkleTree.pairs (CycleLog.combine env.sha256) [x, y] = [(x, y)] := by
      intro x y
      simp [MerkleTree.pairs, Crypto.MerkleTree.levelPairs, Crypto.MerkleTree.nextLevel]
    show _ ++ (MerkleTree.pairs _ [_, _]).map _ = _
    rw [hpair]
    rfl
  refine ⟨hpins.1 "c1" events events' hstream hstream ?_ rfl rfl,
    hpins.2 calls "c1" 6 6 none r ?_ [.rebuild]⟩
  · show InjectiveOn _ (hashed env.sha256 events ++ hashed env.sha256 events)
    rw [hhashed]
    show ∀ a ∈ _, ∀ b ∈ _, recordedDigest a = recordedDigest b → a = b
    decide +kernel
  · have hkept := (@after_kept env Json.prints_id calls _ _ (kept_new id)).1
    have hroot : CycleLog.computeMerkleRoot recordedDigest [CycleLog.leaf recordedDigest
        ⟨"c1", 0, .cycleStarted, 5, "host:8080", .object []⟩] = r.merkleRoot := by
      rw [CycleLog.computeMerkleRoot, MerkleTree.root]
      rfl
    have hreceipt : (CycleLog.new.after env calls).receipt env "c1" 6 = .ok r := by
      refine (receipt_kept hkept "c1" 6).trans ?_
      show Except.ok (CycleReceipt.mk "c1" (CycleLog.computeMerkleRoot recordedDigest _) 1 6) = _
      exact congrArg (fun root => Except.ok (CycleReceipt.mk "c1" root 1 6)) hroot
    rw [CycleLog.sealCycle, hreceipt]
    rfl

end Kovael.Ledger
