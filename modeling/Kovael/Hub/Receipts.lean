import Kovael.Crypto.HashChain
import Kovael.Hub.Crypto
import Kovael.Hub.Shared

/-!
# The chain of receipts

`appendReceipt` names the hash of the receipt with the latest timestamp, and `listReceipts`
orders by timestamp; receipts are appended in the order of the table. The two agree on the
receipts of a request as long as its timestamps do not fall, and `audit_chain_iff` is about
all runs: the chain of every request is whole in every state just if no receipt is appended
with a clock that reads less than it did for an earlier one of its request.

A digest of SHA-256 is not empty and has no line break, so the hash of a receipt binds the
hash that it names.
-/

namespace Kovael.Hub

open Js (Number OrderedMap Json)
open Js.Json (Held)

variable {env : HubEnv} {s s' : SharedHub} {hub hub' : AgentHub}

/-! ## Receipts of a request -/

/-- The receipts of a request, in the order in which they were appended. -/
def AgentHub.receiptsOf (hub : AgentHub) (requestId : String) : List (String × ReceiptRow) :=
  hub.receipts.entries.filter fun e => e.2.requestId = some requestId

/-- `receiptFromRow(row)`: the payload is what its text reads back to. -/
def receiptFromRow (e : String × ReceiptRow) : String × ReceiptRow :=
  (e.1, { e.2 with payload := stableValue e.2.payload })

/-- The rows that `listReceipts(requestId)` selects: `ORDER BY created_at ASC, rowid ASC`. -/
def AgentHub.receiptRows (hub : AgentHub) (requestId : Option String) :
    List (String × ReceiptRow) :=
  let rows :=
    match requestId with
    | none => hub.receipts.entries
    | some requestId =>
      if requestId = "" then hub.receipts.entries else hub.receiptsOf requestId
  rows.insertionSort fun a b => a.2.createdAt ≤ b.2.createdAt

/-- `listReceipts(requestId)`. -/
def AgentHub.listReceipts (hub : AgentHub) (requestId : Option String) :
    List (String × ReceiptRow) :=
  (hub.receiptRows requestId).map receiptFromRow

/-- What the hash of a receipt is made of. -/
def receiptHash (env : HubEnv) (row : ReceiptRow) : String :=
  env.sha256 (row.prevHash.getD "" ++ "\n" ++ row.kind ++ "\n" ++ toString row.createdAt ++ "\n"
    ++ stableStringify row.payload)

/-- The receipts of a request are a chain, and are listed so. -/
structure AuditChain (env : HubEnv) (hub : AgentHub) (requestId : String) : Prop where
  first : ∀ r post, hub.receiptsOf requestId = r :: post → r.2.prevHash = none
  named : ∀ pre r r' post, hub.receiptsOf requestId = pre ++ r :: r' :: post →
    r'.2.prevHash = some r.2.receiptHash
  distinct : ((hub.receiptsOf requestId).map fun r => r.2.prevHash).Nodup
  recomputes : ∀ r ∈ hub.receiptsOf requestId,
    (receiptFromRow r).2.receiptHash = receiptHash env (receiptFromRow r).2
  listed : requestId ≠ "" →
    hub.listReceipts (some requestId) = (hub.receiptsOf requestId).map receiptFromRow

/-! ## Appending -/

/-- An object of values that are no objects, which is neither marked as an envelope nor has
a `__proto__`. -/
def Flat : Json → Prop
  | .object fields =>
    (fields.map Prod.fst).Nodup ∧ "__proto__" ∉ fields.map Prod.fst ∧
      encryptedValueMarker ∉ fields.map Prod.fst ∧
      ∀ f ∈ fields, stableValue f.2 = f.2 ∧ f.2.dropProto = f.2
  | _ => False

/-- A flat object has the text of its copy. -/
theorem Flat.stableStringify {v : Json} (h : Flat v) :
    Hub.stableStringify (stableValue v) = Hub.stableStringify v := by
  cases v with
  | object fields =>
    obtain ⟨hkeys, -, -, hvalues⟩ := h
    have hself : fields.map stableField = fields := by
      refine (List.map_congr_left fun f hf => ?_).trans (List.map_id fields)
      exact Prod.ext rfl (hvalues f hf).1
    have hcopied : (stableOrder fields).map stableField = stableOrder fields := by
      refine (List.map_congr_left fun f hf => ?_).trans (List.map_id _)
      exact Prod.ext rfl (hvalues f (mem_stableOrder.mp hf).1).1
    unfold Hub.stableStringify
    rw [stableValue_object, hself, stableValue_object, hcopied, stableOrder_stableOrder hkeys]
  | _ => exact absurd h id

/-- A receipt was appended to the table. -/
structure ReceiptAppended (env : HubEnv) (hub hub' : AgentHub) (requestId : String)
    (createdAt : Int) (id : String) (row : ReceiptRow) : Prop where
  request : row.requestId = some requestId
  stamp : row.createdAt = createdAt
  named : row.prevHash = (hub.lastReceipt requestId).map ReceiptRow.receiptHash
  hashed : row.receiptHash = receiptHash env row
  flat : Flat row.payload
  entries : hub'.receipts.entries = hub.receipts.entries ++ [(id, row)]

theorem lastReceipt_congr {hub₀ : AgentHub} (h : hub₀.receipts = hub.receipts)
    (requestId : String) : hub₀.lastReceipt requestId = hub.lastReceipt requestId := by
  unfold AgentHub.lastReceipt
  rw [h]

theorem appendReceipt_row {createdAt : Int} {id requestId kind : String} {payload : Json}
    {hub₀ : AgentHub}
    (h : appendReceipt env createdAt id requestId kind payload hub₀ = .ok hub')
    (hreceipts : hub₀.receipts = hub.receipts)
    (hpayload : Flat payload) :
    ∃ row, ReceiptAppended env hub hub' requestId createdAt id row := by
  unfold appendReceipt at h
  dsimp only at h
  split at h
  next => exact absurd h (by simp)
  next hfree =>
    have hnone : hub.receipts.get? id = none := by
      rw [hreceipts, OrderedMap.has] at hfree
      simpa using hfree
    rw [Except.ok.injEq] at h
    let row : ReceiptRow :=
      { requestId := some requestId
        kind
        payload
        prevHash := (hub₀.lastReceipt requestId).map ReceiptRow.receiptHash
        receiptHash := env.sha256 (((hub₀.lastReceipt requestId).map
          ReceiptRow.receiptHash).getD "" ++ "\n" ++ kind ++ "\n" ++ toString createdAt ++ "\n"
          ++ stableStringify payload)
        createdAt }
    have hentries : hub'.receipts.entries = hub.receipts.entries ++ [(id, row)] := by
      rw [← h]
      show (hub₀.receipts.set id row).entries = _
      rw [hreceipts, OrderedMap.entries_set_of_none _ _ hnone]
    refine ⟨row, rfl, rfl, ?_, rfl, hpayload, hentries⟩
    exact congrArg (Option.map ReceiptRow.receiptHash) (lastReceipt_congr hreceipts requestId)

/-- A first delivery appends a receipt, and a redelivery none. -/
theorem writeInboundDispatch_receipts {host : Host} {call : InboundCall}
    (h : writeInboundDispatch env host call hub = .ok hub') :
    (call.existing = true ∧ hub'.receipts = hub.receipts) ∨
      call.existing = false ∧
        ∃ row, ReceiptAppended env hub hub' call.requestId (host.now 0) (host.randomUUID 0)
          row := by
  unfold writeInboundDispatch at h
  split at h
  next hexisting =>
    rw [Except.ok.injEq] at h
    exact Or.inl ⟨hexisting, by rw [← h]⟩
  next hexisting =>
    split at h
    next => exact absurd h (by simp)
    next =>
      refine Or.inr ⟨by simpa using hexisting, appendReceipt_row h rfl ?_⟩
      exact ⟨by simp, by simp, by simp [encryptedValueMarker],
        by simp [stableValue, Json.dropProto]⟩

theorem markDispatchRunning_receipts {host : Host} {requestId : String}
    (h : markDispatchRunning env host requestId hub = .ok hub') :
    ∃ row, ReceiptAppended env hub hub' requestId (host.now 1) (host.randomUUID 0) row := by
  unfold markDispatchRunning at h
  split at h
  next => exact absurd h (by simp)
  next =>
    refine appendReceipt_row h rfl ?_
    exact ⟨by simp, by simp, by simp [encryptedValueMarker],
      by simp [stableValue, Json.dropProto, Json.ofInt]⟩

theorem markDispatch_receipts {host : Host} {requestId : String} {outcome : Outcome}
    {proofFields : ProofFields} {outboxId : Option String}
    (h : markDispatch env host requestId outcome proofFields hub = .ok (hub', outboxId)) :
    ∃ id row, ReceiptAppended env hub hub' requestId (host.now 1) id row := by
  cases outcome with
  | succeeded replyContent =>
    rw [markDispatch, markDispatchSucceeded] at h
    obtain ⟨-, -, -, -, hub₀, id, outboxId, hreceipts, happend⟩ := recordOutcome_ok h
    refine ⟨id, appendReceipt_row happend hreceipts ?_⟩
    refine ⟨by simp, by simp, by simp [encryptedValueMarker], ?_⟩
    cases outboxId <;> simp [stableValue, Json.dropProto, Json.ofInt, Json.ofString?]
  | failed error =>
    rw [markDispatch, markDispatchFailed] at h
    obtain ⟨-, -, -, -, hub₀, id, outboxId, hreceipts, happend⟩ := recordOutcome_ok h
    refine ⟨id, appendReceipt_row happend hreceipts ?_⟩
    refine ⟨by simp, by simp, by simp [encryptedValueMarker], ?_⟩
    cases outboxId <;> simp [stableValue, Json.dropProto, Json.ofInt, Json.ofString?]

/-! ## The order of the table and the order of time -/

/-- The order of `listReceipts`. -/
def timeLe (a b : String × ReceiptRow) : Prop := a.2.createdAt ≤ b.2.createdAt

instance : DecidableRel timeLe := fun _ _ => inferInstanceAs (Decidable (_ ≤ _))

instance : Std.Total timeLe := ⟨fun _ _ => Int.le_total _ _⟩

instance : IsTrans (String × ReceiptRow) timeLe := ⟨fun _ _ _ => Int.le_trans⟩

/-- The timestamps of the receipts do not fall. -/
def InTime (rs : List (String × ReceiptRow)) : Prop := rs.Pairwise timeLe

theorem receiptsOf_appended {requestId id : String} {createdAt : Int} {row : ReceiptRow}
    (h : ReceiptAppended env hub hub' requestId createdAt id row) (requestId' : String) :
    hub'.receiptsOf requestId' =
      if requestId' = requestId then hub.receiptsOf requestId ++ [(id, row)]
      else hub.receiptsOf requestId' := by
  unfold AgentHub.receiptsOf
  rw [h.entries, List.filter_append]
  split
  next heq =>
    rw [heq, List.filter_cons_of_pos (by simpa using h.request), List.filter_nil]
  next hne =>
    have hother : row.requestId ≠ some requestId' := by
      rw [h.request]
      intro heq
      exact hne (Option.some.inj heq).symm
    rw [List.filter_cons_of_neg (by simpa using hother), List.filter_nil, List.append_nil]

/-- The latest receipt is the last one where the timestamps do not fall. -/
theorem lastReceipt_of_inTime {requestId : String} (h : InTime (hub.receiptsOf requestId)) :
    hub.lastReceipt requestId = (hub.receiptsOf requestId).getLast?.map Prod.snd := by
  have hvalues : (hub.receipts.values.filter fun r => r.requestId = some requestId) =
      (hub.receiptsOf requestId).map Prod.snd := by
    unfold OrderedMap.values AgentHub.receiptsOf
    rw [List.filter_map]
    rfl
  unfold AgentHub.lastReceipt
  rw [hvalues]
  generalize hub.receiptsOf requestId = rs at h
  induction rs using List.reverseRecOn with
  | nil => rfl
  | append_singleton rs r ih =>
    rw [InTime, List.pairwise_append] at h
    obtain ⟨hrs, -, hlast⟩ := h
    rw [List.map_append, List.foldl_append, ih hrs, List.getLast?_concat]
    cases hfound : rs.getLast? with
    | none => rfl
    | some l =>
      have hle := hlast l (List.mem_of_getLast? hfound) r (List.mem_singleton_self r)
      exact if_pos hle

/-- The receipts are listed as they were appended just if the timestamps do not fall. -/
theorem listed_iff_inTime {requestId : String} (hne : requestId ≠ "") :
    hub.listReceipts (some requestId) = (hub.receiptsOf requestId).map receiptFromRow ↔
      InTime (hub.receiptsOf requestId) := by
  have hlist : hub.listReceipts (some requestId) =
      ((hub.receiptsOf requestId).insertionSort timeLe).map receiptFromRow := by
    unfold AgentHub.listReceipts AgentHub.receiptRows
    simp only [if_neg hne]
    rfl
  rw [hlist]
  generalize hub.receiptsOf requestId = rs
  constructor
  · intro hlisted
    have hstamps := congrArg (List.map fun r : String × ReceiptRow => r.2.createdAt) hlisted
    rw [List.map_map, List.map_map] at hstamps
    have hsorted := List.pairwise_insertionSort timeLe rs
    -- the records keep the timestamps, so the receipts are sorted as they are
    have hmap : ∀ rs : List (String × ReceiptRow), InTime rs ↔
        (rs.map ((fun r : String × ReceiptRow => r.2.createdAt) ∘ receiptFromRow)).Pairwise
          (· ≤ ·) := by
      intro rs
      rw [List.pairwise_map]
      exact Iff.rfl
    rw [hmap, ← hstamps, ← hmap]
    exact hsorted
  · intro h
    rw [List.Pairwise.insertionSort_eq h]

/-! ## The chain -/

/-- A digest names its text, is not empty and stays on its line. -/
structure Digest (sha256 : String → String) : Prop where
  injective : Function.Injective sha256
  nonempty : ∀ text, sha256 text ≠ ""
  oneLine : ∀ text, '\n' ∉ (sha256 text).toList

/-- The first line of a text. -/
theorem first_line_inj {p p' a b : String} (hp : '\n' ∉ p.toList) (hp' : '\n' ∉ p'.toList)
    (h : p ++ "\n" ++ a = p' ++ "\n" ++ b) : p = p' := by
  have htake : ∀ (cs ds : List Char), '\n' ∉ cs →
      (cs ++ '\n' :: ds).takeWhile (· ≠ '\n') = cs := by
    intro cs ds hcs
    rw [List.takeWhile_append_of_pos]
    · simp
    · intro c hc
      have hne : c ≠ '\n' := by
        intro heq
        obtain rfl := heq
        exact hcs hc
      simpa using hne
  apply String.toList_injective
  have hlist := congrArg String.toList h
  simp only [String.toList_append] at hlist
  have hline : ("\n" : String).toList = ['\n'] := rfl
  rw [hline, List.append_assoc, List.append_assoc, List.singleton_append,
    List.singleton_append] at hlist
  rw [← htake p.toList a.toList hp, hlist, htake p'.toList b.toList hp']

/-- What a receipt names, and its hash. -/
def prevOf (r : String × ReceiptRow) : Option String := r.2.prevHash

def hashOf (r : String × ReceiptRow) : String := r.2.receiptHash

/-- A receipt, read back, has the hash of what it is read back to. -/
def Recomputes (env : HubEnv) (r : String × ReceiptRow) : Prop :=
  (receiptFromRow r).2.receiptHash = receiptHash env (receiptFromRow r).2

/-- Receipts with one hash name one hash. -/
theorem prev_eq_of_hash (hdigest : Digest env.sha256) {r r' : String × ReceiptRow}
    (hr : Recomputes env r) (hr' : Recomputes env r')
    (hprev : ∀ p ∈ prevOf r, ∃ text, p = env.sha256 text)
    (hprev' : ∀ p ∈ prevOf r', ∃ text, p = env.sha256 text) (h : hashOf r = hashOf r') :
    prevOf r = prevOf r' := by
  have htext : receiptHash env (receiptFromRow r).2 = receiptHash env (receiptFromRow r').2 :=
    hr.symm.trans (h.trans hr')
  have heq := hdigest.injective htext
  have hline : ∀ p : Option String, (∀ q ∈ p, ∃ text, q = env.sha256 text) →
      '\n' ∉ (p.getD "").toList := by
    intro p hp
    cases p with
    | none => simp
    | some q =>
      obtain ⟨text, rfl⟩ := hp q rfl
      exact hdigest.oneLine text
  have hrest : ∀ r : String × ReceiptRow, (prevOf r).getD "" ++ "\n" ++ r.2.kind ++ "\n"
      ++ toString r.2.createdAt ++ "\n" ++ stableStringify (stableValue r.2.payload) =
      (prevOf r).getD "" ++ "\n" ++ (r.2.kind ++ "\n" ++ toString r.2.createdAt ++ "\n"
        ++ stableStringify (stableValue r.2.payload)) := by
    intro r
    simp only [String.append_assoc]
  have hget : (prevOf r).getD "" = (prevOf r').getD "" :=
    first_line_inj (hline _ hprev) (hline _ hprev')
      ((hrest r).symm.trans (heq.trans (hrest r')))
  cases hp : prevOf r with
  | none =>
    cases hp' : prevOf r' with
    | none => rfl
    | some q =>
      rw [hp, hp', Option.getD_none, Option.getD_some] at hget
      obtain ⟨text, rfl⟩ := hprev' q hp'
      exact absurd hget.symm (hdigest.nonempty text)
  | some q =>
    cases hp' : prevOf r' with
    | none =>
      rw [hp, hp', Option.getD_none, Option.getD_some] at hget
      obtain ⟨text, rfl⟩ := hprev q hp
      exact absurd hget (hdigest.nonempty text)
    | some q' =>
      rw [hp, hp', Option.getD_some, Option.getD_some] at hget
      rw [hget]

open Crypto.HashChain in
/-- A whole chain, said of the receipts as they were appended. -/
structure Whole (env : HubEnv) (rs : List (String × ReceiptRow)) : Prop where
  inTime : InTime rs
  linked : Linked prevOf hashOf rs
  recomputes : ∀ r ∈ rs, Recomputes env r

open Crypto.HashChain in
/-- A receipt of a chain names a digest, or nothing. -/
theorem Whole.prev_digest {rs : List (String × ReceiptRow)} (h : Whole env rs) :
    ∀ r ∈ rs, ∀ p ∈ prevOf r, ∃ text, p = env.sha256 text := by
  intro r hr p hp
  have hmem : some p ∈ rs.map prevOf := List.mem_map.mpr ⟨r, hr, hp⟩
  rw [map_prev h.linked] at hmem
  rcases List.mem_cons.mp (List.dropLast_subset _ hmem) with hnone | hhash
  · exact absurd hnone (by simp)
  · obtain ⟨r', hr', heq⟩ := List.mem_map.mp hhash
    rw [Option.some.injEq] at heq
    exact ⟨_, heq.symm.trans (h.recomputes r' hr')⟩

/-- The hashes that the receipts of a chain name are distinct. -/
theorem Whole.distinct (hdigest : Digest env.sha256) {rs : List (String × ReceiptRow)}
    (h : Whole env rs) : (rs.map prevOf).Nodup := by
  refine Crypto.HashChain.nodup_prevs h.linked ?_
  intro r hr r' hr' heq
  exact prev_eq_of_hash hdigest (h.recomputes r hr) (h.recomputes r' hr') (h.prev_digest r hr)
    (h.prev_digest r' hr') heq

open Crypto.HashChain in
theorem auditChain_iff (hdigest : Digest env.sha256) {requestId : String}
    (hne : requestId ≠ "") :
    AuditChain env hub requestId ↔ Whole env (hub.receiptsOf requestId) := by
  constructor
  · intro h
    exact ⟨(listed_iff_inTime hne).mp (h.listed hne), linkedFrom_iff.mpr ⟨h.first, h.named⟩,
      h.recomputes⟩
  · intro h
    obtain ⟨hfirst, hnamed⟩ := linkedFrom_iff.mp h.linked
    exact ⟨hfirst, hnamed, h.distinct hdigest, h.recomputes,
      fun _ => (listed_iff_inTime hne).mpr h.inTime⟩

/-- A chain stays whole just if the next receipt is not stamped before an earlier one. -/
theorem whole_append {requestId id : String} {stamp : Int} {row : ReceiptRow}
    (h : Whole env (hub.receiptsOf requestId))
    (happended : ReceiptAppended env hub hub' requestId stamp id row) :
    Whole env (hub'.receiptsOf requestId) ↔
      ∀ r ∈ hub.receiptsOf requestId, r.2.createdAt ≤ stamp := by
  rw [receiptsOf_appended happended, if_pos rfl]
  have hlater : InTime (hub.receiptsOf requestId ++ [(id, row)]) ↔
      ∀ r ∈ hub.receiptsOf requestId, r.2.createdAt ≤ stamp := by
    rw [InTime, List.pairwise_append]
    constructor
    · intro hgiven
      obtain ⟨-, -, hle⟩ := hgiven
      intro r hr
      rw [← happended.stamp]
      exact hle r hr (id, row) (List.mem_singleton_self _)
    · intro hle
      refine ⟨h.inTime, List.pairwise_singleton _ _, ?_⟩
      intro r hr r' hr'
      rw [List.mem_singleton.mp hr']
      show r.2.createdAt ≤ row.createdAt
      rw [happended.stamp]
      exact hle r hr
  rw [← hlater]
  refine ⟨Whole.inTime, fun htime => ⟨htime, ?_, ?_⟩⟩
  · refine Crypto.HashChain.linked_append.mpr ⟨h.linked, ?_⟩
    have hnamed := happended.named
    rw [lastReceipt_of_inTime h.inTime, Option.map_map] at hnamed
    exact hnamed
  · intro r hr
    rcases List.mem_append.mp hr with hr | hr
    · exact h.recomputes r hr
    · rw [List.mem_singleton.mp hr]
      show row.receiptHash = receiptHash env { row with payload := stableValue row.payload }
      rw [happended.hashed, receiptHash, receiptHash, happended.flat.stableStringify]

/-! ## Runs -/

/-- The request and the timestamp of the receipt that the writing half of an operation
appends. -/
def Call.receiptStamp (env : HubEnv) (host : Host) (hub : AgentHub) :
    Call → Option (String × Int)
  | .recordInboundDispatch call =>
    if call.existing then none
    else (writeInboundDispatch env host call hub).toOption.map fun _ =>
      (call.requestId, host.now 0)
  | _ => none

/-- The request and the timestamp of the receipt that an event appends. -/
def receiptStamp (env : HubEnv) (s : SharedHub) : Event → Option (String × Int)
  | .markDispatchRunning host requestId =>
    (markDispatchRunning env host requestId s.hub).toOption.map fun _ => (requestId, host.now 1)
  | .markDispatch host requestId outcome proofFields =>
    (markDispatch env host requestId outcome proofFields s.hub).toOption.map fun _ =>
      (requestId, host.now 1)
  | .write n host => (s.calls.get? n).bind (Call.receiptStamp env host s.hub)
  | _ => none

/-- The clock reads no less than it did for the earlier receipts of the request. The hub
takes no request without an id. -/
def ClockForward (env : HubEnv) (s : SharedHub) (e : Event) : Prop :=
  ∀ requestId stamp, receiptStamp env s e = some (requestId, stamp) → requestId ≠ "" →
    ∀ r ∈ s.hub.receiptsOf requestId, r.2.createdAt ≤ stamp

instance (env : HubEnv) (s : SharedHub) (e : Event) : Decidable (ClockForward env s e) :=
  decidable_of_iff (∀ p ∈ receiptStamp env s e, p.1 ≠ "" →
      ∀ r ∈ s.hub.receiptsOf p.1, r.2.createdAt ≤ p.2)
    ⟨fun h requestId stamp => h (requestId, stamp), fun h p => h p.1 p.2⟩

/-- The runs on one hub file in which no receipts are pruned. -/
def unprunedRuns (env : HubEnv) : Lts SharedHub Event where
  init := .init
  step s
    | .pruneOldReceipts _ => none
    | e => step env s e

theorem unprunedRuns_step {e : Event} (h : (unprunedRuns env).step s e = some s') :
    step env s e = some s' ∧ ∀ beforeTimestamp, e ≠ .pruneOldReceipts beforeTimestamp := by
  cases e with
  | pruneOldReceipts beforeTimestamp => exact absurd h (by simp [unprunedRuns])
  | _ => exact ⟨h, fun _ heq => Event.noConfusion heq⟩

/-- The writing half of an operation appends the receipt of a dispatch that is new. -/
theorem write_receipts {n : Nat} {host : Host} {call : Call} (hcall : s.calls.get? n = some call)
    (h : call.write env host { s with calls := s.calls.delete n } = s') :
    (receiptStamp env s (.write n host) = none ∧ s'.hub.receipts = s.hub.receipts) ∨
      ∃ requestId stamp id row, receiptStamp env s (.write n host) = some (requestId, stamp) ∧
        ReceiptAppended env s.hub s'.hub requestId stamp id row := by
  rw [receiptStamp, hcall, Option.bind_some]
  cases call with
  | recordInboundDispatch call =>
    simp only [Call.write] at h
    rw [Call.receiptStamp]
    cases hw : writeInboundDispatch env host call s.hub with
    | error err =>
      rw [hw, SharedHub.commit] at h
      exact Or.inl ⟨ite_self none, h ▸ rfl⟩
    | ok hub =>
      rw [hw, SharedHub.commit] at h
      subst h
      rcases writeInboundDispatch_receipts hw with ⟨hexisting, hsame⟩ | ⟨hnew, row, happended⟩
      · exact Or.inl ⟨if_pos hexisting, hsame⟩
      · refine Or.inr ⟨call.requestId, host.now 0, _, row, ?_, happended⟩
        rw [hnew]
        rfl
  | markOutboxSent worker id stamp =>
    simp only [Call.write, writeOutboxSent] at h
    refine Or.inl ⟨rfl, ?_⟩
    cases hrow : s.hub.outbox.get? id <;> rw [hrow, SharedHub.commit] at h <;> exact h ▸ rfl
  | markOutboxDeliveryFailed call =>
    simp only [Call.write, SharedHub.commit] at h
    exact Or.inl ⟨rfl, h ▸ rfl⟩

/-- An event appends the receipt that it stamps, or none. -/
theorem step_receipts {e : Event} (h : step env s e = some s')
    (hkeep : ∀ beforeTimestamp, e ≠ .pruneOldReceipts beforeTimestamp) :
    (receiptStamp env s e = none ∧ s'.hub.receipts = s.hub.receipts) ∨
      ∃ requestId stamp id row, receiptStamp env s e = some (requestId, stamp) ∧
        ReceiptAppended env s.hub s'.hub requestId stamp id row := by
  cases e with
  | recordInboundDispatch n host payload =>
    rw [step] at h
    split at h
    next => exact absurd h (by simp)
    next =>
      split at h <;> rw [Option.some.injEq] at h <;> exact Or.inl ⟨rfl, h ▸ rfl⟩
  | markDispatchRunning host requestId =>
    rw [step, Option.some.injEq] at h
    rw [receiptStamp]
    cases hm : markDispatchRunning env host requestId s.hub with
    | error err =>
      rw [hm, SharedHub.commit] at h
      exact Or.inl ⟨rfl, h ▸ rfl⟩
    | ok hub =>
      rw [hm, SharedHub.commit] at h
      subst h
      obtain ⟨row, happended⟩ := markDispatchRunning_receipts hm
      exact Or.inr ⟨requestId, host.now 1, _, row, rfl, happended⟩
  | scheduleDispatchReplay requestId replayAfter =>
    rw [step, Option.some.injEq] at h
    refine Or.inl ⟨rfl, ?_⟩
    cases hm : scheduleDispatchReplay requestId replayAfter s.hub with
    | error err =>
      rw [hm, SharedHub.commit] at h
      exact h ▸ rfl
    | ok hub =>
      rw [hm, SharedHub.commit] at h
      obtain ⟨row, -, hhub⟩ := scheduleDispatchReplay_ok hm
      rw [← h]
      show hub.receipts = s.hub.receipts
      rw [hhub]
  | markDispatch host requestId outcome proofFields =>
    rw [step, Option.some.injEq] at h
    rw [receiptStamp]
    cases hm : markDispatch env host requestId outcome proofFields s.hub with
    | error err =>
      rw [hm] at h
      exact Or.inl ⟨rfl, h ▸ rfl⟩
    | ok marked =>
      obtain ⟨hub, outboxId⟩ := marked
      rw [hm] at h
      subst h
      obtain ⟨id, row, happended⟩ := markDispatch_receipts hm
      exact Or.inr ⟨requestId, host.now 1, id, row, rfl, happended⟩
  | claimDueOutbox worker host limit leaseMs =>
    rw [step] at h
    refine Or.inl ⟨rfl, ?_⟩
    split at h <;> rw [Option.some.injEq] at h
    next => rw [← h]
    next hub rows hclaim =>
      rw [← h]
      obtain ⟨-, -, -, -, hreceipts⟩ := claimDueOutbox_ok hclaim
      exact hreceipts
  | markOutboxSent n worker host id =>
    rw [step] at h
    split at h
    next => exact absurd h (by simp)
    next =>
      split at h <;> rw [Option.some.injEq] at h <;> exact Or.inl ⟨rfl, h ▸ rfl⟩
  | markOutboxDeliveryFailed n id error retryAt maxAttempts =>
    rw [step] at h
    split at h
    next => exact absurd h (by simp)
    next =>
      split at h <;> rw [Option.some.injEq] at h <;> exact Or.inl ⟨rfl, h ▸ rfl⟩
  | write n host =>
    rw [step, Option.map_eq_some_iff] at h
    obtain ⟨call, hcall, h⟩ := h
    exact write_receipts hcall h
  | pruneTerminalOutbox beforeTimestamp =>
    rw [step, Option.some.injEq] at h
    exact Or.inl ⟨rfl, h ▸ rfl⟩
  | pruneOldReceipts beforeTimestamp => exact absurd rfl (hkeep beforeTimestamp)

/-- All chains of the hub are whole. -/
def Audited (env : HubEnv) (s : SharedHub) : Prop :=
  ∀ requestId, requestId ≠ "" → AuditChain env s.hub requestId

/-- A step keeps the chains whole just if the clock does not fall. -/
theorem audited_step_iff (hdigest : Digest env.sha256) {e : Event} (hs : Audited env s)
    (h : (unprunedRuns env).step s e = some s') : Audited env s' ↔ ClockForward env s e := by
  obtain ⟨hstep, hkeep⟩ := unprunedRuns_step h
  rcases step_receipts hstep hkeep with
    ⟨hnone, hsame⟩ | ⟨requestId, stamp, id, row, hsome, happended⟩
  · have hof : ∀ requestId, s'.hub.receiptsOf requestId = s.hub.receiptsOf requestId := by
      intro requestId
      rw [AgentHub.receiptsOf, hsame, AgentHub.receiptsOf]
    constructor
    · intro _ requestId stamp hstamp
      rw [hnone] at hstamp
      exact absurd hstamp (by simp)
    · intro _ requestId hne
      rw [auditChain_iff hdigest hne, hof, ← auditChain_iff hdigest hne]
      exact hs requestId hne
  · constructor
    · intro hs' requestId' stamp' hstamp hne
      rw [hsome, Option.some.injEq, Prod.mk.injEq] at hstamp
      obtain ⟨rfl, rfl⟩ := hstamp
      exact (whole_append ((auditChain_iff hdigest hne).mp (hs _ hne)) happended).mp
        ((auditChain_iff hdigest hne).mp (hs' _ hne))
    · intro hclock requestId' hne
      rw [auditChain_iff hdigest hne]
      by_cases hrequest : requestId' = requestId
      · subst hrequest
        exact (whole_append ((auditChain_iff hdigest hne).mp (hs _ hne)) happended).mpr
          (hclock _ _ hsome hne)
      · rw [receiptsOf_appended happended, if_neg hrequest]
        exact (auditChain_iff hdigest hne).mp (hs _ hne)

/-- In every run without pruning, the receipts of each request are a chain in every state,
the first names no hash and each later one the hash of the one appended before it, no hash is
named twice, the hashes recompute and the receipts are listed in the order in which they were
appended, if and only if no receipt is stamped before an earlier one of its request. -/
theorem audit_chain_iff (env : HubEnv) (hdigest : Digest env.sha256) (es : List Event)
    (s : SharedHub) (hrun : (unprunedRuns env).exec .init es = some s) :
    (∀ pre post t, es = pre ++ post → (unprunedRuns env).exec .init pre = some t →
      ∀ requestId, requestId ≠ "" → AuditChain env t.hub requestId) ↔
      (unprunedRuns env).Along (ClockForward env) .init es := by
  have hinit : Audited env .init := by
    intro requestId hne
    rw [auditChain_iff hdigest hne]
    exact ⟨List.Pairwise.nil, trivial, fun _ hr => absurd hr List.not_mem_nil⟩
  exact Lts.forall_exec_iff_along (fun s e t hs hst => audited_step_iff hdigest hs hst) es hinit
    hrun

/-! ## A clock that steps back -/

/-- A character without line breaks, in two. -/
def escapeLine (c : Char) : List Char := if c = '\n' then ['0', 'n'] else ['1', c]

/-- A digest that can be read back. -/
def lineDigest (text : String) : String := String.ofList ('#' :: text.toList.flatMap escapeLine)

theorem lineDigest_digest : Digest lineDigest := by
  have hinj : ∀ cs ds : List Char, cs.flatMap escapeLine = ds.flatMap escapeLine → cs = ds := by
    have hlen : ∀ c, (escapeLine c).length = 2 := by
      intro c
      unfold escapeLine
      split <;> rfl
    intro cs
    induction cs with
    | nil =>
      intro ds h
      cases ds with
      | nil => rfl
      | cons d ds =>
        have hlength := congrArg List.length h
        rw [List.flatMap_nil, List.flatMap_cons, List.length_append, hlen, List.length_nil]
          at hlength
        omega
    | cons c cs ih =>
      intro ds h
      cases ds with
      | nil =>
        have hlength := congrArg List.length h
        rw [List.flatMap_nil, List.flatMap_cons, List.length_append, hlen, List.length_nil]
          at hlength
        omega
      | cons d ds =>
        rw [List.flatMap_cons, List.flatMap_cons] at h
        obtain ⟨hc, hcs⟩ := List.append_inj h ((hlen c).trans (hlen d).symm)
        rw [ih ds hcs]
        unfold escapeLine at hc
        split at hc <;> split at hc <;> simp_all
  refine ⟨?_, ?_, ?_⟩
  · intro s t h
    have hlist := congrArg String.toList h
    rw [lineDigest, lineDigest, String.toList_ofList, String.toList_ofList, List.cons.injEq]
      at hlist
    exact String.toList_injective (hinj _ _ hlist.2)
  · intro text h
    have hlist := congrArg String.toList h
    rw [lineDigest, String.toList_ofList] at hlist
    exact absurd hlist (by simp)
  · intro text h
    rw [lineDigest, String.toList_ofList] at h
    rcases List.mem_cons.mp h with hhead | hmem
    · exact absurd hhead (by decide)
    · obtain ⟨c, -, hc⟩ := List.mem_flatMap.mp hmem
      unfold escapeLine at hc
      split at hc
      next => exact absurd hc (by decide)
      next hne =>
        rcases List.mem_pair.mp hc with hone | hself
        · exact absurd hone (by decide)
        · exact hne hself.symm

def chainEnv : HubEnv := { sampleHubEnv with sha256 := lineDigest }

/-- A request that is received and started twice, at these times. -/
def startedTwice (received first second : Int) : List Event :=
  [.recordInboundDispatch 0 (hostAt received "r") sampleDispatch, .write 0 (hostAt received "r"),
   .markDispatchRunning (hostAt first "a") "req-1",
   .markDispatchRunning (hostAt second "b") "req-1"]

/-- The clock stands still and goes on. -/
theorem chain_of_clock_forward :
    ∃ s, (unprunedRuns chainEnv).exec .init (startedTwice 10 10 11) = some s ∧
      AuditChain chainEnv s.hub "req-1" := by
  obtain ⟨s, hs⟩ := Option.isSome_iff_exists.mp (show
    ((unprunedRuns chainEnv).exec .init (startedTwice 10 10 11)).isSome by decide +kernel)
  exact ⟨s, hs, (audit_chain_iff chainEnv lineDigest_digest _ s hs).mpr (by decide +kernel) _ [] s
    (List.append_nil _).symm hs "req-1" (by decide)⟩

theorem startedTwice_back :
    (((unprunedRuns chainEnv).exec .init (startedTwice 10 5 7)).map fun s =>
      ((s.hub.listReceipts (some "req-1")).map (fun r => r.2.createdAt),
        (s.hub.receiptsOf "req-1").map (fun r => r.2.createdAt))) =
      some ([5, 7, 10], [10, 5, 7]) := by
  decide +kernel

-- no digest is computed: both name the hash that the first receipt has
theorem startedTwice_fork :
    (((unprunedRuns chainEnv).exec .init (startedTwice 10 5 7)).map fun s =>
      ((s.hub.receiptsOf "req-1").map fun r => r.2.prevHash)[1]?) =
    (((unprunedRuns chainEnv).exec .init (startedTwice 10 5 7)).map fun s =>
      ((s.hub.receiptsOf "req-1").map fun r => r.2.prevHash)[2]?) := by
  rfl

/-- The clock steps back: the receipts are listed in another order, and two of them name the
same hash. -/
theorem chain_forks :
    ∃ s, (unprunedRuns chainEnv).exec .init (startedTwice 10 5 7) = some s ∧
      (s.hub.listReceipts (some "req-1")).map (fun r => r.2.createdAt) = [5, 7, 10] ∧
      (s.hub.receiptsOf "req-1").map (fun r => r.2.createdAt) = [10, 5, 7] ∧
      ¬ ((s.hub.receiptsOf "req-1").map fun r => r.2.prevHash).Nodup := by
  obtain ⟨s, hs, heq⟩ := Option.map_eq_some_iff.mp startedTwice_back
  rw [Prod.mk.injEq] at heq
  refine ⟨s, hs, heq.1, heq.2, ?_⟩
  intro hnodup
  have hlength : ((s.hub.receiptsOf "req-1").map fun r => r.2.prevHash).length = 3 := by
    have hstamps := congrArg List.length heq.2
    rw [List.length_map] at hstamps ⊢
    exact hstamps
  have hfork := startedTwice_fork
  rw [hs, Option.map_some, Option.map_some, Option.some.injEq] at hfork
  have hsame : (1 : Nat) = 2 := (List.getElem?_inj (by omega) hnodup).mp hfork
  omega

end Kovael.Hub
