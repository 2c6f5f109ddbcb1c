import Kovael.Hub.Shared
import Kovael.Hub.Statements

/-!
# Four tables that move together

A hub that one process uses, with a fault possible at any statement of any
operation. `Change` says all that a committed operation can do to the dispatches,
the receipts and the keys of the outbox; `CrossTable` is what it preserves:

* the receipts of a request start with 'dispatch_received', end with the kind
  of its status and count its runtime attempts (`receipts`);
* a dispatch that is over has its reply in the outbox (`filed`), and no key is
  there twice (`unique`).

A row of the outbox keeps its id and its key (`KeysKept`), which makes the row of
a reply the same one forever.
-/

namespace Kovael.Hub

open Js (Number OrderedMap Json)
open Sql (Db Prog Ends)

/-! ## Receipts and keys -/

/-- The kinds of a request's receipts, in the order they were appended in. -/
def AgentHub.kindsOf (hub : AgentHub) (requestId : String) : List String :=
  (hub.receipts.values.filter fun r => r.requestId = some requestId).map ReceiptRow.kind

/-- The receipt that is written when a dispatch takes the status. -/
def AgentDispatchStatus.receiptKind : AgentDispatchStatus → String
  | .accepted => "dispatch_received"
  | .running => "runtime_started"
  | .succeeded => "runtime_succeeded"
  | .failed => "runtime_failed"

def AgentDispatchStatus.terminal : AgentDispatchStatus → Bool
  | .succeeded | .failed => true
  | .accepted | .running => false

/-- The row with the id is the reply of the request. -/
def AgentHub.ReplyRow (hub : AgentHub) (requestId id : String) : Prop :=
  ∃ reply, hub.outbox.get? id = some reply ∧ reply.dedupeKey = dedupeKey requestId

/-- One receipt more, of this request. -/
def Appended (requestId kind : String) (hub hub' : AgentHub) : Prop :=
  ∀ r, hub'.kindsOf r = hub.kindsOf r ++ if r = requestId then [kind] else []

/-- Every row keeps its id and its key. -/
def KeysKept (before after : OrderedMap String OutboxRow) : Prop :=
  ∀ id row, before.get? id = some row →
    ∃ row', after.get? id = some row' ∧ row'.dedupeKey = row.dedupeKey

/-- The same rows under the same keys. -/
def SameKeys (before after : OrderedMap String OutboxRow) : Prop :=
  ∀ id, (after.get? id).map OutboxRow.dedupeKey = (before.get? id).map OutboxRow.dedupeKey

/-- What of a dispatch the other tables depend on. -/
def DispatchRow.track (row : DispatchRow) : AgentDispatchStatus × Option String × Nat :=
  (row.status, row.replyUrl, row.runtimeAttempts)

/-! ## What an operation can do -/

/-- All that a committed operation can do to the tables. -/
inductive Change (hub hub' : AgentHub) : Prop where
  /-- no status changes and nothing is filed -/
  | noted
      (hdispatches : ∀ r, (hub'.dispatches.get? r).map DispatchRow.track
        = (hub.dispatches.get? r).map DispatchRow.track)
      (hreceipts : hub'.receipts = hub.receipts) (hkeys : SameKeys hub.outbox hub'.outbox)
  | received {requestId : String} {row : DispatchRow}
      (hnew : hub.dispatches.get? requestId = none)
      (hdispatches : hub'.dispatches = hub.dispatches.set requestId row)
      (hstatus : row.status = .accepted) (hattempts : row.runtimeAttempts = 0)
      (happended : Appended requestId "dispatch_received" hub hub')
      (houtbox : hub'.outbox = hub.outbox)
  | started {requestId : String} {row : DispatchRow} {stamp : Int}
      (hrow : hub.dispatches.get? requestId = some row)
      (hdispatches : hub'.dispatches = hub.dispatches.set requestId (row.started stamp))
      (happended : Appended requestId "runtime_started" hub hub')
      (houtbox : hub'.outbox = hub.outbox)
  | settled {requestId : String} {row row' : DispatchRow}
      (hrow : hub.dispatches.get? requestId = some row)
      (hdispatches : hub'.dispatches = hub.dispatches.set requestId row')
      (hterminal : row'.status.terminal = true) (hurl : row'.replyUrl = row.replyUrl)
      (hattempts : row'.runtimeAttempts = row.runtimeAttempts)
      (happended : Appended requestId row'.status.receiptKind hub hub')
      (houtbox : match row.replyUrl with
        | none => hub'.outbox = hub.outbox
        | some _ => ∃ reply : OutboxRow,
          reply.dedupeKey = dedupeKey requestId ∧ Filed hub.outbox hub'.outbox reply)

variable {env : HubEnv} {host : Host} {hub hub' : AgentHub}

theorem sameKeys_of_eq {before after : OrderedMap String OutboxRow} (h : after = before) :
    SameKeys before after := fun id => by rw [h]

/-- An UPDATE of one row that leaves its key alone. -/
theorem sameKeys_modify (outbox : OrderedMap String OutboxRow) (id : String)
    {f : OutboxRow → OutboxRow} (hf : ∀ row, (f row).dedupeKey = row.dedupeKey) :
    SameKeys outbox (outbox.modify id f) := by
  intro id'
  rw [OrderedMap.get?_modify]
  split
  next hid =>
    rw [hid]
    cases outbox.get? id with
    | none => rfl
    | some row => exact congrArg some (hf row)
  next => rfl

theorem SameKeys.kept {before after : OrderedMap String OutboxRow} (h : SameKeys before after) :
    KeysKept before after := by
  intro id row hrow
  have hkey := h id
  rw [hrow, Option.map_some, Option.map_eq_some_iff] at hkey
  exact hkey

theorem Filed.kept {before after : OrderedMap String OutboxRow} {reply : OutboxRow}
    (h : Filed before after reply) : KeysKept before after := by
  intro id row hrow
  rcases h with ⟨id', row', hrow', hkey, rfl⟩ | ⟨id', hfree, -, rfl⟩
  · by_cases hid : id = id'
    · rw [hid] at hrow ⊢
      rw [hrow, Option.some.injEq] at hrow'
      rw [hrow']
      exact ⟨_, OrderedMap.get?_set_self .., AgentHubStore.conflict_dedupeKey ..⟩
    · exact ⟨row, (OrderedMap.get?_set_ne _ _ hid).trans hrow, rfl⟩
  · have hid : id ≠ id' := by
      intro hid
      rw [← hid, hrow] at hfree
      exact absurd hfree (by simp)
    exact ⟨row, (OrderedMap.get?_set_ne _ _ hid).trans hrow, rfl⟩

/-- The reply is there once it is filed. -/
theorem Filed.filed {before after : OrderedMap String OutboxRow} {reply : OutboxRow}
    (h : Filed before after reply) :
    ∃ id row, after.get? id = some row ∧ row.dedupeKey = reply.dedupeKey := by
  rcases h with ⟨id, row, -, hkey, rfl⟩ | ⟨id, -, -, rfl⟩
  · exact ⟨id, _, OrderedMap.get?_set_self ..,
      (AgentHubStore.conflict_dedupeKey ..).trans hkey⟩
  · exact ⟨id, reply, OrderedMap.get?_set_self .., rfl⟩

/-- A row of the outbox after a reply was filed is an old one with its key, or
the first with the key of the reply. -/
theorem Filed.row {before after : OrderedMap String OutboxRow} {reply : OutboxRow}
    (h : Filed before after reply) :
    ∃ new, ∀ id row, after.get? id = some row →
      (∃ old, before.get? id = some old ∧ row.dedupeKey = old.dedupeKey) ∨
        (id = new ∧ row.dedupeKey = reply.dedupeKey ∧
          ∀ id' row', before.get? id' = some row' → row'.dedupeKey ≠ reply.dedupeKey) := by
  rcases h with ⟨new, row', hrow', hkey, rfl⟩ | ⟨new, -, hnone, rfl⟩
  · refine ⟨new, ?_⟩
    intro id row hrow
    rcases OrderedMap.get?_set_some hrow with ⟨rfl, rfl⟩ | ⟨-, hrow⟩
    · rw [AgentHubStore.conflict_dedupeKey]
      exact Or.inl ⟨row', hrow', rfl⟩
    · exact Or.inl ⟨row, hrow, rfl⟩
  · refine ⟨new, ?_⟩
    intro id row hrow
    rcases OrderedMap.get?_set_some hrow with ⟨hid, rfl⟩ | ⟨-, hrow⟩
    · exact Or.inr ⟨hid, rfl, hnone⟩
    · exact Or.inl ⟨row, hrow, rfl⟩

theorem appendReceipt_appended {hub₀ : AgentHub} {createdAt : Int} {id requestId kind : String}
    {payload : Json} (h : appendReceipt env createdAt id requestId kind payload hub₀ = .ok hub')
    (hbase : hub₀.receipts = hub.receipts) : Appended requestId kind hub hub' := by
  unfold appendReceipt at h
  split at h
  next => exact absurd h (by simp)
  next hid =>
    rw [Except.ok.injEq] at h
    intro r
    have hfree : hub.receipts.get? id = none := by simpa [OrderedMap.has, hbase] using hid
    rw [← h, AgentHub.kindsOf, hbase, OrderedMap.values, OrderedMap.entries_set_of_none _ _ hfree,
      List.map_append, List.filter_append, List.map_append]
    congr 1
    by_cases hr : r = requestId
    · simp [hr]
    · simp [hr, Ne.symm hr]

/-! ## What stays true -/

/-- The receipts tell how the dispatch got where it is. -/
structure Accounted (kinds : List String) (row : DispatchRow) : Prop where
  first : kinds.head? = some "dispatch_received"
  last : kinds.getLast? = some row.status.receiptKind
  attempts : row.runtimeAttempts = kinds.count "runtime_started"

theorem Accounted.append {kinds : List String} {row row' : DispatchRow} (h : Accounted kinds row)
    (hattempts : row'.runtimeAttempts
      = row.runtimeAttempts + [row'.status.receiptKind].count "runtime_started") :
    Accounted (kinds ++ [row'.status.receiptKind]) row' where
  first := by rw [List.head?_append, h.first, Option.some_or]
  last := by rw [List.getLast?_append, List.getLast?_singleton, Option.some_or]
  attempts := by rw [List.count_append, ← h.attempts, hattempts]

/-- Only what is tracked counts. -/
theorem Accounted.of_track {kinds : List String} {row row' : DispatchRow}
    (h : Accounted kinds row) (htrack : row'.track = row.track) : Accounted kinds row' := by
  simp only [DispatchRow.track, Prod.mk.injEq] at htrack
  exact ⟨h.first, htrack.1 ▸ h.last, htrack.2.2 ▸ h.attempts⟩

structure CrossTable (hub : AgentHub) : Prop where
  receipts : ∀ r row, hub.dispatches.get? r = some row → Accounted (hub.kindsOf r) row
  unknown : ∀ r, hub.dispatches.get? r = none → hub.kindsOf r = []
  filed : ∀ r row, hub.dispatches.get? r = some row → row.status.terminal = true →
    row.replyUrl ≠ none → ∃ id, hub.ReplyRow r id
  unique : ∀ id id' row row', hub.outbox.get? id = some row → hub.outbox.get? id' = some row' →
    row.dedupeKey = row'.dedupeKey → id = id'

theorem crossTable_init : CrossTable .init where
  receipts r row hrow := absurd hrow (by simp [AgentHub.init])
  unknown _ _ := rfl
  filed r row hrow := absurd hrow (by simp [AgentHub.init])
  unique id _ row _ hrow := absurd hrow (by simp [AgentHub.init])

theorem KeysKept.replyRow {requestId id : String} (h : KeysKept hub.outbox hub'.outbox)
    (hrow : hub.ReplyRow requestId id) : hub'.ReplyRow requestId id := by
  obtain ⟨reply, hreply, hkey⟩ := hrow
  obtain ⟨reply', hreply', hkey'⟩ := h id reply hreply
  exact ⟨reply', hreply', hkey'.trans hkey⟩

/-- No key is there twice, before or after. -/
theorem SameKeys.unique (h : SameKeys hub.outbox hub'.outbox) (hcross : CrossTable hub) :
    ∀ id id' row row', hub'.outbox.get? id = some row → hub'.outbox.get? id' = some row' →
      row.dedupeKey = row'.dedupeKey → id = id' := by
  have hback : ∀ id row', hub'.outbox.get? id = some row' →
      ∃ row, hub.outbox.get? id = some row ∧ row.dedupeKey = row'.dedupeKey := by
    intro id row' hrow'
    have hkey := h id
    rw [hrow', Option.map_some, eq_comm, Option.map_eq_some_iff] at hkey
    exact hkey
  intro id id' row row' hrow hrow' hkey
  obtain ⟨old, hold, hk⟩ := hback id row hrow
  obtain ⟨old', hold', hk'⟩ := hback id' row' hrow'
  exact hcross.unique id id' old old' hold hold' (by rw [hk, hk', hkey])

theorem Filed.unique {reply : OutboxRow} (h : Filed hub.outbox hub'.outbox reply)
    (hcross : CrossTable hub) :
    ∀ id id' row row', hub'.outbox.get? id = some row → hub'.outbox.get? id' = some row' →
      row.dedupeKey = row'.dedupeKey → id = id' := by
  obtain ⟨new, hrows⟩ := h.row
  intro id id' row row' hrow hrow' hkey
  rcases hrows id row hrow with ⟨old, hold, hk⟩ | ⟨rfl, hk, hnone⟩ <;>
    rcases hrows id' row' hrow' with ⟨old', hold', hk'⟩ | ⟨rfl, hk', hnone'⟩
  · exact hcross.unique id id' old old' hold hold' (by rw [← hk, ← hk', hkey])
  · exact absurd (by rw [← hk, hkey, hk']) (hnone' id old hold)
  · exact absurd (by rw [← hk', ← hkey, hk]) (hnone id' old' hold')
  · rfl

theorem Change.keysKept (h : Change hub hub') : KeysKept hub.outbox hub'.outbox := by
  cases h with
  | noted _ _ hkeys => exact hkeys.kept
  | received _ _ _ _ _ houtbox => exact (sameKeys_of_eq houtbox).kept
  | started _ _ _ houtbox => exact (sameKeys_of_eq houtbox).kept
  | @settled requestId row row' hrow hd ht hu ha happ houtbox =>
    cases hurl : row.replyUrl with
    | none =>
      rw [hurl] at houtbox
      exact (sameKeys_of_eq houtbox).kept
    | some replyUrl =>
      rw [hurl] at houtbox
      obtain ⟨reply, -, hfiled⟩ := houtbox
      exact hfiled.kept

theorem Change.unique (h : Change hub hub') (hcross : CrossTable hub) :
    ∀ id id' row row', hub'.outbox.get? id = some row → hub'.outbox.get? id' = some row' →
      row.dedupeKey = row'.dedupeKey → id = id' := by
  cases h with
  | noted _ _ hkeys => exact hkeys.unique hcross
  | received _ _ _ _ _ houtbox => exact (sameKeys_of_eq houtbox).unique hcross
  | started _ _ _ houtbox => exact (sameKeys_of_eq houtbox).unique hcross
  | @settled requestId row row' hrow hd ht hu ha happ houtbox =>
    cases hurl : row.replyUrl with
    | none =>
      rw [hurl] at houtbox
      exact (sameKeys_of_eq houtbox).unique hcross
    | some replyUrl =>
      rw [hurl] at houtbox
      obtain ⟨reply, -, hfiled⟩ := houtbox
      exact hfiled.unique hcross

/-- One row was written and one receipt appended: the accounts of the request
hold, and those of the others are what they were. -/
theorem Appended.receipts {requestId kind : String} {row' : DispatchRow}
    (h : Appended requestId kind hub hub')
    (hdispatches : hub'.dispatches = hub.dispatches.set requestId row') (hcross : CrossTable hub)
    (hrow' : Accounted (hub.kindsOf requestId ++ [kind]) row') :
    (∀ r row, hub'.dispatches.get? r = some row → Accounted (hub'.kindsOf r) row) ∧
      ∀ r, hub'.dispatches.get? r = none → hub'.kindsOf r = [] := by
  constructor
  · intro r row hrow
    rw [hdispatches] at hrow
    rw [h r]
    rcases OrderedMap.get?_set_some hrow with ⟨rfl, rfl⟩ | ⟨hr, hrow⟩
    · rw [if_pos rfl]
      exact hrow'
    · rw [if_neg hr, List.append_nil]
      exact hcross.receipts r row hrow
  · intro r hrow
    rw [hdispatches, OrderedMap.get?_set] at hrow
    split at hrow
    next => exact absurd hrow (by simp)
    next hr =>
      rw [h r, if_neg hr, List.append_nil]
      exact hcross.unknown r hrow

/-- One row was written: the dispatches that were over still have their replies. -/
theorem filed_set {requestId : String} {row' : DispatchRow}
    (hdispatches : hub'.dispatches = hub.dispatches.set requestId row')
    (hkept : KeysKept hub.outbox hub'.outbox) (hcross : CrossTable hub)
    (hrow' : row'.status.terminal = true → row'.replyUrl ≠ none →
      ∃ id, hub'.ReplyRow requestId id) :
    ∀ r row, hub'.dispatches.get? r = some row → row.status.terminal = true →
      row.replyUrl ≠ none → ∃ id, hub'.ReplyRow r id := by
  intro r row hrow hterminal hurl
  rw [hdispatches] at hrow
  rcases OrderedMap.get?_set_some hrow with ⟨rfl, rfl⟩ | ⟨-, hrow⟩
  · exact hrow' hterminal hurl
  · obtain ⟨id, hid⟩ := hcross.filed r row hrow hterminal hurl
    exact ⟨id, hkept.replyRow hid⟩

/-- A committed operation keeps the tables together. -/
theorem Change.crossTable (h : Change hub hub') (hcross : CrossTable hub) : CrossTable hub' := by
  have hunique := h.unique hcross
  have hkept := h.keysKept
  cases h with
  | noted hdispatches hreceipts hkeys =>
    have hback : ∀ r row', hub'.dispatches.get? r = some row' →
        ∃ row, hub.dispatches.get? r = some row ∧ row'.track = row.track := by
      intro r row' hrow'
      have htrack := hdispatches r
      rw [hrow', Option.map_some, eq_comm, Option.map_eq_some_iff] at htrack
      obtain ⟨row, hrow, hsame⟩ := htrack
      exact ⟨row, hrow, hsame.symm⟩
    have hkinds : ∀ r, hub'.kindsOf r = hub.kindsOf r := by
      intro r
      rw [AgentHub.kindsOf, AgentHub.kindsOf, hreceipts]
    refine ⟨?_, ?_, ?_, hunique⟩
    · intro r row' hrow'
      obtain ⟨row, hrow, htrack⟩ := hback r row' hrow'
      rw [hkinds]
      exact (hcross.receipts r row hrow).of_track htrack
    · intro r hnone
      rw [hkinds]
      apply hcross.unknown r
      have htrack := hdispatches r
      rw [hnone, Option.map_none, eq_comm, Option.map_eq_none_iff] at htrack
      exact htrack
    · intro r row' hrow' hterminal hurl
      obtain ⟨row, hrow, htrack⟩ := hback r row' hrow'
      simp only [DispatchRow.track, Prod.mk.injEq] at htrack
      obtain ⟨id, hid⟩ :=
        hcross.filed r row hrow (htrack.1 ▸ hterminal) (htrack.2.1 ▸ hurl)
      exact ⟨id, hkept.replyRow hid⟩
  | @received requestId row hnew hdispatches hstatus hattempts happended houtbox =>
    have hrow : Accounted (hub.kindsOf requestId ++ ["dispatch_received"]) row := by
      rw [hcross.unknown requestId hnew]
      refine ⟨rfl, ?_, hattempts⟩
      rw [hstatus]
      rfl
    obtain ⟨hreceipts, hunknown⟩ := happended.receipts hdispatches hcross hrow
    refine ⟨hreceipts, hunknown, filed_set hdispatches hkept hcross ?_, hunique⟩
    intro hterminal
    rw [hstatus] at hterminal
    exact absurd hterminal (by decide)
  | @started requestId row stamp hrow hdispatches happended houtbox =>
    have hrow' : Accounted (hub.kindsOf requestId ++ [(row.started stamp).status.receiptKind])
        (row.started stamp) := (hcross.receipts requestId row hrow).append rfl
    obtain ⟨hreceipts, hunknown⟩ := happended.receipts hdispatches hcross hrow'
    refine ⟨hreceipts, hunknown, filed_set hdispatches hkept hcross ?_, hunique⟩
    intro hterminal
    exact absurd hterminal (by simp [DispatchRow.started, AgentDispatchStatus.terminal])
  | @settled requestId row row' hrow hdispatches hterminal hurl hattempts happended houtbox =>
    have hnot : [row'.status.receiptKind].count "runtime_started" = 0 := by
      cases hs : row'.status <;> rw [hs] at hterminal
      · exact absurd hterminal (by decide)
      · exact absurd hterminal (by decide)
      · decide
      · decide
    have hrow' : Accounted (hub.kindsOf requestId ++ [row'.status.receiptKind]) row' :=
      (hcross.receipts requestId row hrow).append (by rw [hnot, hattempts, Nat.add_zero])
    obtain ⟨hreceipts, hunknown⟩ := happended.receipts hdispatches hcross hrow'
    refine ⟨hreceipts, hunknown, filed_set hdispatches hkept hcross ?_, hunique⟩
    intro _ hsome
    rw [hurl] at hsome
    cases hreply : row.replyUrl with
    | none => exact absurd hreply hsome
    | some replyUrl =>
      rw [hreply] at houtbox
      obtain ⟨reply, hkey, hfiled⟩ := houtbox
      obtain ⟨id, filed, hfound, hk⟩ := hfiled.filed
      exact ⟨id, filed, hfound, hk.trans hkey⟩

/-! ## The operations -/

theorem writeInboundDispatch_change {call : InboundCall}
    (h : writeInboundDispatch env host call hub = .ok hub') : Change hub hub' := by
  unfold writeInboundDispatch at h
  split at h
  next =>
    rw [Except.ok.injEq] at h
    refine .noted ?_ (h ▸ rfl) (sameKeys_of_eq (h ▸ rfl))
    intro r
    rw [← h, OrderedMap.get?_modify]
    split
    next hr =>
      rw [hr]
      cases hub.dispatches.get? call.requestId with
      | none => rfl
      | some row => rfl
    next => rfl
  next =>
    split at h
    next => exact absurd h (by simp)
    next hfree =>
      obtain ⟨hd, ho⟩ := appendReceipt_ok h
      refine .received ?_ hd rfl rfl (appendReceipt_appended h rfl) ho
      simpa [OrderedMap.has] using hfree

theorem markDispatchRunning_change {requestId : String}
    (h : markDispatchRunning env host requestId hub = .ok hub') : Change hub hub' := by
  unfold markDispatchRunning at h
  split at h
  next => exact absurd h (by simp)
  next row hrow =>
    obtain ⟨hd, ho⟩ := appendReceipt_ok h
    exact .started hrow hd (appendReceipt_appended h rfl) ho

theorem scheduleDispatchReplay_change {requestId : String} {replayAfter : Number}
    (h : scheduleDispatchReplay requestId replayAfter hub = .ok hub') : Change hub hub' := by
  obtain ⟨row, hrow, rfl⟩ := scheduleDispatchReplay_ok h
  refine .noted ?_ rfl (sameKeys_of_eq rfl)
  intro r
  rw [OrderedMap.get?_set]
  split
  next hr =>
    rw [hr, hrow]
    rfl
  next => rfl

theorem recordOutcome_change {requestId : String} {payload : DispatchRow → ReplyPayload}
    {settled : DispatchRow → DispatchRow} {receipt : Option String → Json}
    {outboxId : Option String} {status : AgentDispatchStatus}
    (h : recordOutcome env host requestId payload settled status.receiptKind receipt hub
      = .ok (hub', outboxId))
    (hstatus : ∀ row, (settled row).status = status) (hterminal : status.terminal = true)
    (hurl : ∀ row, (settled row).replyUrl = row.replyUrl)
    (hattempts : ∀ row, (settled row).runtimeAttempts = row.runtimeAttempts) :
    Change hub hub' := by
  obtain ⟨row, hrow, hdispatches, houtbox, hub₀, _, _, hreceipts, happend⟩ := recordOutcome_ok h
  have happended : Appended requestId (settled row).status.receiptKind hub hub' := by
    rw [hstatus]
    exact appendReceipt_appended happend hreceipts
  refine .settled hrow hdispatches ?_ (hurl row) (hattempts row) happended ?_
  · rw [hstatus]
    exact hterminal
  · cases hreply : row.replyUrl with
    | none =>
      rw [hreply] at houtbox
      exact houtbox
    | some replyUrl =>
      rw [hreply] at houtbox
      exact ⟨_, rfl, houtbox⟩

theorem markDispatchSucceeded_change {requestId replyContent : String} {proofFields : ProofFields}
    {outboxId : Option String}
    (h : markDispatchSucceeded env host requestId replyContent proofFields hub
      = .ok (hub', outboxId)) : Change hub hub' := by
  rw [markDispatchSucceeded,
    show "runtime_succeeded" = AgentDispatchStatus.succeeded.receiptKind from rfl] at h
  exact recordOutcome_change h (fun _ => rfl) rfl (fun _ => rfl) (fun _ => rfl)

theorem markDispatchFailed_change {requestId error : String} {proofFields : ProofFields}
    {outboxId : Option String}
    (h : markDispatchFailed env host requestId error proofFields hub = .ok (hub', outboxId)) :
    Change hub hub' := by
  rw [markDispatchFailed,
    show "runtime_failed" = AgentDispatchStatus.failed.receiptKind from rfl] at h
  exact recordOutcome_change h (fun _ => rfl) rfl (fun _ => rfl) (fun _ => rfl)

theorem claimDueOutbox_change {limit leaseMs : Number} {rows : List (String × OutboxRow)}
    (h : claimDueOutbox host limit leaseMs hub = .ok (hub', rows)) : Change hub hub' := by
  obtain ⟨hdispatches, hget, -, -, hreceipts⟩ := claimDueOutbox_ok h
  refine .noted (fun r => by rw [hdispatches]) hreceipts ?_
  intro id
  rw [hget]
  split
  next =>
    cases hub.outbox.get? id with
    | none => rfl
    | some row => rfl
  next => rfl

/-- An UPDATE of the outbox by id that leaves the key alone. -/
theorem outbox_change (f : OutboxRow → OutboxRow) (id : String)
    (hf : ∀ row, (f row).dedupeKey = row.dedupeKey)
    (h : hub' = { hub with outbox := hub.outbox.modify id f }) : Change hub hub' :=
  .noted (fun r => by rw [h]) (h ▸ rfl) (h ▸ sameKeys_modify hub.outbox id hf)

theorem writeOutboxSent_change {id : String} {stamp : Int}
    (h : writeOutboxSent id stamp hub = .ok hub') : Change hub hub' := by
  unfold writeOutboxSent at h
  split at h
  next => exact absurd h (by simp)
  next row hrow =>
    rw [Except.ok.injEq] at h
    have hmodify : hub' = { hub with
        outbox := hub.outbox.modify id fun row => row.acknowledged stamp } := by
      rw [← h, OrderedMap.modify, hrow]
    exact outbox_change (fun row => row.acknowledged stamp) id (fun _ => rfl) hmodify

theorem writeDeliveryFailed_change (env : HubEnv) (host : Host) (call : FailureCall)
    (hub : AgentHub) : Change hub (writeDeliveryFailed env host call hub) :=
  outbox_change (fun row => row.deliveryFailed call (env.redactSensitiveText call.error)
    (host.now 0)) call.id (fun _ => rfl) rfl

/-! ## Runs -/

/-- An operation on the tables, with what it reads from outside. -/
inductive Operation where
  | recordInboundDispatch (host : Host) (payload : Json)
  | markDispatchRunning (host : Host) (requestId : String)
  | scheduleDispatchReplay (requestId : String) (replayAfter : Number)
  | markDispatchSucceeded (host : Host) (requestId replyContent : String)
      (proofFields : ProofFields)
  | markDispatchFailed (host : Host) (requestId error : String) (proofFields : ProofFields)
  | claimDueOutbox (host : Host) (limit leaseMs : Number)
  | markOutboxSent (host : Host) (id : String)
  | markOutboxDeliveryFailed (host : Host) (id error : String) (retryAt : Option Number)
      (maxAttempts : Number)
  | pruneTerminalOutbox (beforeTimestamp : Number)
  | pruneOldReceipts (beforeTimestamp : Number)

/-- The statements of the operation; what it returns is dropped. -/
def Operation.prog (env : HubEnv) : Operation → Prog AgentHub Unit
  | .recordInboundDispatch host payload => AgentHubStore.recordInboundDispatch env host payload
  | .markDispatchRunning host requestId => AgentHubStore.markDispatchRunning env host requestId
  | .scheduleDispatchReplay requestId replayAfter =>
    AgentHubStore.scheduleDispatchReplay requestId replayAfter
  | .markDispatchSucceeded host requestId replyContent proofFields => do
    let _ ← AgentHubStore.markDispatchSucceeded env host requestId replyContent proofFields
    pure ()
  | .markDispatchFailed host requestId error proofFields => do
    let _ ← AgentHubStore.markDispatchFailed env host requestId error proofFields
    pure ()
  | .claimDueOutbox host limit leaseMs => do
    let _ ← AgentHubStore.claimDueOutbox host limit leaseMs
    pure ()
  | .markOutboxSent host id => AgentHubStore.markOutboxSent host id
  | .markOutboxDeliveryFailed host id error retryAt maxAttempts =>
    AgentHubStore.markOutboxDeliveryFailed env host id error retryAt maxAttempts
  | .pruneTerminalOutbox beforeTimestamp => AgentHubStore.pruneTerminalOutbox beforeTimestamp
  | .pruneOldReceipts beforeTimestamp => AgentHubStore.pruneOldReceipts beforeTimestamp

/-- A call of an operation, with the faults of its statements. -/
structure FaultyCall where
  operation : Operation
  faults : List (Option String)

/-- The runs of a store on a hub that was just created. -/
def storeRuns (env : HubEnv) : Lts (Db AgentHub) FaultyCall where
  init := ⟨.init, none⟩
  step db call := some ((call.operation.prog env).run call.faults db).db

/-- A prune finds nothing to delete. -/
def NothingPruned (db : Db AgentHub) (call : FaultyCall) : Prop :=
  match call.operation with
  | .pruneTerminalOutbox beforeTimestamp =>
    pruneTerminalOutbox beforeTimestamp db.committed = db.committed
  | .pruneOldReceipts beforeTimestamp =>
    pruneOldReceipts beforeTimestamp db.committed = db.committed
  | _ => True

/-- The tables are as they were, or one operation was committed. -/
def Stepped (hub hub' : AgentHub) : Prop := hub' = hub ∨ Change hub hub'

/-- An operation that is atomic and, when it commits, a change. -/
theorem ends_stepped {α : Type} {p : Prog AgentHub α} {step : Except String (AgentHub × α)}
    (h : Ends p hub (Sql.Atomic step hub))
    (hchange : ∀ hub' a, step = .ok (hub', a) → Stepped hub hub') :
    Ends p hub fun hub' _ => Stepped hub hub' := by
  refine h.mono ?_
  intro hub' result hcases
  rcases hcases with ⟨err, -, rfl⟩ | ⟨a, -, hstep⟩
  · exact Or.inl rfl
  · exact hchange hub' a hstep

/-- What a step of the other modules returned when its program did. -/
theorem map_ok {α β : Type} {x : Except String α} {f : α → AgentHub × β} {r : AgentHub × β}
    (h : x.map f = .ok r) : ∃ a, x = .ok a ∧ f a = r := by
  cases x with
  | error err => exact absurd h (by simp [Except.map])
  | ok a =>
    rw [Except.map, Except.ok.injEq] at h
    exact ⟨a, rfl, h⟩

/-- An operation that only writes. -/
theorem ends_stepped_write {p : Prog AgentHub Unit} {written : Except String AgentHub}
    (h : Ends p hub (Sql.Atomic (written.map fun hub' => (hub', ())) hub))
    (hchange : ∀ hub', written = .ok hub' → Stepped hub hub') :
    Ends p hub fun hub' _ => Stepped hub hub' := by
  refine ends_stepped h ?_
  intro hub' _ hstep
  obtain ⟨hub₁, hwritten, heq⟩ := map_ok hstep
  rw [Prod.mk.injEq] at heq
  exact heq.1 ▸ hchange hub₁ hwritten

theorem ends_stepped_bind {α β : Type} {p : Prog AgentHub α} {k : α → Prog AgentHub β}
    {step : Except String (AgentHub × α)} (h : Ends p hub (Sql.Atomic step hub))
    (hok : ∀ hub' a, step = .ok (hub', a) → Ends (k a) hub' fun hub'' _ => Stepped hub hub'') :
    Ends (p >>= k) hub fun hub' _ => Stepped hub hub' :=
  Sql.ends_bind h (fun _ => Or.inl rfl) hok

/-- Whatever faults come, an operation leaves the tables as they were or commits
a change. -/
theorem operation_ends (env : HubEnv) (op : Operation) (hub : AgentHub)
    (hprune : ∀ faults, NothingPruned ⟨hub, none⟩ ⟨op, faults⟩) :
    Ends (op.prog env) hub fun hub' _ => Stepped hub hub' := by
  cases op with
  | recordInboundDispatch host payload =>
    refine ends_stepped_write (AgentHubStore.recordInboundDispatch_ends env host payload hub) ?_
    intro hub' hwritten
    obtain ⟨call, -, hwrite⟩ := Js.bind_ok hwritten
    exact Or.inr (writeInboundDispatch_change hwrite)
  | markDispatchRunning host requestId =>
    exact ends_stepped_write (AgentHubStore.markDispatchRunning_ends env host requestId hub)
      fun hub' hwrite => Or.inr (markDispatchRunning_change hwrite)
  | scheduleDispatchReplay requestId replayAfter =>
    exact ends_stepped_write (Sql.ends_sql _ hub)
      fun hub' hwrite => Or.inr (scheduleDispatchReplay_change hwrite)
  | markDispatchSucceeded host requestId replyContent proofFields =>
    refine ends_stepped_bind
      (AgentHubStore.markDispatchSucceeded_ends env host requestId replyContent proofFields hub) ?_
    intro hub' outboxId h
    exact Sql.ends_done (Or.inr (markDispatchSucceeded_change h))
  | markDispatchFailed host requestId error proofFields =>
    refine ends_stepped_bind
      (AgentHubStore.markDispatchFailed_ends env host requestId error proofFields hub) ?_
    intro hub' outboxId h
    exact Sql.ends_done (Or.inr (markDispatchFailed_change h))
  | claimDueOutbox host limit leaseMs =>
    refine ends_stepped_bind (AgentHubStore.claimDueOutbox_ends host limit leaseMs hub) ?_
    intro hub' rows h
    exact Sql.ends_done (Or.inr (claimDueOutbox_change h))
  | markOutboxSent host id =>
    refine ends_stepped_bind (Sql.ends_sql _ hub) ?_
    intro hub₁ stamp? h
    obtain ⟨read, -, heq⟩ := map_ok h
    rw [Prod.mk.injEq] at heq
    rw [← heq.1]
    cases stamp? with
    | none => exact Sql.ends_done (Or.inl rfl)
    | some stamp =>
      exact ends_stepped_write (Sql.ends_sql _ hub)
        fun hub' hwrite => Or.inr (writeOutboxSent_change hwrite)
  | markOutboxDeliveryFailed host id error retryAt maxAttempts =>
    refine ends_stepped_bind (Sql.ends_sql _ hub) ?_
    intro hub₁ call h
    obtain ⟨read, -, heq⟩ := map_ok h
    rw [Prod.mk.injEq] at heq
    rw [← heq.1]
    refine ends_stepped_write (Sql.ends_sql _ hub) ?_
    intro hub' hwrite
    rw [Except.ok.injEq] at hwrite
    rw [← hwrite]
    exact Or.inr (writeDeliveryFailed_change ..)
  | pruneTerminalOutbox beforeTimestamp =>
    refine ends_stepped_write (Sql.ends_sql _ hub) ?_
    intro hub' hwrite
    rw [Except.ok.injEq] at hwrite
    rw [← hwrite]
    exact Or.inl (hprune [])
  | pruneOldReceipts beforeTimestamp =>
    refine ends_stepped_write (Sql.ends_sql _ hub) ?_
    intro hub' hwrite
    rw [Except.ok.injEq] at hwrite
    rw [← hwrite]
    exact Or.inl (hprune [])

/-- One call, from outside a transaction to outside a transaction. -/
theorem storeRuns_step {db db' : Db AgentHub} {call : FaultyCall} (hidle : db.working = none)
    (hprune : NothingPruned db call) (h : (storeRuns env).step db call = some db') :
    db'.working = none ∧ Stepped db.committed db'.committed := by
  obtain ⟨hub, working⟩ := db
  obtain rfl : working = none := hidle
  rw [storeRuns, Option.some.injEq] at h
  obtain ⟨hub', faults', result, hrun, hstepped⟩ :=
    operation_ends env call.operation hub (fun _ => hprune) call.faults
  rw [hrun] at h
  rw [← h]
  exact ⟨rfl, hstepped⟩

/-- Every state of a run: no transaction is open, and the tables go together. -/
def StoreInv (db : Db AgentHub) : Prop := db.working = none ∧ CrossTable db.committed

theorem storeInv_step (db : Db AgentHub) (call : FaultyCall) (db' : Db AgentHub)
    (hinv : StoreInv db) (hprune : NothingPruned db call)
    (h : (storeRuns env).step db call = some db') : StoreInv db' := by
  obtain ⟨hidle, hstepped⟩ := storeRuns_step hinv.1 hprune h
  refine ⟨hidle, ?_⟩
  rcases hstepped with hsame | hchange
  · exact hsame ▸ hinv.2
  · exact hchange.crossTable hinv.2

theorem storeInv_exec {calls : List FaultyCall} {db db' : Db AgentHub} (hinv : StoreInv db)
    (hrun : (storeRuns env).exec db calls = some db')
    (hprune : (storeRuns env).Along NothingPruned db calls) : StoreInv db' :=
  Lts.exec_invariant (fun db call db' hi hc h => storeInv_step db call db' hi hc h) calls hinv hrun
    hprune

/-- A row of the outbox keeps its id and its key in every later state. -/
theorem keysKept_exec :
    ∀ {calls : List FaultyCall} {db db' : Db AgentHub}, StoreInv db →
      (storeRuns env).exec db calls = some db' →
      (storeRuns env).Along NothingPruned db calls →
      KeysKept db.committed.outbox db'.committed.outbox
  | [], db, db', _, hrun, _ => by
    rw [Lts.exec_nil, Option.some.injEq] at hrun
    exact (sameKeys_of_eq (hrun ▸ rfl)).kept
  | call :: calls, db, db', hinv, hrun, hprune => by
    obtain ⟨mid, hstep, hrest⟩ := Lts.exec_cons.mp hrun
    obtain ⟨hcall, hcalls⟩ := (Lts.along_cons hstep).mp hprune
    have hmid := storeInv_step db call mid hinv hcall hstep
    have hlater := keysKept_exec hmid hrest hcalls
    obtain ⟨-, hsame | hchange⟩ := storeRuns_step hinv.1 hcall hstep
    · exact hsame ▸ hlater
    · intro id row hrow
      obtain ⟨row₁, hrow₁, hkey₁⟩ := hchange.keysKept id row hrow
      obtain ⟨row₂, hrow₂, hkey₂⟩ := hlater id row₁ hrow₁
      exact ⟨row₂, hrow₂, hkey₂.trans hkey₁⟩

/-- The cross-table invariant: in every state that a store reaches without
pruning, with any faults, each dispatch has its receipts and, once it is over,
its one reply, whose row is the same in every later state. -/
theorem tables_move_together (env : HubEnv) {calls : List FaultyCall} {db : Db AgentHub}
    (hrun : (storeRuns env).exec (storeRuns env).init calls = some db)
    (hprune : (storeRuns env).Along NothingPruned (storeRuns env).init calls) :
    db.working = none ∧
      ∀ requestId row, db.committed.dispatches.get? requestId = some row →
        (db.committed.kindsOf requestId).head? = some "dispatch_received" ∧
        (db.committed.kindsOf requestId).getLast? = some row.status.receiptKind ∧
        row.runtimeAttempts = (db.committed.kindsOf requestId).count "runtime_started" ∧
        (row.status.terminal = true → row.replyUrl ≠ none →
          ∃! id, db.committed.ReplyRow requestId id) ∧
        ∀ id, db.committed.ReplyRow requestId id →
          ∀ later db', (storeRuns env).exec db later = some db' →
            (storeRuns env).Along NothingPruned db later →
            db'.committed.ReplyRow requestId id ∧
              ∀ id', db'.committed.ReplyRow requestId id' → id' = id := by
  have hinit : StoreInv (storeRuns env).init := ⟨rfl, crossTable_init⟩
  have hinv := storeInv_exec hinit hrun hprune
  have hone : ∀ {db' : Db AgentHub}, StoreInv db' → ∀ requestId id id',
      db'.committed.ReplyRow requestId id → db'.committed.ReplyRow requestId id' → id' = id := by
    intro db' hinv' requestId id id' hgiven
    obtain ⟨reply, hreply, hkey⟩ := hgiven
    intro hgiven'
    obtain ⟨reply', hreply', hkey'⟩ := hgiven'
    exact hinv'.2.unique id' id reply' reply hreply' hreply (hkey'.trans hkey.symm)
  refine ⟨hinv.1, ?_⟩
  intro requestId row hrow
  have haccount := hinv.2.receipts requestId row hrow
  refine ⟨haccount.first, haccount.last, haccount.attempts, ?_, ?_⟩
  · intro hterminal hurl
    obtain ⟨id, hid⟩ := hinv.2.filed requestId row hrow hterminal hurl
    exact ⟨id, hid, fun id' hid' => hone hinv requestId id id' hid hid'⟩
  · intro id hid later db' hlater hpruned
    have hid' := (keysKept_exec hinv hlater hpruned).replyRow hid
    refine ⟨hid', ?_⟩
    intro id' hrow'
    exact hone (storeInv_exec hinv hlater hpruned) requestId id id' hid' hrow'

/-! One dispatch whose runtime start is lost after its UPDATE and whose outcome is
lost at its COMMIT; both are tried again. -/

def faultyRun : List FaultyCall :=
  [⟨.recordInboundDispatch (hostAt 0 "r") sampleDispatch, []⟩,
   ⟨.markDispatchRunning (hostAt 10 "s") "req-1", [none, none, some "disk I/O error"]⟩,
   ⟨.markDispatchRunning (hostAt 20 "t") "req-1", []⟩,
   ⟨.markDispatchSucceeded (hostAt 30 "m") "req-1" "durable reply" ⟨none, none⟩,
     [none, none, none, none, none, none, none, some "database is locked"]⟩,
   ⟨.markDispatchSucceeded (hostAt 40 "n") "req-1" "durable reply" ⟨none, none⟩, []⟩]

/-- The hub after that run. -/
def faultyDb : Db AgentHub :=
  faultyRun.foldl (fun db call => ((call.operation.prog sampleHubEnv).run call.faults db).db)
    ⟨.init, none⟩

theorem faultyRun_together :
    (storeRuns sampleHubEnv).exec (storeRuns sampleHubEnv).init faultyRun = some faultyDb ∧
      ∃ row, faultyDb.committed.dispatches.get? "req-1" = some row ∧ row.status = .succeeded ∧
        (faultyDb.committed.kindsOf "req-1").count "runtime_started" = 1 ∧
        ∃! id, faultyDb.committed.ReplyRow "req-1" id := by
  have hrun : (storeRuns sampleHubEnv).exec (storeRuns sampleHubEnv).init faultyRun
      = some faultyDb := rfl
  have htrack : (faultyDb.committed.dispatches.get? "req-1").map DispatchRow.track
      = some (.succeeded, some "http://127.0.0.1:8080/api/v1/chairs/reply", 1) := by
    decide +kernel
  obtain ⟨row, hrow, htrack⟩ := Option.map_eq_some_iff.mp htrack
  simp only [DispatchRow.track, Prod.mk.injEq] at htrack
  obtain ⟨hstatus, hurl, hattempts⟩ := htrack
  have hnone : (storeRuns sampleHubEnv).Along NothingPruned (storeRuns sampleHubEnv).init
      faultyRun := ⟨trivial, trivial, trivial, trivial, trivial, trivial⟩
  obtain ⟨-, htables⟩ := tables_move_together sampleHubEnv hrun hnone
  obtain ⟨-, -, hcount, hreply, -⟩ := htables "req-1" row hrow
  refine ⟨hrun, row, hrow, hstatus, hcount ▸ hattempts, hreply ?_ ?_⟩
  · rw [hstatus]
    rfl
  · rw [hurl]
    exact Option.some_ne_none _

end Kovael.Hub
