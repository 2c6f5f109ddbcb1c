import Kovael.Hub.AtRest
import Kovael.Hub.ReadBack

/-!
# What the getters of a hub return

A hub with a key opens whatever it sealed. A hub without one keeps its texts as they are, and
refuses those that parse as envelopes; `sealed_fields_open_iff` says that this, and the
`__proto__` members that the copies of payloads and values have lost, is all that the getters
do not return. Replies of the outbox and receipts are flat objects of the hub's own making, so
they are never among these.
-/

namespace Kovael.Hub

open Js (Number OrderedMap Json)
open Js.Json (Held Prints Same)

section

variable {κ : Type} [DecidableEq κ] {cipher : FieldCipher κ} {env : HubEnv}
  {s s' : StoredHub κ}

/-! ## What the getters return -/

omit [DecidableEq κ] in
/-- A flat value is no envelope, so every hub opens its text. -/
theorem opens_flat {v : Json} (hv : Held cipher.number v) (h : Flat v) :
    cipher.Opens (stableStringify v) := by
  refine (FieldCipher.opens_stableStringify_iff hv).mpr (Or.inr ?_)
  cases v with
  | object fields =>
    have hunmarked : (Json.object fields).field? encryptedValueMarker = none := by
      cases hfield : (Json.object fields).field? encryptedValueMarker with
      | none => rfl
      | some w =>
        have hmem := (field?_eq_some_iff h.1).mp hfield
        exact absurd (List.mem_map_of_mem hmem) h.2.2.1
    unfold asEncryptedEnvelope
    rw [hunmarked]
    exact if_neg fun hmarked => Bool.false_ne_true hmarked.1
  | _ => exact absurd h id

omit [DecidableEq κ] in
/-- A flat value is its copy, up to the order of keys. -/
theorem same_flat {v : Json} (hv : Held cipher.number v) (h : Flat v) : Same v (stableValue v) := by
  refine (same_stableValue_iff hv).mpr ?_
  cases v with
  | object fields =>
    refine Js.Json.dropProto_object_iff.mpr ?_
    intro f hf
    refine ⟨?_, (h.2.2.2 f hf).2⟩
    intro hkey
    exact h.2.1 (hkey ▸ List.mem_map_of_mem hf)
  | _ => exact absurd h id

/-- A column whose text opens. -/
theorem decode_ok (hnumber : Prints cipher.number) (hs : Rested cipher s) {c : SealedColumn}
    {text : Option String} (hplain : s.shared.hub.plain c = text)
    (h : ∀ t ∈ text, cipher.Opens t) : s.decode cipher c = .ok text := by
  rw [decode_eq hnumber hs, hplain]
  cases text with
  | none => rfl
  | some t => exact if_pos (h t rfl)

/-- A column whose text does not open. -/
theorem decode_error (hnumber : Prints cipher.number) (hs : Rested cipher s) {c : SealedColumn}
    {text : Option String} (hplain : s.shared.hub.plain c = text)
    (h : ¬ ∀ t ∈ text, cipher.Opens t) : s.decode cipher c = .error requiresSecret := by
  rw [decode_eq hnumber hs, hplain]
  cases text with
  | none => exact absurd (fun t ht => absurd ht (by simp)) h
  | some t =>
    refine if_neg fun hopens => h fun t' ht' => ?_
    rw [Option.mem_some_iff] at ht'
    exact ht' ▸ hopens

/-- A sealed value is read as its copy. -/
theorem decode_value (hnumber : Prints cipher.number) (hs : Rested cipher s) {c : SealedColumn}
    {v : Json} (hv : Held cipher.number v)
    (hplain : s.shared.hub.plain c = some (stableStringify v))
    (h : cipher.Opens (stableStringify v)) :
    (s.decode cipher c >>= fun text => cipher.parseJson (text.getD "")) = .ok (stableValue v) := by
  have hopens : ∀ t ∈ some (stableStringify v), cipher.Opens t := by
    intro t ht
    rw [Option.mem_some_iff] at ht
    exact ht ▸ h
  rw [decode_ok hnumber hs hplain hopens]
  exact FieldCipher.parseJson_stableStringify hv

/-- The texts of the row open. -/
def DispatchRow.Opens (cipher : FieldCipher κ) (row : DispatchRow) : Prop :=
  (∀ text ∈ some row.payload.stringify, cipher.Opens text) ∧
    (∀ text ∈ row.replyContent, cipher.Opens text) ∧ ∀ text ∈ row.error, cipher.Opens text

/-- A dispatch is read as it was written, or reading it throws. -/
theorem getDispatch_cases (env : HubEnv) (hnumber : Prints cipher.number) (hs : Rested cipher s)
    {requestId : String} {row : DispatchRow} {v : Json} (hv : Held cipher.number v)
    (hrow : s.shared.hub.dispatches.get? requestId = some row)
    (hpayload : row.payload = stableValue v) :
    (row.Opens cipher ∧ ∃ read, s.getDispatch cipher env requestId = .ok (some read) ∧
      read.payload = row.payload ∧ read.replyContent = row.replyContent ∧
        read.error = row.error) ∨
      ¬ row.Opens cipher ∧ s.getDispatch cipher env requestId = .error requiresSecret := by
  have hplain : s.shared.hub.plain (.payloadJson requestId) = some row.payload.stringify :=
    congrArg (Option.map _) hrow
  have hreplyPlain : s.shared.hub.plain (.replyContent requestId) = row.replyContent :=
    congrArg (Option.bind · DispatchRow.replyContent) hrow
  have herrorPlain : s.shared.hub.plain (.error requestId) = row.error :=
    congrArg (Option.bind · DispatchRow.error) hrow
  have hparse : cipher.parseJson row.payload.stringify = .ok row.payload := by
    rw [hpayload]
    exact FieldCipher.parseJson_stableStringify hv
  unfold StoredHub.getDispatch
  rw [hrow]
  dsimp only
  unfold StoredHub.dispatchFromRow
  by_cases hopens : ∀ text ∈ some row.payload.stringify, cipher.Opens text
  · rw [decode_ok hnumber hs hplain hopens]
    by_cases hreply : ∀ text ∈ row.replyContent, cipher.Opens text
    · rw [decode_ok hnumber hs hreplyPlain hreply]
      by_cases herror : ∀ text ∈ row.error, cipher.Opens text
      · rw [decode_ok hnumber hs herrorPlain herror]
        refine Or.inl ⟨⟨hopens, hreply, herror⟩, ?_⟩
        show ∃ read, ((cipher.parseJson row.payload.stringify >>= _).map _) = _ ∧ _
        rw [hparse]
        exact ⟨_, rfl, rfl, rfl, rfl⟩
      · rw [decode_error hnumber hs herrorPlain herror]
        refine Or.inr ⟨fun h => herror h.2.2, ?_⟩
        show ((cipher.parseJson row.payload.stringify >>= _).map _) = _
        rw [hparse]
        rfl
    · rw [decode_error hnumber hs hreplyPlain hreply]
      exact Or.inr ⟨fun h => hreply h.2.1, rfl⟩
  · rw [decode_error hnumber hs hplain hopens]
    exact Or.inr ⟨fun h => hopens h.1, rfl⟩

/-- What is read of every element. -/
theorem mapM_ok {α β : Type} {f : α → Except String β} {R : α → β → Prop} {xs : List α}
    (h : ∀ x ∈ xs, ∃ y, f x = .ok y ∧ R x y) : ∃ ys, xs.mapM f = .ok ys ∧ List.Forall₂ R xs ys := by
  induction xs with
  | nil => exact ⟨[], rfl, .nil⟩
  | cons x xs ih =>
    obtain ⟨y, hy, hxy⟩ := h x (List.mem_cons_self ..)
    obtain ⟨ys, hys, hxys⟩ := ih fun x' hx' => h x' (List.mem_cons_of_mem _ hx')
    refine ⟨y :: ys, ?_, .cons hxy hxys⟩
    rw [List.mapM_cons, hy, hys]
    rfl

/-- The replies of the outbox are read by every hub. -/
theorem listOutbox_same (hnumber : Prints cipher.number) (hs : Rested cipher s)
    (status : Option AgentOutboxStatus) : ∃ rows, s.listOutbox cipher status = .ok rows ∧
      List.Forall₂ (fun e r => r.1 = e ∧ Same e.2.payload.toJson r.2)
        (s.shared.hub.outboxRows status) rows := by
  refine mapM_ok fun e he => ?_
  have hentry : e ∈ s.shared.hub.outbox.entries :=
    (List.mem_filter.mp ((List.mem_insertionSort _).mp he)).1
  have hget : s.shared.hub.outbox.get? e.1 = some e.2 := (OrderedMap.mem_entries_iff ..).mp hentry
  have hplain : s.shared.hub.plain (.outboxBody e.1 e.2.dedupeKey) =
      some (stableStringify e.2.payload.toJson) := by
    show ((s.shared.hub.outbox.get? e.1).filter _).map _ = _
    rw [hget, Option.filter_some, if_pos (decide_eq_true rfl)]
    rfl
  have hheld : Held cipher.number e.2.payload.toJson := toJson_held cipher.number e.2.payload
  have hflat := toJson_flat e.2.payload
  have hread := decode_value hnumber hs hheld hplain (opens_flat hheld hflat)
  refine ⟨(e, stableValue e.2.payload.toJson), ?_, rfl, same_flat hheld hflat⟩
  show (s.decode cipher _ >>= fun text => cipher.parseJson (text.getD "") >>= _) = _
  rw [← bind_assoc, hread]
  rfl

/-- The receipts are read by every hub. -/
theorem listReceipts_same (hnumber : Prints cipher.number) (hs : Rested cipher s)
    (hflat : FlatReceipts s.shared.hub)
    (hheld : ∀ id row, s.shared.hub.receipts.get? id = some row → Held cipher.number row.payload)
    (requestId : Option String) : ∃ rows, s.listReceipts cipher requestId = .ok rows ∧
      List.Forall₂ (fun e r => r.1 = e.1 ∧ r.2 = { e.2 with payload := r.2.payload } ∧
        Same e.2.payload r.2.payload) (s.shared.hub.receiptRows requestId) rows := by
  refine mapM_ok fun e he => ?_
  have hentry : e ∈ s.shared.hub.receipts.entries := by
    have hsorted := (List.mem_insertionSort _).mp he
    cases requestId with
    | none => exact hsorted
    | some requestId =>
      dsimp only at hsorted
      split at hsorted
      next => exact hsorted
      next => exact (List.mem_filter.mp hsorted).1
  have hget : s.shared.hub.receipts.get? e.1 = some e.2 :=
    (OrderedMap.mem_entries_iff ..).mp hentry
  have hplain : s.shared.hub.plain (.receiptBody e.1) = some (stableStringify e.2.payload) :=
    congrArg (Option.map _) hget
  have hvalue := hheld e.1 e.2 hget
  have hflat := hflat e.1 e.2 hget
  have hread := decode_value hnumber hs hvalue hplain (opens_flat hvalue hflat)
  refine ⟨(e.1, { e.2 with payload := stableValue e.2.payload }), ?_, rfl, rfl,
    same_flat hvalue hflat⟩
  show (s.decode cipher _ >>= fun text => cipher.parseJson (text.getD "") >>= _) = _
  rw [← bind_assoc, hread]
  rfl

/-! ## What is returned unchanged -/

/-- The values of the hub are ones that JavaScript can hold. -/
structure HeldValues (number : String → String) (s : StoredHub κ) : Prop where
  payloads : ∀ requestId payload, s.accepted.get? requestId = some payload → Held number payload
  receipts : ∀ id row, s.shared.hub.receipts.get? id = some row → Held number row.payload

/-- The getters return what was accepted, up to the order of keys. -/
structure Unchanged (cipher : FieldCipher κ) (env : HubEnv) (s : StoredHub κ) : Prop where
  dispatches : ∀ requestId row, s.shared.hub.dispatches.get? requestId = some row →
    ∃ payload read, s.accepted.get? requestId = some payload ∧
      s.getDispatch cipher env requestId = .ok (some read) ∧
      Same (persistableDispatchPayload payload) read.payload ∧
      read.replyContent = row.replyContent ∧ read.error = row.error
  outbox : ∀ status, ∃ rows, s.listOutbox cipher status = .ok rows ∧
    List.Forall₂ (fun e r => r.1 = e ∧ Same e.2.payload.toJson r.2)
      (s.shared.hub.outboxRows status) rows
  receipts : ∀ requestId, ∃ rows, s.listReceipts cipher requestId = .ok rows ∧
    List.Forall₂ (fun e r => r.1 = e.1 ∧ r.2 = { e.2 with payload := r.2.payload } ∧
      Same e.2.payload r.2.payload) (s.shared.hub.receiptRows requestId) rows

/-- A value that a getter returns unchanged: the hub has a key or does not take it for an
envelope, and it has no `__proto__` members. -/
def OpenValue (cipher : FieldCipher κ) (v : Json) : Prop :=
  (cipher.key.isSome ∨ asEncryptedEnvelope v = none) ∧ v.dropProto = v

/-- The dispatches were accepted with payloads and texts that are returned unchanged. -/
structure Openable (cipher : FieldCipher κ) (s : StoredHub κ) : Prop where
  payloads : ∀ requestId row payload, s.shared.hub.dispatches.get? requestId = some row →
    s.accepted.get? requestId = some payload →
    OpenValue cipher (persistableDispatchPayload payload)
  texts : ∀ requestId row text, s.shared.hub.dispatches.get? requestId = some row →
    row.replyContent = some text ∨ row.error = some text →
    cipher.key.isSome ∨ parseEncryptedEnvelope cipher.number text = none

theorem unchanged_iff (hnumber : Prints cipher.number) (hrested : Rested cipher s)
    (haccepted : Accepted s) (hflat : FlatReceipts s.shared.hub)
    (hheld : HeldValues cipher.number s) : Unchanged cipher env s ↔ Openable cipher s := by
  -- a dispatch opens, or reading it throws
  have hrow : ∀ requestId row payload, s.shared.hub.dispatches.get? requestId = some row →
      s.accepted.get? requestId = some payload →
      Held cipher.number (persistableDispatchPayload payload) ∧
        row.payload = stableValue (persistableDispatchPayload payload) := by
    intro requestId row payload hrow hgiven
    refine ⟨Held.deleteField (hheld.payloads _ _ hgiven) _, ?_⟩
    obtain ⟨payload', hgiven', hcopy⟩ := haccepted requestId row hrow
    rw [hgiven, Option.some.injEq] at hgiven'
    rw [hcopy, hgiven']
  constructor
  · intro hunchanged
    refine ⟨?_, ?_⟩
    · intro requestId row payload hget hgiven
      obtain ⟨hv, hcopy⟩ := hrow requestId row payload hget hgiven
      obtain ⟨payload', read, hgiven', hread, hsame, -, -⟩ := hunchanged.dispatches _ row hget
      rw [hgiven, Option.some.injEq] at hgiven'
      subst hgiven'
      rcases getDispatch_cases env hnumber hrested hv hget hcopy with
        ⟨hopen, read', hread', hpayload, -, -⟩ | ⟨-, hthrown⟩
      · rw [hread, Except.ok.injEq, Option.some.injEq] at hread'
        rw [hread', hpayload, hcopy] at hsame
        refine ⟨(FieldCipher.opens_stableStringify_iff hv).mp ?_,
          (same_stableValue_iff hv).mp hsame⟩
        refine hopen.1 _ ?_
        rw [hcopy]
        rfl
      · rw [hread] at hthrown
        exact absurd hthrown (by simp)
    · intro requestId row text hget htext
      obtain ⟨payload, hgiven, -⟩ := haccepted requestId row hget
      obtain ⟨hv, hcopy⟩ := hrow requestId row payload hget hgiven
      obtain ⟨-, read, -, hread, -⟩ := hunchanged.dispatches requestId row hget
      rcases getDispatch_cases env hnumber hrested hv hget hcopy with
        ⟨hopen, -⟩ | ⟨-, hthrown⟩
      · rcases htext with hreply | herror
        · exact hopen.2.1 text hreply
        · exact hopen.2.2 text herror
      · rw [hread] at hthrown
        exact absurd hthrown (by simp)
  · intro hopenable
    refine ⟨?_, listOutbox_same hnumber hrested,
      listReceipts_same hnumber hrested hflat hheld.receipts⟩
    intro requestId row hget
    obtain ⟨payload, hgiven, -⟩ := haccepted requestId row hget
    obtain ⟨hv, hcopy⟩ := hrow requestId row payload hget hgiven
    obtain ⟨hopen, hdrop⟩ := hopenable.payloads requestId row payload hget hgiven
    rcases getDispatch_cases env hnumber hrested hv hget hcopy with
      ⟨-, read, hread, hpayload, hreply, herror⟩ | ⟨hclosed, -⟩
    · refine ⟨payload, read, hgiven, hread, ?_, hreply, herror⟩
      rw [hpayload, hcopy]
      exact (same_stableValue_iff hv).mpr hdrop
    · refine absurd ⟨?_, ?_, ?_⟩ hclosed
      · intro text htext
        rw [Option.mem_some_iff, hcopy] at htext
        exact htext ▸ (FieldCipher.opens_stableStringify_iff hv).mpr hopen
      · exact fun text htext => hopenable.texts requestId row text hget (Or.inl htext)
      · exact fun text htext => hopenable.texts requestId row text hget (Or.inr htext)

/-- In every state of every run the columns are sealed, the payloads are the ones that were
accepted, and the receipts are flat. -/
theorem storedRuns_rested {es : List StoredEvent}
    (hrun : (storedRuns cipher env).exec (storedRuns cipher env).init es = some s) :
    Rested cipher s ∧ Accepted s ∧ FlatReceipts s.shared.hub := by
  refine Lts.exec_invariant
    (I := fun s => Rested cipher s ∧ Accepted s ∧ FlatReceipts s.shared.hub)
    (C := fun _ _ => True) ?_ es ?_ hrun (Lts.along_true es _)
  · intro s e t ⟨hrested, haccepted, hflat⟩ _ hst
    refine ⟨rested_step hrested hst, accepted_step haccepted hst, ?_⟩
    rcases storedStep_cases hst with rfl | ⟨hstep, -⟩
    · exact hflat
    · exact flatReceipts_step hflat hstep
  · refine ⟨?_, ?_, ?_⟩
    · intro c
      refine Or.inl ⟨?_, rfl⟩
      cases c <;> rfl
    · intro requestId row hrow
      exact absurd hrow (by simp [storedRuns, SharedHub.init, AgentHub.init])
    · intro id row hrow
      exact absurd hrow (by simp [storedRuns, SharedHub.init, AgentHub.init])

/-- The value of a write is returned at its trimmed key, until it expires. -/
theorem lasts_returns (hnumber : Prints cipher.number) {s : MemoryHub κ} {w : MemoryWrite}
    {stamp : Int} (hvalue : Held cipher.number w.value) (h : Lasts cipher w stamp s)
    (hreadable : unreadable (expiry stamp w.ttlMs) = false)
    (hlive : expired (expiry stamp w.ttlMs) s.now = false) :
    (∃ v, s.returns cipher w.kind (Js.trim w.key) s.now = .ok v ∧ Same w.value v) ↔
      OpenValue cipher w.value := by
  rcases h.row with ⟨row, hrow, hkind, hexpiry, hholds⟩ | ⟨-, -, hexpired⟩
  · have hreturns : s.returns cipher w.kind (Js.trim w.key) s.now =
        if cipher.Opens (stableStringify w.value) then .ok (stableValue w.value)
        else .error requiresSecret := by
      rw [returns_eq, hrow, ← hholds.readJson hnumber]
      unfold readRow
      dsimp only
      rw [if_neg (fun hne => hne hkind), hexpiry, hreadable, hlive, if_neg Bool.false_ne_true,
        if_neg Bool.false_ne_true]
    rw [hreturns]
    unfold OpenValue
    rw [← FieldCipher.opens_stableStringify_iff hvalue, ← same_stableValue_iff hvalue]
    constructor
    · intro hgiven
      obtain ⟨v, hv, hsame⟩ := hgiven
      split at hv
      next hopen =>
        rw [Except.ok.injEq] at hv
        exact ⟨hopen, hv ▸ hsame⟩
      next => exact absurd hv (by simp)
    · intro hgiven
      obtain ⟨hopen, hsame⟩ := hgiven
      exact ⟨_, if_pos hopen, hsame⟩
  · rw [hlive] at hexpired
    exact absurd hexpired (by simp)

/-- A field that was sealed is opened just if the hub has a key or the text does not parse as an
envelope; in every state of every run the getters return the payloads, replies, errors, outbox
bodies and receipt bodies that were accepted just if the payloads and texts of the dispatches
are such; and so does the getter of the memory or cache with a value until it expires. -/
theorem sealed_fields_open_iff (cipher : FieldCipher κ) (hnumber : Prints cipher.number) :
    (∀ calls iv value aad, (∀ key ∈ cipher.key, fieldCall key iv value aad ∈ calls) →
      (openSensitive cipher.gcm cipher.number calls cipher.key
          (sealSensitive cipher.gcm cipher.key iv value aad) aad = .ok value ↔
        cipher.key.isSome ∨ parseEncryptedEnvelope cipher.number value = none)) ∧
    (∀ env es s, (storedRuns cipher env).exec (storedRuns cipher env).init es = some s →
      HeldValues cipher.number s → (Unchanged cipher env s ↔ Openable cipher s)) ∧
    ∀ sha256 start pre post e (w : MemoryWrite) s s₁ s₂,
      (memoryRuns cipher sha256 start).exec (memoryRuns cipher sha256 start).init pre = some s →
      e.write? = some w → w.Accepted → Held cipher.number w.value →
      (memoryRuns cipher sha256 start).step s e = some s₁ →
      (memoryRuns cipher sha256 start).exec s₁ post = some s₂ → (∀ e' ∈ post, e'.Elsewhere w) →
      unreadable (expiry s.now w.ttlMs) = false →
      expired (expiry s.now w.ttlMs) s₂.now = false →
      ((∃ v, s₂.returns cipher w.kind (Js.trim w.key) s₂.now = .ok v ∧ Same w.value v) ↔
        OpenValue cipher w.value) := by
  refine ⟨?_, ?_, ?_⟩
  · intro calls iv value aad hcall
    rw [openSensitive_sealSensitive cipher.gcm hnumber hcall]
    split
    next hopens => exact ⟨fun _ => hopens, fun _ => rfl⟩
    next hrefused => exact ⟨fun h => absurd h (by simp), fun h => absurd h hrefused⟩
  · intro env es s hrun hheld
    obtain ⟨hrested, haccepted, hflat⟩ := storedRuns_rested hrun
    exact unchanged_iff hnumber hrested haccepted hflat hheld
  · intro sha256 start pre post e w s s₁ s₂ _ hwrite haccepted hvalue hstep hpost hother
    have hfiled : Lasts cipher w s.now s₁ := by
      rw [memoryRuns, Option.some.injEq] at hstep
      rcases memoryStep_write cipher sha256 s hwrite with ⟨-, hwrote⟩ | ⟨hthrown, -⟩
      · exact Lasts.of_wrote (hstep ▸ hwrote) hvalue
      · exact absurd haccepted hthrown
    exact lasts_returns hnumber hvalue (lasts_run hfiled hother hpost)

end

/-! ## A hub without a key -/

/-- An object of texts and numbers. -/
def plainObject : Json → Bool
  | .object fields =>
    let keys := fields.map Prod.fst
    decide keys.Nodup && keys.all (fun key => Js.arrayIndex? key = none && key ≠ "__proto__") &&
      fields.all fun f =>
        match f.2 with
        | .string _ => true
        | .number text => Js.Json.isNumber text.toList
        | _ => false
  | _ => false

theorem held_of_plainObject {v : Json} (h : plainObject v = true) :
    Held id v ∧ v.dropProto = v := by
  cases v with
  | object fields =>
    simp only [plainObject, Bool.and_eq_true, decide_eq_true_eq, List.all_eq_true] at h
    obtain ⟨⟨hkeys, hnames⟩, hvalues⟩ := h
    have hfields : ∀ f ∈ fields, Held id f.2 ∧ f.2.dropProto = f.2 := by
      intro f hf
      have hvalue := hvalues f hf
      cases hv : f.2 with
      | string text => exact ⟨trivial, rfl⟩
      | number text =>
        rw [hv] at hvalue
        exact ⟨⟨hvalue, rfl⟩, rfl⟩
      | _ =>
        rw [hv] at hvalue
        exact absurd hvalue (by simp)
    refine ⟨⟨hkeys, Js.Json.enumerated_of_names fun key hkey => (hnames key hkey).1,
      Js.Json.heldFields_iff.mpr fun f hf => (hfields f hf).1⟩, ?_⟩
    refine Js.Json.dropProto_object_iff.mpr fun f hf => ⟨?_, (hfields f hf).2⟩
    exact (hnames f.1 (List.mem_map_of_mem hf)).2
  | _ => exact absurd h (by simp [plainObject])

/-- What the hub has accepted are plain objects, which it does not take for envelopes. -/
def plainlyOpen (s : StoredHub Empty) : Bool :=
  (s.accepted.values.all fun payload =>
    plainObject payload && plainObject (persistableDispatchPayload payload) &&
      decide (asEncryptedEnvelope (persistableDispatchPayload payload) = none)) &&
  (s.shared.hub.receipts.values.all fun row => plainObject row.payload) &&
  s.shared.hub.dispatches.values.all fun row =>
    (row.replyContent.toList ++ row.error.toList).all fun text =>
      parseEncryptedEnvelope id text = none

theorem openable_of_plainlyOpen {s : StoredHub Empty} (h : plainlyOpen s = true) :
    HeldValues id s ∧ Openable plainCipher s := by
  simp only [plainlyOpen, Bool.and_eq_true, decide_eq_true_eq, List.all_eq_true] at h
  obtain ⟨⟨hpayloads, hreceipts⟩, htexts⟩ := h
  have hgiven : ∀ requestId payload, s.accepted.get? requestId = some payload →
      payload ∈ s.accepted.values :=
    fun requestId payload hget => (OrderedMap.mem_values_iff ..).mpr ⟨requestId, hget⟩
  refine ⟨⟨?_, ?_⟩, ⟨?_, ?_⟩⟩
  · intro requestId payload hget
    exact (held_of_plainObject (hpayloads payload (hgiven _ _ hget)).1.1).1
  · intro id row hget
    exact (held_of_plainObject (hreceipts row ((OrderedMap.mem_values_iff ..).mpr ⟨id, hget⟩))).1
  · intro requestId row payload _ hget
    obtain ⟨⟨-, hplain⟩, henvelope⟩ := hpayloads payload (hgiven _ _ hget)
    exact ⟨Or.inr henvelope, (held_of_plainObject hplain).2⟩
  · intro requestId row text hget htext
    refine Or.inr (htexts row ((OrderedMap.mem_values_iff ..).mpr ⟨requestId, hget⟩) text ?_)
    rcases htext with hreply | herror
    · exact List.mem_append_left _ (Option.mem_toList.mpr hreply)
    · exact List.mem_append_right _ (Option.mem_toList.mpr herror)

def plainly (event : Event) : StoredEvent := ⟨event, fun _ => zeroIv, fun _ => false⟩

/-- A dispatch is accepted, and succeeds with a reply. -/
def repliedWith (content : String) : List StoredEvent :=
  [plainly (.recordInboundDispatch 0 (hostAt 0 "r") sampleDispatch),
   plainly (.write 0 (hostAt 0 "r")),
   plainly (.markDispatch (hostAt 100 "m") "req-1" (.succeeded content) ⟨none, none⟩)]

/-- What a run of a hub without a key ends in. -/
def plainEnd (es : List StoredEvent) : Option (StoredHub Empty) :=
  (storedRuns plainCipher sampleHubEnv).exec (storedRuns plainCipher sampleHubEnv).init es

theorem plainEnd_repliedWith : ((plainEnd (repliedWith "durable reply")).map fun s =>
    (plainlyOpen s, (s.shared.hub.dispatches.get? "req-1").bind DispatchRow.replyContent)) =
      some (true, some "durable reply") := by
  decide +kernel

/-- A reply that is no envelope. -/
theorem plain_reply_opened :
    openSensitive plainCipher.gcm plainCipher.number [] plainCipher.key
      (sealSensitive plainCipher.gcm plainCipher.key zeroIv "durable reply" "aad") "aad" =
        .ok "durable reply" ∧
    (∃ s, plainEnd (repliedWith "durable reply") = some s ∧
      Unchanged plainCipher sampleHubEnv s) ∧
    ∃ s v, (memoryRuns plainCipher id 0).exec ⟨.empty, [], 0⟩ [memoryOf "rule" "keep"] = some s ∧
      s.returns plainCipher .memory "rule" 0 = .ok v ∧ Same (.string "keep") v := by
  obtain ⟨hfield, hruns, hmemory⟩ := sealed_fields_open_iff plainCipher Js.Json.prints_id
  refine ⟨?_, ?_, ?_⟩
  · exact (hfield [] zeroIv "durable reply" "aad" (fun key => key.elim)).mpr
      (Or.inr (by decide +kernel))
  · obtain ⟨s, hs, heq⟩ := Option.map_eq_some_iff.mp plainEnd_repliedWith
    obtain ⟨hheld, hopenable⟩ := openable_of_plainlyOpen (Prod.mk.inj heq).1
    exact ⟨s, hs, (hruns sampleHubEnv _ s hs hheld).mpr hopenable⟩
  · obtain ⟨v, hv, hsame⟩ := (hmemory id 0 [] [] (memoryOf "rule" "keep")
      ⟨.memory, "rule", .string "keep", none, zeroIv⟩ _ _ _ rfl rfl (by decide) trivial rfl rfl
      (fun e he => absurd he (by simp)) rfl rfl).mpr ⟨Or.inr rfl, rfl⟩
    exact ⟨_, v, rfl, hv, hsame⟩

/-- The hub refuses to open the row. -/
def refusesToRead (s : StoredHub Empty) : Bool :=
  match s.getDispatch plainCipher sampleHubEnv "req-1" with
  | .error err => err = requiresSecret
  | .ok _ => false

theorem plainEnd_refuses : ((plainEnd (repliedWith envelopeLike.stringify)).map fun s =>
    (refusesToRead s, (s.shared.hub.dispatches.get? "req-1").bind DispatchRow.replyContent)) =
      some (true, some envelopeLike.stringify) := by
  decide +kernel

/-- A reply that reads as an envelope is accepted and not returned: the getter throws. -/
theorem envelope_reply_refused :
    openSensitive plainCipher.gcm plainCipher.number [] plainCipher.key
      (sealSensitive plainCipher.gcm plainCipher.key zeroIv envelopeLike.stringify "aad") "aad" ≠
        .ok envelopeLike.stringify ∧
    ∃ s, plainEnd (repliedWith envelopeLike.stringify) = some s ∧
      (s.shared.hub.dispatches.get? "req-1").bind DispatchRow.replyContent =
        some envelopeLike.stringify ∧
      s.getDispatch plainCipher sampleHubEnv "req-1" = .error requiresSecret ∧
      ¬ Unchanged plainCipher sampleHubEnv s := by
  obtain ⟨s, hs, heq⟩ := Option.map_eq_some_iff.mp plainEnd_refuses
  obtain ⟨hrefuses, hreply⟩ := Prod.mk.inj heq
  have hthrown : s.getDispatch plainCipher sampleHubEnv "req-1" = .error requiresSecret := by
    unfold refusesToRead at hrefuses
    split at hrefuses
    next err herr => rw [herr, of_decide_eq_true hrefuses]
    next => exact absurd hrefuses (by simp)
  refine ⟨?_, s, hs, hreply, hthrown, ?_⟩
  · have hnumber : Prints plainCipher.number := Js.Json.prints_id
    rw [openSensitive_sealSensitive plainCipher.gcm hnumber (fun key => key.elim),
      if_neg (by decide +kernel)]
    simp
  · intro hunchanged
    obtain ⟨row, hrow, -⟩ := Option.bind_eq_some_iff.mp hreply
    obtain ⟨-, read, -, hread, -⟩ := hunchanged.dispatches "req-1" row hrow
    rw [hthrown] at hread
    exact absurd hread (by simp)

end Kovael.Hub
