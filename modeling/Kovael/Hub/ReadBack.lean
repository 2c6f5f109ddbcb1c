import Kovael.Hub.Isolation

/-!
# Reading what was written

A write files its value under the trimmed key, for the floor of its TTL; the getters look for
the key that they are given. `reads_writes_iff` says which writes are read back, whatever
happens to other keys in between: those of trimmed keys, until the floor of the TTL, of
values without `__proto__` members that a hub without a key does not take for an envelope, with
an expiry that the driver can read.
-/

namespace Kovael.Hub

open Js (Number OrderedMap Json)
open Js.Json (Held Prints Same)
open Crypto (Call Gcm)

variable {κ : Type} [DecidableEq κ] {cipher : FieldCipher κ} {sha256 : String → String}
  {s s' : MemoryHub κ}

/-- The TTL has not elapsed. -/
def pending (ttlMs : Option Number) (elapsed : Int) : Bool :=
  ttlMs.all fun ttl => (Number.ofInt elapsed).lt ttl

/-- The getter returns what was written at `stamp`, up to the order of keys, until the TTL has
elapsed, and it does not throw. -/
def ReadsBack (cipher : FieldCipher κ) (s : MemoryHub κ) (w : MemoryWrite) (stamp : Int) : Prop :=
  (pending w.ttlMs (s.now - stamp) = true →
    ∃ v, s.returns cipher w.kind w.key s.now = .ok v ∧ Same w.value v) ∧
  ∀ err, s.returns cipher w.kind w.key s.now ≠ .error err

/-- A write at `stamp` is one that is read back at `now`. -/
structure Readable (cipher : FieldCipher κ) (w : MemoryWrite) (stamp now : Int) : Prop where
  key : pending w.ttlMs (now - stamp) = true → Js.trim w.key = w.key ∨ w.value = .null
  time : pending w.ttlMs (now - stamp) = true →
    expired (expiry stamp w.ttlMs) now = false ∨ w.value = .null
  value : pending w.ttlMs (now - stamp) = true → w.value.dropProto = w.value
  number : Js.trim w.key = w.key → unreadable (expiry stamp w.ttlMs) = false
  envelope : Js.trim w.key = w.key → expired (expiry stamp w.ttlMs) now = false →
    cipher.key.isSome ∨ asEncryptedEnvelope w.value = none

theorem same_null_iff {v : Json} : Same v .null ↔ v = .null := by
  cases v <;> simp [Same]

/-! ## While other keys are written -/

/-- The row of a write is there, or it was cached and has expired. -/
structure Lasts (cipher : FieldCipher κ) (w : MemoryWrite) (stamp : Int) (s : MemoryHub κ) :
    Prop where
  row : (∃ row, selectRow s.rows (Js.trim w.key) = some row ∧ row.kind = w.kind ∧
      row.expiresAt = expiry stamp w.ttlMs ∧ Holds cipher s.calls (Js.trim w.key) w.value row) ∨
    selectRow s.rows (Js.trim w.key) = none ∧ w.kind = .cache ∧
      expired (expiry stamp w.ttlMs) s.now = true
  stamp_le : stamp ≤ s.now

omit [DecidableEq κ] in
theorem Lasts.of_wrote {w : MemoryWrite} (h : Wrote cipher s s' w)
    (hw : Held cipher.number w.value) : Lasts cipher w s.now s' := by
  refine ⟨Or.inl ⟨w.row cipher s.now, ?_, rfl, rfl, h.holds hw⟩, ?_⟩
  · rw [h.rows, if_pos rfl]
  · rw [h.now]

/-- An event that does not write the key. -/
def MemoryEvent.Elsewhere (w : MemoryWrite) (e : MemoryEvent) : Prop :=
  ∀ w', e.write? = some w' → w'.Accepted → Js.trim w'.key ≠ Js.trim w.key

theorem lasts_step {w : MemoryWrite} {stamp : Int} (h : Lasts cipher w stamp s) {e : MemoryEvent}
    (he : e.Elsewhere w) : Lasts cipher w stamp (memoryStep cipher sha256 s e) := by
  cases hwrite : e.write? with
  | some w' =>
    rcases memoryStep_write cipher sha256 s hwrite with ⟨haccepted, hwrote⟩ | ⟨-, hsame⟩
    · have hother := (he w' hwrite haccepted).symm
      refine ⟨?_, hwrote.now ▸ h.stamp_le⟩
      rw [hwrote.rows, if_neg hother, hwrote.now, hwrote.calls]
      rcases h.row with ⟨row, hrow, hkind, hexpiry, hholds⟩ | hgone
      · exact Or.inl ⟨row, hrow, hkind, hexpiry, hholds.mono (List.subset_append_left ..)⟩
      · exact Or.inr hgone
    · rw [hsame]
      exact h
  | none =>
    have hpassed := memoryStep_passed cipher sha256 s hwrite
    refine ⟨?_, h.stamp_le.trans hpassed.now⟩
    rw [hpassed.calls]
    rcases h.row with ⟨row, hrow, hkind, hexpiry, hholds⟩ | ⟨hnone, hcache, hexpired⟩
    · rcases hpassed.rows (Js.trim w.key) with hkept | ⟨-, hgone, row', hrow', hcache, hexpired⟩
      · exact Or.inl ⟨row, hkept.trans hrow, hkind, hexpiry, hholds⟩
      · -- the row that was pruned is the row of the write
        rw [hrow, Option.some.injEq] at hrow'
        subst hrow'
        refine Or.inr ⟨hgone, hkind ▸ hcache, ?_⟩
        rw [← hexpiry]
        exact expired_later hpassed.now hexpired
    · rcases hpassed.rows (Js.trim w.key) with hkept | ⟨-, hgone, -⟩
      · exact Or.inr ⟨hkept.trans hnone, hcache, expired_later hpassed.now hexpired⟩
      · exact Or.inr ⟨hgone, hcache, expired_later hpassed.now hexpired⟩

/-- What a write files lasts while other keys are written. -/
theorem lasts_run {w : MemoryWrite} {stamp start : Int} {es : List MemoryEvent}
    (h : Lasts cipher w stamp s) (hes : ∀ e ∈ es, e.Elsewhere w)
    (hrun : (memoryRuns cipher sha256 start).exec s es = some s') : Lasts cipher w stamp s' := by
  refine Lts.exec_invariant (I := Lasts cipher w stamp) (C := fun _ e => e.Elsewhere w) ?_ es h
    hrun (Lts.along_of_forall (fun e he _ => hes e he) _)
  intro s e t hs he hst
  rw [memoryRuns, Option.some.injEq] at hst
  exact hst ▸ lasts_step hs he

/-! ## What is read back -/

/-- An entry of the cache that has expired has an expiry that can be read, if the clock reads
safe integers. -/
theorem readable_of_expired {w : MemoryWrite} (haccepted : w.Accepted) (hcache : w.kind = .cache)
    {stamp now : Int} (hstamp : -(2 ^ 53 - 1) ≤ stamp) (hnow : now ≤ 2 ^ 53 - 1)
    (hexpired : expired (expiry stamp w.ttlMs) now = true) :
    unreadable (expiry stamp w.ttlMs) = false := by
  have httl := haccepted.2 hcache
  cases hms : w.ttlMs with
  | none => rfl
  | some ttlMs =>
    rw [hms] at httl hexpired
    rw [Option.all_some, Bool.and_eq_true] at httl
    obtain ⟨q, rfl⟩ := Number.eq_fin_of_isFinite httl.1
    have hpos : ¬ q ≤ ((0 : Int) : ℚ) := by
      intro hle
      have hle' : (Number.fin q).le (.ofInt 0) = true := decide_eq_true hle
      rw [hle'] at httl
      exact absurd httl.2 (by simp)
    have hfloor : 0 ≤ ⌊q⌋ := by
      rw [Int.cast_zero] at hpos
      exact Int.floor_nonneg.mpr (le_of_lt (not_le.mp hpos))
    have hdue : stamp + ⌊q⌋ ≤ now := by
      have hle : ((stamp + ⌊q⌋ : Int) : ℚ) ≤ (now : ℚ) := of_decide_eq_true hexpired
      exact Int.cast_le.mp hle
    have hsafe : |stamp + ⌊q⌋| ≤ 2 ^ 53 - 1 := by
      rw [abs_le]
      omega
    have hcast : |((stamp + ⌊q⌋ : Int) : ℚ)| ≤ 2 ^ 53 - 1 := by
      rw [← Int.cast_abs]
      exact_mod_cast hsafe
    show (decide ((2 : ℚ) ^ 53 - 1 < |((stamp + ⌊q⌋ : Int) : ℚ)|) && _) = false
    rw [decide_eq_false (not_lt.mpr hcast), Bool.false_and]

/-- A getter that returns `null` returns a `null` that was written, and else nothing. -/
theorem readsBack_of_null {w : MemoryWrite} {stamp : Int}
    (h : s.returns cipher w.kind w.key s.now = .ok .null) :
    ReadsBack cipher s w stamp ↔
      (pending w.ttlMs (s.now - stamp) = true → w.value = .null) := by
  unfold ReadsBack
  rw [h]
  constructor
  · intro hgiven
    obtain ⟨hback, -⟩ := hgiven
    intro hpending
    obtain ⟨v, hv, hsame⟩ := hback hpending
    rw [Except.ok.injEq] at hv
    rw [← hv] at hsame
    exact same_null_iff.mp hsame
  · intro hnull
    refine ⟨fun hpending => ⟨.null, rfl, same_null_iff.mpr (hnull hpending)⟩, ?_⟩
    intro err herr
    exact absurd herr (by simp)

omit [DecidableEq κ] in
/-- An entry that is gone is read as `null`, so the write is readable if it was of `null`. -/
theorem readable_of_null {w : MemoryWrite} {stamp now : Int}
    (hnull : pending w.ttlMs (now - stamp) = true → w.value = .null)
    (hunreadable : Js.trim w.key = w.key → unreadable (expiry stamp w.ttlMs) = false)
    (hexpired : Js.trim w.key = w.key → expired (expiry stamp w.ttlMs) now = true) :
    Readable cipher w stamp now := by
  refine ⟨fun hp => Or.inr (hnull hp), fun hp => Or.inr (hnull hp), ?_, hunreadable, ?_⟩
  · intro hp
    rw [hnull hp]
    rfl
  · intro htrim hlive
    rw [hexpired htrim] at hlive
    exact absurd hlive (by simp)

omit [DecidableEq κ] in
theorem Readable.null_of_expired {w : MemoryWrite} {stamp now : Int}
    (h : Readable cipher w stamp now) (hexpired : expired (expiry stamp w.ttlMs) now = true)
    (hp : pending w.ttlMs (now - stamp) = true) : w.value = .null := by
  rcases h.time hp with hlive | hnull
  · rw [hexpired] at hlive
    exact absurd hlive (by simp)
  · exact hnull

/-- What lasts is read back just if the write is one that is. -/
theorem readsBack_iff (hnumber : Prints cipher.number) {w : MemoryWrite}
    (haccepted : w.Accepted) (hvalue : Held cipher.number w.value) {stamp : Int}
    (hs : Stored cipher s) (hlasts : Lasts cipher w stamp s) (hstamp : -(2 ^ 53 - 1) ≤ stamp)
    (hnow : s.now ≤ 2 ^ 53 - 1) :
    ReadsBack cipher s w stamp ↔ Readable cipher w stamp s.now := by
  by_cases htrim : Js.trim w.key = w.key
  · have hrow := hlasts.row
    rw [htrim] at hrow
    rcases hrow with ⟨row, hrow, hkind, hexpiry, hholds⟩ | ⟨hnone, hcache, hexpired⟩
    · have hreturns : s.returns cipher w.kind w.key s.now =
          if unreadable (expiry stamp w.ttlMs) then .error unsafeInteger
          else if expired (expiry stamp w.ttlMs) s.now then .ok .null
          else if cipher.Opens (stableStringify w.value) then .ok (stableValue w.value)
          else .error requiresSecret := by
        rw [returns_eq, hrow, ← hexpiry, ← hholds.readJson hnumber]
        exact if_neg (fun hne => hne hkind)
      cases hunreadable : unreadable (expiry stamp w.ttlMs) with
      | true =>
        rw [hunreadable, if_pos rfl] at hreturns
        constructor
        · intro hback
          exact absurd hreturns (hback.2 _)
        · intro hreadable
          exact absurd (hreadable.number htrim) (by rw [hunreadable]; simp)
      | false =>
        rw [hunreadable, if_neg Bool.false_ne_true] at hreturns
        cases hexpired : expired (expiry stamp w.ttlMs) s.now with
        | true =>
          rw [hexpired, if_pos rfl] at hreturns
          rw [readsBack_of_null hreturns]
          constructor
          · exact fun hnull => readable_of_null hnull (fun _ => hunreadable) (fun _ => hexpired)
          · exact fun hreadable => hreadable.null_of_expired hexpired
        | false =>
          rw [hexpired, if_neg Bool.false_ne_true] at hreturns
          have hopens := FieldCipher.opens_stableStringify_iff hvalue
          by_cases hopen : cipher.Opens (stableStringify w.value)
          · rw [if_pos hopen] at hreturns
            unfold ReadsBack
            rw [hreturns]
            constructor
            · intro hgiven
              obtain ⟨hback, -⟩ := hgiven
              refine ⟨fun _ => Or.inl htrim, fun _ => Or.inl hexpired, ?_, fun _ => hunreadable,
                fun _ _ => hopens.mp hopen⟩
              intro hp
              obtain ⟨v, hv, hsame⟩ := hback hp
              rw [Except.ok.injEq] at hv
              rw [← hv] at hsame
              exact (same_stableValue_iff hvalue).mp hsame
            · intro hreadable
              refine ⟨?_, fun err herr => absurd herr (by simp)⟩
              intro hp
              exact ⟨_, rfl, (same_stableValue_iff hvalue).mpr (hreadable.value hp)⟩
          · rw [if_neg hopen] at hreturns
            constructor
            · intro hback
              exact absurd hreturns (hback.2 _)
            · intro hreadable
              exact absurd (hopens.mpr (hreadable.envelope htrim hexpired)) hopen
    · have hreturns : s.returns cipher w.kind w.key s.now = .ok .null := by
        rw [returns_eq, hnone]
        rfl
      rw [readsBack_of_null hreturns]
      constructor
      · exact fun hnull => readable_of_null hnull
          (fun _ => readable_of_expired haccepted hcache hstamp hnow hexpired) (fun _ => hexpired)
      · exact fun hreadable => hreadable.null_of_expired hexpired
  · -- no row is under a key that was not trimmed
    have hnone : selectRow s.rows w.key = none := by
      cases hrow : selectRow s.rows w.key with
      | none => rfl
      | some row => exact absurd (hs _ _ hrow).1 htrim
    have hreturns : s.returns cipher w.kind w.key s.now = .ok .null := by
      rw [returns_eq, hnone]
      rfl
    rw [readsBack_of_null hreturns]
    constructor
    · exact fun hnull => readable_of_null hnull (fun heq => absurd heq htrim)
        (fun heq => absurd heq htrim)
    · intro hreadable hp
      exact (hreadable.key hp).resolve_left htrim

/-- The clock does not step back in a run. -/
theorem now_le_of_run {start : Int} {es : List MemoryEvent} {now : Int} (hnow : now ≤ s.now)
    (hrun : (memoryRuns cipher sha256 start).exec s es = some s') : now ≤ s'.now := by
  have hstep : ∀ (s : MemoryHub κ) (e : MemoryEvent),
      s.now ≤ (memoryStep cipher sha256 s e).now := by
    intro s e
    cases hwrite : e.write? with
    | none => exact (memoryStep_passed cipher sha256 s hwrite).now
    | some w =>
      rcases memoryStep_write cipher sha256 s hwrite with ⟨-, hwrote⟩ | ⟨-, hsame⟩
      · exact Int.le_of_eq hwrote.now.symm
      · rw [hsame]
  refine Lts.exec_invariant (I := fun s => now ≤ s.now) (C := fun _ _ => True) ?_ es hnow hrun
    (Lts.along_true es _)
  intro s e t hs _ hst
  rw [memoryRuns, Option.some.injEq] at hst
  exact hst ▸ hs.trans (hstep s e)

/-- In every run, and as long as no accepted write has the same trimmed key, a write that was
accepted is read back just if it is readable. -/
theorem reads_writes_iff (cipher : FieldCipher κ) (sha256 : String → String)
    (hnumber : Prints cipher.number) (start : Int) (pre post : List MemoryEvent) (e : MemoryEvent)
    (w : MemoryWrite) (s s₁ s₂ : MemoryHub κ)
    (hheld : ∀ e' ∈ pre ++ e :: post, e'.Held cipher.number)
    (hpre : (memoryRuns cipher sha256 start).exec (memoryRuns cipher sha256 start).init pre =
      some s)
    (hwrite : e.write? = some w) (haccepted : w.Accepted)
    (hstep : (memoryRuns cipher sha256 start).step s e = some s₁)
    (hpost : (memoryRuns cipher sha256 start).exec s₁ post = some s₂)
    (hother : ∀ e' ∈ post, e'.Elsewhere w)
    (hstart : -(2 ^ 53 - 1) ≤ start) (hnow : s₂.now ≤ 2 ^ 53 - 1) :
    ReadsBack cipher s₂ w s.now ↔ Readable cipher w s.now s₂.now := by
  have hrun : (memoryRuns cipher sha256 start).exec (memoryRuns cipher sha256 start).init
      (pre ++ e :: post) = some s₂ :=
    Lts.exec_append.mpr ⟨s, hpre, Lts.exec_cons.mpr ⟨s₁, hstep, hpost⟩⟩
  have hvalue : Held cipher.number w.value :=
    hheld e (List.mem_append_right _ (List.mem_cons_self ..)) w hwrite
  have hfiled : Lasts cipher w s.now s₁ := by
    rw [memoryRuns, Option.some.injEq] at hstep
    rcases memoryStep_write cipher sha256 s hwrite with ⟨-, hwrote⟩ | ⟨hthrown, -⟩
    · exact Lasts.of_wrote (hstep ▸ hwrote) hvalue
    · exact absurd haccepted hthrown
  exact readsBack_iff hnumber haccepted hvalue (memoryRuns_stored hheld hrun)
    (lasts_run hfiled hother hpost) (hstart.trans (now_le_of_run (Int.le_refl _) hpre)) hnow

/-- An entry of the cache, before its TTL has elapsed, with a memory written in between. -/
theorem cache_read_back : ∃ s,
    (memoryRuns plainCipher id 0).exec ⟨.empty, [], 0⟩
      [cacheOf "hit" "value", memoryOf "rule" "keep", .advance 999] = some s ∧
      ReadsBack plainCipher s ⟨.cache, "hit", .string "value", some (.ofInt 1000), zeroIv⟩ 0 := by
  have hheld : ∀ e ∈ [] ++ cacheOf "hit" "value" :: [memoryOf "rule" "keep", .advance 999],
      e.Held plainCipher.number := by
    intro e he w hw
    simp only [List.nil_append, List.mem_cons, List.not_mem_nil, or_false] at he
    rcases he with rfl | rfl | rfl
    · rw [← Option.some.inj hw]
      trivial
    · rw [← Option.some.inj hw]
      trivial
    · exact absurd hw (by simp [MemoryEvent.write?])
  have hother : ∀ e ∈ [memoryOf "rule" "keep", .advance 999], e.Elsewhere
      ⟨.cache, "hit", .string "value", some (.ofInt 1000), zeroIv⟩ := by
    intro e he w hw _
    rcases List.mem_pair.mp he with rfl | rfl
    · rw [← Option.some.inj hw]
      decide
    · exact absurd hw (by simp [MemoryEvent.write?])
  refine ⟨_, rfl, ?_⟩
  refine (reads_writes_iff plainCipher id Js.Json.prints_id 0 [] _ (cacheOf "hit" "value") _
    ⟨.empty, [], 0⟩ _ _ hheld rfl rfl (by decide) rfl rfl hother (by decide) (by decide)).mpr ?_
  exact ⟨fun _ => Or.inl (by decide), fun _ => Or.inl (by decide +kernel), fun _ => rfl,
    fun _ => by decide +kernel, fun _ _ => Or.inr rfl⟩

/-- The getter threw. -/
def throws : Except String Json → Bool
  | .error _ => true
  | .ok _ => false

/-- A value that a hub without a key takes for an envelope. -/
def envelopeLike : Json := (⟨"AA", "AA", "AA"⟩ : EncryptedEnvelope).toJson

/-- A key with a blank before it is not found, and a value that looks like an envelope is not
read. -/
theorem written_but_not_read : ∃ s s',
    (memoryRuns plainCipher id 0).exec ⟨.empty, [], 0⟩ [memoryOf " rule" "keep"] = some s ∧
      ¬ ReadsBack plainCipher s ⟨.memory, " rule", .string "keep", none, zeroIv⟩ 0 ∧
      (memoryRuns plainCipher id 0).exec ⟨.empty, [], 0⟩
        [.upsertMemory "rule" envelopeLike none zeroIv] = some s' ∧
      ¬ ReadsBack plainCipher s' ⟨.memory, "rule", envelopeLike, none, zeroIv⟩ 0 := by
  refine ⟨_, _, rfl, ?_, rfl, ?_⟩
  · intro hback
    have hnull : readsNull ((memoryStep plainCipher id ⟨.empty, [], 0⟩
        (memoryOf " rule" "keep")).returns plainCipher .memory " rule" 0) = true := by
      decide +kernel
    have hvalue := (readsBack_of_null (w := ⟨.memory, " rule", .string "keep", none, zeroIv⟩)
      (readsNull_iff.mp hnull)).mp hback rfl
    exact absurd hvalue (by simp)
  · intro hback
    have hthrows : throws ((memoryStep plainCipher id ⟨.empty, [], 0⟩
        (.upsertMemory "rule" envelopeLike none zeroIv)).returns plainCipher .memory "rule" 0) =
          true := by
      decide +kernel
    obtain ⟨v, hv, -⟩ := hback.1 rfl
    rw [show (memoryStep plainCipher id ⟨.empty, [], 0⟩
      (.upsertMemory "rule" envelopeLike none zeroIv)).returns plainCipher .memory "rule" 0 = .ok v
      from hv] at hthrows
    exact absurd hthrows (by simp [throws])

end Kovael.Hub
