import Kovael.Hub.Memory

/-!
# Memory and cache keep apart

The two kinds of row share the primary key of `agent_memory`, and a write replaces the row of
its trimmed key whatever its kind. So a write changes what the getter of the other kind
returns just if that getter returned more than `null` under the key; nothing else that
happens to the table changes what a getter returns, the kind that was written apart.
`isolated_iff` says so of all runs.
-/

namespace Kovael.Hub

open Js (Number OrderedMap Json)
open Js.Json (Held Prints Same)
open Crypto (Call Gcm)

variable {κ : Type} [DecidableEq κ] {cipher : FieldCipher κ} {sha256 : String → String}
  {s s' : MemoryHub κ}

/-! ## Rows that a getter passes over -/

/-- The getter returned `null`. -/
def readsNull : Except String Json → Bool
  | .ok .null => true
  | _ => false

theorem readsNull_iff {r : Except String Json} : readsNull r = true ↔ r = .ok .null := by
  rcases r with err | v
  · simp [readsNull]
  · cases v <;> simp [readsNull]

/-- The row is expired, or holds `null`. -/
def Selected.Vacant (cipher : FieldCipher κ) (calls : List (Call κ)) (now : Int) (key : String)
    (row : Selected) : Prop :=
  unreadable row.expiresAt = false ∧ (expired row.expiresAt now = true ∨
    readsNull (cipher.readJson calls row.valueJson (memoryAad key)) = true)

instance (calls : List (Call κ)) (now : Int) (key : String) (row : Selected) :
    Decidable (row.Vacant cipher calls now key) := inferInstanceAs (Decidable (_ ∧ _))

/-- What has expired stays expired. -/
theorem expired_later {expiresAt : Option Number} {now later : Int} (hle : now ≤ later)
    (h : expired expiresAt now = true) : expired expiresAt later = true := by
  cases expiresAt with
  | none => exact absurd h (by simp [expired])
  | some due =>
    unfold expired at h ⊢
    rw [Option.any_some] at h ⊢
    cases due with
    | nan => exact h
    | negInf => rfl
    | posInf => exact h
    | fin q =>
      have hq : q ≤ (now : ℚ) := of_decide_eq_true h
      have hcast : (now : ℚ) ≤ (later : ℚ) := Int.cast_le.mpr hle
      exact decide_eq_true (hq.trans hcast)

/-- The getter of its kind passes over a row from now on just if the row is vacant. -/
theorem vacant_iff (cipher : FieldCipher κ) (calls : List (Call κ)) (now : Int) (key : String)
    (row : Selected) :
    (∀ later, now ≤ later → readRow cipher calls later key row.kind (some row) = .ok .null) ↔
      row.Vacant cipher calls now key := by
  unfold readRow Selected.Vacant
  simp only [ne_eq, not_true_eq_false, if_false]
  cases unreadable row.expiresAt with
  | true =>
    constructor
    · intro h
      exact absurd (h now (Int.le_refl _)) (by simp)
    · intro hgiven
      obtain ⟨hreadable, -⟩ := hgiven
      exact absurd hreadable (by simp)
  | false =>
    simp only [Bool.false_eq_true, if_false, true_and]
    constructor
    · intro h
      have hnow := h now (Int.le_refl _)
      split at hnow
      next hexpired => exact Or.inl hexpired
      next => exact Or.inr (readsNull_iff.mpr hnow)
    · intro h later hle
      rcases h with hexpired | hnull
      · rw [if_pos (expired_later hle hexpired)]
      · rw [readsNull_iff.mp hnull, ite_self]

/-! ## Steps -/

/-- What a getter returns of the rows does not change with more encryptions. -/
theorem readRow_calls (hnumber : Prints cipher.number) (hs : Stored cipher s)
    {calls : List (Call κ)} (hcalls : s.calls ⊆ calls) (now : Int) (key : String)
    (kind : AgentMemoryKind) :
    readRow cipher calls now key kind (selectRow s.rows key) =
      readRow cipher s.calls now key kind (selectRow s.rows key) := by
  cases hrow : selectRow s.rows key with
  | none => rfl
  | some row =>
    obtain ⟨-, v, hv⟩ := hs key row hrow
    have hsame : cipher.readJson calls row.valueJson (memoryAad key) =
        cipher.readJson s.calls row.valueJson (memoryAad key) := by
      rw [hv.readJson hnumber, (hv.mono hcalls).readJson hnumber]
    simp only [readRow, hsame]

/-- The kind of row that an event is about. -/
def MemoryEvent.kind? : MemoryEvent → Option AgentMemoryKind
  | .upsertMemory .. | .getMemory .. => some .memory
  | .upsertCache .. | .getCache .. | .pruneExpiredCache => some .cache
  | .advance _ => none

/-- An event leaves what the getter of the other kind returns, of every key and from now on. -/
def Isolated (cipher : FieldCipher κ) (s s' : MemoryHub κ) (e : MemoryEvent) : Prop :=
  ∀ kind, e.kind? ≠ some kind → ∀ key now, s'.now ≤ now →
    s'.returns cipher kind key now = s.returns cipher kind key now

/-- A write that is accepted finds no row of the other kind that its getter does not pass
over. -/
def Separate (cipher : FieldCipher κ) (s : MemoryHub κ) (e : MemoryEvent) : Prop :=
  ∀ w, e.write? = some w → w.Accepted → ∀ row, selectRow s.rows (Js.trim w.key) = some row →
    row.kind ≠ w.kind → row.Vacant cipher s.calls s.now (Js.trim w.key)

instance (s : MemoryHub κ) (e : MemoryEvent) : Decidable (Separate cipher s e) :=
  decidable_of_iff (∀ w ∈ e.write?, w.Accepted →
      ∀ row ∈ selectRow s.rows (Js.trim w.key), row.kind ≠ w.kind →
        row.Vacant cipher s.calls s.now (Js.trim w.key)) Iff.rfl

theorem MemoryEvent.kind?_of_write {e : MemoryEvent} {w : MemoryWrite} (h : e.write? = some w) :
    e.kind? = some w.kind := by
  cases e <;> simp only [MemoryEvent.write?, Option.some.injEq, reduceCtorEq] at h <;>
    exact congrArg some (congrArg MemoryWrite.kind h)

/-- A write is isolated just if the other getter passes over the row that it replaces. -/
theorem isolated_of_write (hnumber : Prints cipher.number) (hs : Stored cipher s)
    {e : MemoryEvent} {w : MemoryWrite} (hwrite : e.write? = some w) (h : Wrote cipher s s' w) :
    Isolated cipher s s' e ↔ ∀ row, selectRow s.rows (Js.trim w.key) = some row →
      row.kind ≠ w.kind → row.Vacant cipher s.calls s.now (Js.trim w.key) := by
  have hcalls : s.calls ⊆ s'.calls := by
    rw [h.calls]
    exact List.subset_append_left ..
  -- under the key, the getter of another kind returns `null` from now on
  have hafter : ∀ kind, w.kind ≠ kind → ∀ now,
      s'.returns cipher kind (Js.trim w.key) now = .ok .null := by
    intro kind hkind now
    rw [returns_eq, h.rows, if_pos rfl]
    exact if_pos hkind
  constructor
  · intro hisolated row hrow hother
    refine (vacant_iff ..).mp ?_
    intro later hle
    have hkind : e.kind? ≠ some row.kind := by
      rw [MemoryEvent.kind?_of_write hwrite]
      exact fun heq => hother (Option.some.inj heq).symm
    have hsame := hisolated row.kind hkind (Js.trim w.key) later (h.now ▸ hle)
    rw [hafter _ hother.symm, returns_eq, hrow] at hsame
    exact hsame.symm
  · intro hvacant kind hkind key now hle
    have hother : w.kind ≠ kind := by
      rw [MemoryEvent.kind?_of_write hwrite] at hkind
      exact fun heq => hkind (congrArg some heq)
    by_cases hkey : key = Js.trim w.key
    · subst hkey
      rw [hafter kind hother, returns_eq]
      cases hrow : selectRow s.rows (Js.trim w.key) with
      | none => rfl
      | some row =>
        by_cases hrowkind : row.kind = kind
        · subst hrowkind
          exact ((vacant_iff ..).mpr (hvacant row hrow hother.symm) now (h.now ▸ hle)).symm
        · exact (if_pos hrowkind).symm
    · rw [returns_eq, returns_eq, h.rows, if_neg hkey, readRow_calls hnumber hs hcalls]

/-- What is no write changes nothing that the other getter returns. -/
theorem isolated_of_passed {e : MemoryEvent} (h : Passed s s' e) : Isolated cipher s s' e := by
  intro kind hkind key now hle
  rw [returns_eq, returns_eq, h.calls]
  rcases h.rows key with hsame | ⟨rfl, hgone, row, hrow, hcache, -⟩
  · rw [hsame]
  · have hother : row.kind ≠ kind := by
      rw [hcache]
      exact fun heq => hkind (congrArg some heq)
    rw [hgone, hrow]
    exact (if_pos hother).symm

theorem isolated_step_iff (hnumber : Prints cipher.number) (hs : Stored cipher s)
    (e : MemoryEvent) :
    Isolated cipher s (memoryStep cipher sha256 s e) e ↔ Separate cipher s e := by
  cases hwrite : e.write? with
  | none =>
    constructor
    · intro _ w hw
      rw [hwrite] at hw
      exact absurd hw (by simp)
    · intro _
      exact isolated_of_passed (memoryStep_passed cipher sha256 s hwrite)
  | some w =>
    rcases memoryStep_write cipher sha256 s hwrite with ⟨haccepted, hwrote⟩ | ⟨hthrown, hsame⟩
    · rw [isolated_of_write hnumber hs hwrite hwrote]
      constructor
      · intro hvacant w' hw' _
        rw [hwrite, Option.some.injEq] at hw'
        rw [← hw']
        exact hvacant
      · intro hseparate
        exact hseparate w hwrite haccepted
    · rw [hsame]
      constructor
      · intro _ w' hw' haccepted
        rw [hwrite, Option.some.injEq] at hw'
        exact absurd (hw' ▸ haccepted) hthrown
      · intro _ kind _ key now _
        rfl

/-! ## Runs -/

/-- The states of a run. -/
theorem memoryRuns_stored {start : Int} {es : List MemoryEvent}
    (hheld : ∀ e ∈ es, e.Held cipher.number)
    (hrun : (memoryRuns cipher sha256 start).exec (memoryRuns cipher sha256 start).init es =
      some s) : Stored cipher s := by
  refine Lts.exec_invariant (I := Stored cipher) (C := fun _ e => e.Held cipher.number) ?_ es
    (stored_init cipher sha256 start) hrun (Lts.along_of_forall (fun e he _ => hheld e he) _)
  intro s e t hs he hst
  rw [memoryRuns, Option.some.injEq] at hst
  exact hst ▸ stored_step hs he

/-- In every run, the steps all leave what the getter of the other kind returns, of every key
and at every later time, if and only if every write that is accepted finds no row of the other
kind under its trimmed key but one that is expired or holds `null`. -/
theorem isolated_iff (cipher : FieldCipher κ) (sha256 : String → String)
    (hnumber : Prints cipher.number) (start : Int) (es : List MemoryEvent)
    (hheld : ∀ e ∈ es, e.Held cipher.number) :
    let runs := memoryRuns cipher sha256 start
    (∀ pre e post s s', es = pre ++ e :: post → runs.exec runs.init pre = some s →
      runs.step s e = some s' → Isolated cipher s s' e) ↔
      runs.Along (Separate cipher) runs.init es := by
  dsimp only
  rw [Lts.along_iff]
  have hstored : ∀ pre e post s, es = pre ++ e :: post →
      (memoryRuns cipher sha256 start).exec (memoryRuns cipher sha256 start).init pre = some s →
      Stored cipher s := by
    intro pre e post s heq hpre
    refine memoryRuns_stored (fun e' he' => hheld e' ?_) hpre
    rw [heq]
    exact List.mem_append_left _ he'
  constructor
  · intro hisolated pre e post s heq hpre
    exact (isolated_step_iff hnumber (hstored pre e post s heq hpre) e).mp
      (hisolated pre e post s _ heq hpre rfl)
  · intro hseparate pre e post s s' heq hpre hst
    rw [memoryRuns, Option.some.injEq] at hst
    rw [← hst]
    exact (isolated_step_iff hnumber (hstored pre e post s heq hpre) e).mpr
      (hseparate pre e post s heq hpre)

/-! ## One key, two kinds -/

/-- A hub without a key, so that nothing is encrypted. -/
def plainCipher : FieldCipher Empty where
  gcm :=
    { ciphertext := fun key => key.elim
      tag := fun key => key.elim
      length_ciphertext := fun key => key.elim
      ciphertext_injective := fun key => key.elim
      length_tag := fun key => key.elim }
  number := id
  key := none

def zeroIv : Iv := ⟨List.replicate 12 0, rfl⟩

def memoryOf (key value : String) : MemoryEvent :=
  .upsertMemory key (.string value) none zeroIv

def cacheOf (key value : String) : MemoryEvent :=
  .upsertCache key (.string value) (.ofInt 1000) zeroIv

/-- Two keys: the cache entry leaves the memory. -/
theorem two_keys_isolated : ∃ s s',
    (memoryRuns plainCipher id 0).exec ⟨.empty, [], 0⟩ [memoryOf "rule" "keep"] = some s ∧
      (memoryRuns plainCipher id 0).step s (cacheOf "hit" "drop") = some s' ∧
      Isolated plainCipher s s' (cacheOf "hit" "drop") := by
  have hheld : ∀ e ∈ [memoryOf "rule" "keep", cacheOf "hit" "drop"],
      e.Held plainCipher.number := by
    intro e he w hw
    rcases List.mem_pair.mp he with rfl | rfl
    · rw [← Option.some.inj hw]
      trivial
    · rw [← Option.some.inj hw]
      trivial
  refine ⟨_, _, rfl, rfl, ?_⟩
  exact (isolated_iff plainCipher id Js.Json.prints_id 0 _ hheld).mpr (by decide +kernel)
    [memoryOf "rule" "keep"] (cacheOf "hit" "drop") [] _ _ rfl rfl rfl

/-- One key: the cache entry replaces the memory. -/
theorem cache_replaces_memory : ∃ s s',
    (memoryRuns plainCipher id 0).exec ⟨.empty, [], 0⟩ [memoryOf "rule" "keep"] = some s ∧
      (memoryRuns plainCipher id 0).step s (cacheOf "rule" "drop") = some s' ∧
      s.returns plainCipher .memory "rule" 0 ≠ .ok .null ∧
      s'.returns plainCipher .memory "rule" 0 = .ok .null ∧
      ¬ Isolated plainCipher s s' (cacheOf "rule" "drop") := by
  refine ⟨_, _, rfl, rfl, ?_⟩
  have hbefore : readsNull ((memoryStep plainCipher id ⟨.empty, [], 0⟩
      (memoryOf "rule" "keep")).returns plainCipher .memory "rule" 0) = false := by
    decide +kernel
  have hafter : readsNull ((memoryStep plainCipher id (memoryStep plainCipher id ⟨.empty, [], 0⟩
      (memoryOf "rule" "keep")) (cacheOf "rule" "drop")).returns plainCipher .memory "rule" 0) =
        true := by
    decide +kernel
  have hkept : (memoryStep plainCipher id ⟨.empty, [], 0⟩
      (memoryOf "rule" "keep")).returns plainCipher .memory "rule" 0 ≠ .ok .null := by
    intro hnull
    rw [hnull] at hbefore
    exact absurd hbefore (by decide)
  refine ⟨hkept, readsNull_iff.mp hafter, ?_⟩
  intro hisolated
  have hsame := hisolated .memory (by decide) "rule" 0 (by decide)
  rw [readsNull_iff.mp hafter] at hsame
  exact hkept hsame.symm

end Kovael.Hub
