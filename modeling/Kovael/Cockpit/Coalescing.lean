import Mathlib.Data.List.Induction
import Mathlib.Data.List.TakeWhile
import Kovael.Cockpit.PressureValve
import Kovael.Lts

/-!
# When the pressure valve is transparent

A store behind the valve beside the same store, flushed after every message. The buffer
keeps the last status of a node even where it is empty, and a new node's buffer as it
came; and a flush that throws has cleared the updates of all nodes. `Fits` says, of the
messages of one flush and the nodes before it, when none of this shows;
`valve_transparent_iff` says that it is exact.
-/

namespace Kovael.Cockpit

open Js (Utf16 OrderedMap)

/-! ## Coalescing -/

namespace Data

/-- What is filed after messages for one id. -/
def coalesce (ts : List Data) : Data :=
  ts.foldl (fun existing t => if truthy existing then spread existing t else t) none

/-- The property that the last message with it gives. -/
def lastOwn (ts : List Data) (key : Utf16) : Option Value :=
  ts.foldl (fun v t => (own t key).or v) none

theorem own_of_falsy {t : Data} (ht : truthy t = false) : own t = fun _ => none := by
  rcases t with _ | ⟨_ | b | text | s | items | fields⟩
  · rfl
  · rfl
  · rfl
  · rfl
  · rw [truthy, decide_eq_false_iff_not, not_not] at ht
    rw [ht]
    rfl
  · cases ht
  · cases ht

theorem falsy_of_nullish {t : Data} (ht : nullish t = true) : truthy t = false := by
  rcases t with _ | ⟨_ | b | text | s | items | fields⟩
  · rfl
  · rfl
  all_goals cases ht

theorem coalesce_concat (ts : List Data) (t : Data) :
    coalesce (ts ++ [t]) = if truthy (coalesce ts) then spread (coalesce ts) t else t := by
  rw [coalesce, List.foldl_append]
  rfl

theorem lastOwn_concat (ts : List Data) (t : Data) (key : Utf16) :
    lastOwn (ts ++ [t]) key = (own t key).or (lastOwn ts key) := by
  rw [lastOwn, List.foldl_append]
  rfl

theorem truthy_coalesce (ts : List Data) :
    truthy (coalesce ts) = true ↔ ∃ t ∈ ts, truthy t = true := by
  induction ts using List.reverseRecOn with
  | nil =>
    refine iff_of_false (fun h => by cases h) ?_
    intro hgiven
    obtain ⟨t, ht, -⟩ := hgiven
    exact absurd ht List.not_mem_nil
  | append_singleton ts t ih =>
    rw [coalesce_concat]
    by_cases hts : truthy (coalesce ts) = true
    · obtain ⟨u, hu, htruthy⟩ := ih.mp hts
      rw [if_pos hts]
      exact iff_of_true rfl ⟨u, List.mem_append_left _ hu, htruthy⟩
    · rw [if_neg hts]
      constructor
      · intro ht
        exact ⟨t, List.mem_append_right _ (List.mem_singleton_self t), ht⟩
      · intro hgiven
        obtain ⟨u, hu, htruthy⟩ := hgiven
        rcases List.mem_append.mp hu with hu | hu
        · exact absurd (ih.mpr ⟨u, hu, htruthy⟩) hts
        · rw [← List.mem_singleton.mp hu]
          exact htruthy

/-- The buffer has the properties of the messages, the later ones first. -/
theorem own_coalesce (ts : List Data) : own (coalesce ts) = lastOwn ts := by
  induction ts using List.reverseRecOn with
  | nil => rfl
  | append_singleton ts t ih =>
    funext key
    rw [coalesce_concat, lastOwn_concat, ← ih]
    split
    next => rfl
    next hfalsy =>
      rw [own_of_falsy (t := coalesce ts) (Bool.not_eq_true _ ▸ hfalsy), Option.or_none]

/-- Messages without properties give none. -/
theorem lastOwn_of_falsy {ts : List Data} (hts : ∀ t ∈ ts, truthy t = false) (key : Utf16) :
    lastOwn ts key = none := by
  rw [← own_coalesce, own_of_falsy]
  rw [← Bool.not_eq_true, truthy_coalesce]
  intro hgiven
  obtain ⟨t, ht, htruthy⟩ := hgiven
  rw [hts t ht] at htruthy
  cases htruthy

theorem lastOwn_append (ts us : List Data) (key : Utf16) :
    lastOwn (ts ++ us) key = (lastOwn us key).or (lastOwn ts key) := by
  induction us using List.reverseRecOn with
  | nil => rw [List.append_nil]; rfl
  | append_singleton us u ih =>
    rw [← List.append_assoc, lastOwn_concat, lastOwn_concat, ih, Option.or_assoc]

/-! ## The status -/

/-- The status after the messages one by one. -/
def statusAfter (s : Data) (ts : List Data) : Data :=
  ts.foldl (fun s t => if truthy (status t) then status t else s) s

/-- After the last status of the batch that counts as true, no message gives another one;
else it is what the node shows already. -/
def StatusFits (s : Data) (ts : List Data) : Prop :=
  ∀ before t after, ts = before ++ t :: after → truthy (status t) = true →
    (∀ u ∈ after, truthy (status u) = false) → (∀ u ∈ after, status u = none) ∨ status t = s

theorem statusAfter_concat (s : Data) (ts : List Data) (t : Data) :
    statusAfter s (ts ++ [t]) = if truthy (status t) then status t else statusAfter s ts := by
  rw [statusAfter, List.foldl_append]
  rfl

/-- Either no status counts as true, or one is the last that does. -/
theorem exists_last_status (ts : List Data) :
    (∀ t ∈ ts, truthy (status t) = false) ∨ ∃ before t after, ts = before ++ t :: after ∧
      truthy (status t) = true ∧ ∀ u ∈ after, truthy (status u) = false := by
  induction ts using List.reverseRecOn with
  | nil => exact Or.inl fun t ht => absurd ht List.not_mem_nil
  | append_singleton ts t ih =>
    cases ht : truthy (status t) with
    | true => exact Or.inr ⟨ts, t, [], rfl, ht, fun u hu => absurd hu List.not_mem_nil⟩
    | false =>
      rcases ih with hnone | ⟨before, u, after, rfl, hu, hafter⟩
      · refine Or.inl fun u hu => ?_
        rcases List.mem_append.mp hu with hu | hu
        · exact hnone u hu
        · rw [List.mem_singleton.mp hu]
          exact ht
      · refine Or.inr ⟨before, u, after ++ [t], ?_, hu, fun w hw => ?_⟩
        · rw [List.append_assoc, List.cons_append]
        · rcases List.mem_append.mp hw with hw | hw
          · exact hafter w hw
          · rw [List.mem_singleton.mp hw]
            exact ht

theorem statusAfter_of_none {s : Data} {ts : List Data}
    (hts : ∀ t ∈ ts, truthy (status t) = false) : statusAfter s ts = s := by
  induction ts using List.reverseRecOn with
  | nil => rfl
  | append_singleton ts t ih =>
    rw [statusAfter_concat, hts t (List.mem_append_right _ (List.mem_singleton_self t)),
      ih fun u hu => hts u (List.mem_append_left _ hu)]
    rfl

/-- The last status of messages of which none gives a true one is no true one. -/
theorem lastOwn_status_falsy {ts : List Data} (hts : ∀ t ∈ ts, truthy (status t) = false) :
    truthy (lastOwn ts (Utf16.ascii "status")) = false := by
  induction ts using List.reverseRecOn with
  | nil => rfl
  | append_singleton ts t ih =>
    rw [lastOwn_concat]
    have ht := hts t (List.mem_append_right _ (List.mem_singleton_self t))
    have ih := ih fun u hu => hts u (List.mem_append_left _ hu)
    unfold status at ht
    cases hown : own t (Utf16.ascii "status") with
    | none => exact ih
    | some v =>
      rw [hown] at ht
      exact ht

theorem lastOwn_eq_none_iff {ts : List Data} {key : Utf16} :
    lastOwn ts key = none ↔ ∀ t ∈ ts, own t key = none := by
  induction ts using List.reverseRecOn with
  | nil => exact iff_of_true rfl fun t ht => absurd ht List.not_mem_nil
  | append_singleton ts t ih =>
    rw [lastOwn_concat, Option.or_eq_none_iff, ih, List.forall_mem_append,
      List.forall_mem_singleton, and_comm]

/-- The buffer gives the status that the messages give one by one, exactly if they fit. -/
theorem status_coalesce_iff (s : Data) (ts : List Data) :
    (if truthy (status (coalesce ts)) then status (coalesce ts) else s) = statusAfter s ts ↔
      StatusFits s ts := by
  have hlast : status (coalesce ts) = lastOwn ts (Utf16.ascii "status") := by
    rw [status, own_coalesce]
  -- what a last true status says of both sides
  have hsplit : ∀ before t after, ts = before ++ t :: after → truthy (status t) = true →
      (∀ u ∈ after, truthy (status u) = false) →
        ((if truthy (status (coalesce ts)) then status (coalesce ts) else s) = statusAfter s ts ↔
          (∀ u ∈ after, status u = none) ∨ status t = s) := by
    intro before t after hts ht hafter
    have hafterLast := lastOwn_status_falsy hafter
    have hstatus : statusAfter s ts = status t := by
      rw [hts, statusAfter, List.foldl_append, List.foldl_cons, if_pos ht]
      exact statusAfter_of_none hafter
    have hown : lastOwn ts (Utf16.ascii "status") =
        (lastOwn after (Utf16.ascii "status")).or (status t) := by
      rw [hts, ← List.singleton_append, ← List.append_assoc, lastOwn_append, lastOwn_concat]
      cases hcase : own t (Utf16.ascii "status") with
      | none =>
        rw [status, hcase] at ht
        cases ht
      | some v => rw [status, hcase, Option.some_or]
    rw [hstatus, hlast, hown]
    cases hcase : lastOwn after (Utf16.ascii "status") with
    | none =>
      rw [Option.none_or, if_pos ht]
      exact iff_of_true rfl (Or.inl (lastOwn_eq_none_iff.mp hcase))
    | some v =>
      have hv : truthy (some v) = false := hcase ▸ hafterLast
      rw [Option.some_or, hv]
      constructor
      · intro h
        exact Or.inr h.symm
      · intro hcases
        rcases hcases with hnone | h
        · rw [lastOwn_eq_none_iff.mpr hnone] at hcase
          cases hcase
        · exact h.symm
  rcases exists_last_status ts with hnone | ⟨before, t, after, hts, ht, hafter⟩
  · rw [statusAfter_of_none hnone, hlast, lastOwn_status_falsy hnone]
    refine iff_of_true rfl ?_
    intro before t after heq
    obtain rfl := heq
    intro ht _
    rw [hnone t (List.mem_append_right _ (List.mem_cons_self ..))] at ht
    cases ht
  · constructor
    · intro h before' t' after' hts' ht' hafter'
      exact (hsplit before' t' after' hts' ht' hafter').mp h
    · intro hfits
      exact (hsplit before t after hts ht hafter).mpr (hfits before t after hts ht hafter)

/-! ## The telemetry -/

/-- It is an object, and no array or text. -/
def IsObject (t : Data) : Prop := ∃ fields, t = some (.object fields)

/-- Messages for a new node, without the first that are `undefined` or `null`, make the
telemetry that they make one by one: there is just one; or one between the first and the
last counts as true; or the first and the last both do; or the one of them that does is an
object; or they are the same. -/
def TelemetryFits (ts : List Data) : Prop :=
  ∀ first middle last, ts = first :: (middle ++ [last]) → (∀ t ∈ middle, truthy t = false) →
    if truthy first then truthy last = true ∨ IsObject first
    else if truthy last then IsObject last
    else last = first

/-- The telemetry of a new node after the messages one by one. -/
def newTelemetry (t : Data) (rest : List Data) : Data :=
  if rest.any truthy then some (.object fun key => (lastOwn rest key).or (own t key)) else t

theorem object_own_iff {t : Data} : some (.object (own t)) = t ↔ IsObject t := by
  constructor
  · intro h
    exact ⟨own t, h.symm⟩
  · intro hgiven
    obtain ⟨fields, rfl⟩ := hgiven
    rfl

theorem lastOwn_cons (t : Data) (rest : List Data) (key : Utf16) :
    lastOwn (t :: rest) key = (lastOwn rest key).or (own t key) := by
  rw [← List.singleton_append, lastOwn_append]
  exact congrArg _ (Option.or_none)

theorem coalesce_eq (front : List Data) (last : Data) :
    coalesce (front ++ [last]) =
      if truthy (coalesce front) then some (.object (lastOwn (front ++ [last]))) else last := by
  have hall : (fun key => (own last key).or (own (coalesce front) key))
      = lastOwn (front ++ [last]) := by
    funext key
    rw [own_coalesce, lastOwn_concat]
  rw [coalesce_concat, spread, hall]

theorem newTelemetry_eq (t : Data) (rest : List Data) :
    newTelemetry t rest = if rest.any truthy then some (.object (lastOwn (t :: rest))) else t := by
  have hall : (fun key => (lastOwn rest key).or (own t key)) = lastOwn (t :: rest) :=
    funext fun key => (lastOwn_cons t rest key).symm
  rw [newTelemetry, hall]

/-- The buffer is the telemetry that the messages make one by one, exactly if they fit. -/
theorem telemetry_coalesce_iff (t : Data) (rest : List Data) :
    coalesce (t :: rest) = newTelemetry t rest ↔ TelemetryFits (t :: rest) := by
  rcases List.eq_nil_or_concat' rest with rfl | ⟨middle, last, rfl⟩
  · refine iff_of_true rfl ?_
    intro first middle last heq
    exact absurd (List.cons.inj heq).2 (by simp)
  rw [newTelemetry_eq, ← List.cons_append, coalesce_eq]
  have hsame : ∀ first middle' last', t :: middle ++ [last] = first :: (middle' ++ [last']) →
      t = first ∧ middle = middle' ∧ last = last' := by
    intro first middle' last' heq
    obtain ⟨hfirst, hrest⟩ := List.cons.inj heq
    obtain ⟨hmiddle, hlast⟩ := List.append_inj' hrest rfl
    exact ⟨hfirst, hmiddle, (List.cons.inj hlast).1⟩
  by_cases hmiddle : ∃ m ∈ middle, truthy m = true
  · obtain ⟨m, hm, htruthy⟩ := hmiddle
    rw [if_pos ((truthy_coalesce _).mpr ⟨m, List.mem_cons_of_mem _ hm, htruthy⟩),
      if_pos (List.any_eq_true.mpr ⟨m, List.mem_append_left _ hm, htruthy⟩)]
    refine iff_of_true rfl ?_
    intro first middle' last' heq hfalsy
    obtain ⟨-, rfl, -⟩ := hsame first middle' last' heq
    rw [hfalsy m hm] at htruthy
    cases htruthy
  · have hfalsy : ∀ m ∈ middle, truthy m = false := by
      intro m hm
      cases hcase : truthy m with
      | false => rfl
      | true => exact absurd ⟨m, hm, hcase⟩ hmiddle
    have hfits : TelemetryFits (t :: middle ++ [last]) ↔
        if truthy t then truthy last = true ∨ IsObject t
        else if truthy last then IsObject last else last = t := by
      constructor
      · intro h
        exact h t middle last rfl hfalsy
      · intro h first middle' last' heq _
        obtain ⟨rfl, -, rfl⟩ := hsame first middle' last' heq
        exact h
    have hfront : truthy (coalesce (t :: middle)) = truthy t := by
      rw [Bool.eq_iff_iff, truthy_coalesce, List.exists_mem_cons_iff]
      exact or_iff_left hmiddle
    have hrest : (middle ++ [last]).any truthy = truthy last := by
      rw [Bool.eq_iff_iff, List.any_eq_true]
      constructor
      · intro hgiven
        obtain ⟨m, hm, htruthy⟩ := hgiven
        rcases List.mem_append.mp hm with hm | hm
        · exact absurd ⟨m, hm, htruthy⟩ hmiddle
        · exact List.mem_singleton.mp hm ▸ htruthy
      · intro htruthy
        exact ⟨last, List.mem_append_right _ (List.mem_singleton_self last), htruthy⟩
    rw [hfits, hfront, hrest]
    cases ht : truthy t with
    | true =>
      cases hlast : truthy last with
      | true => exact iff_of_true rfl (Or.inl rfl)
      | false =>
        have hown : lastOwn (t :: middle ++ [last]) = own t := by
          funext key
          rw [List.cons_append, lastOwn_cons, lastOwn_of_falsy, Option.none_or]
          intro m hm
          rcases List.mem_append.mp hm with hm | hm
          · exact hfalsy m hm
          · exact List.mem_singleton.mp hm ▸ hlast
        rw [hown]
        exact object_own_iff.trans (or_iff_right Bool.false_ne_true).symm
    | false =>
      cases hlast : truthy last with
      | true =>
        have hown : lastOwn (t :: middle ++ [last]) = own last := by
          funext key
          rw [lastOwn_concat, lastOwn_of_falsy, Option.or_none]
          intro m hm
          rcases List.mem_cons.mp hm with rfl | hm
          · exact ht
          · exact hfalsy m hm
        rw [hown]
        exact eq_comm.trans object_own_iff
      | false => exact Iff.rfl

/-- A buffer is `undefined` or `null` if all messages are. -/
theorem nullish_coalesce {ts : List Data} (hts : ∀ t ∈ ts, nullish t = true) :
    nullish (coalesce ts) = true := by
  induction ts using List.reverseRecOn with
  | nil => rfl
  | append_singleton ts t ih =>
    rw [coalesce_concat, falsy_of_nullish (ih fun u hu => hts u (List.mem_append_left _ hu))]
    exact hts t (List.mem_append_right _ (List.mem_singleton_self t))

end Data

/-! ## One flush -/

/-- The messages for a node since the last flush leave of the node what they leave of it one
by one. -/
def BatchFits (v : Option (Data × Data)) (ts : List Data) : Prop :=
  match v with
  | some (status, _) => Data.StatusFits status ts
  | none =>
    Data.StatusFits (some (.string (Utf16.ascii "ONLINE"))) (ts.dropWhile Data.nullish) ∧
      Data.TelemetryFits (ts.dropWhile Data.nullish)

theorem any_concat (ts : List Data) (t : Data) :
    (ts ++ [t]).any Data.truthy = (ts.any Data.truthy || Data.truthy t) := by
  rw [List.any_append, List.any_cons, List.any_nil, Bool.or_false]

theorem lastOwn_of_any {ts : List Data} (hts : ts.any Data.truthy = false) (key : Utf16) :
    Data.lastOwn ts key = none :=
  Data.lastOwn_of_falsy (fun t ht => Bool.not_eq_true _ ▸ List.any_eq_false.mp hts t ht) key

/-- A known node after the messages one by one. -/
theorem foldl_known (status telemetry : Data) (ts : List Data) :
    ts.foldl applyOne (some (status, telemetry)) =
      some (Data.statusAfter status ts, if ts.any Data.truthy then
        some (.object fun key => (Data.lastOwn ts key).or (Data.own telemetry key))
      else telemetry) := by
  induction ts using List.reverseRecOn with
  | nil => rfl
  | append_singleton ts t ih =>
    rw [List.foldl_append, ih, List.foldl_cons, List.foldl_nil, Data.statusAfter_concat, any_concat]
    show some (applyKnown t _) = _
    rw [applyKnown]
    cases ht : Data.truthy t with
    | true =>
      rw [if_pos rfl, Bool.or_true, if_pos rfl, Data.spread]
      have hown : ∀ key, Data.own (if ts.any Data.truthy then
          some (.object fun key => (Data.lastOwn ts key).or (Data.own telemetry key))
        else telemetry) key = (Data.lastOwn ts key).or (Data.own telemetry key) := by
        intro key
        split
        next => rfl
        next hnone => rw [lastOwn_of_any (Bool.not_eq_true _ ▸ hnone), Option.none_or]
      simp only [hown, Data.lastOwn_concat, Option.or_assoc]
    | false =>
      have hown := Data.own_of_falsy ht
      have hstatus : Data.truthy (Data.status t) = false := by
        rw [Data.status, hown]
        rfl
      rw [hstatus, Bool.or_false, if_neg Bool.false_ne_true, if_neg Bool.false_ne_true]
      simp only [Data.lastOwn_concat, hown, Option.none_or]

theorem truthy_coalesce_eq (ts : List Data) :
    Data.truthy (Data.coalesce ts) = ts.any Data.truthy := by
  rw [Bool.eq_iff_iff, Data.truthy_coalesce, List.any_eq_true]

/-- A known node after the buffer. -/
theorem applyOne_known (status telemetry : Data) (ts : List Data) :
    applyOne (some (status, telemetry)) (Data.coalesce ts) =
      some (if Data.truthy (Data.status (Data.coalesce ts)) then Data.status (Data.coalesce ts)
        else status, if ts.any Data.truthy then
        some (.object fun key => (Data.lastOwn ts key).or (Data.own telemetry key))
      else telemetry) := by
  show some (applyKnown _ _) = _
  rw [applyKnown, truthy_coalesce_eq]
  cases hts : ts.any Data.truthy with
  | true => rw [if_pos rfl, if_pos rfl, Data.spread, Data.own_coalesce]
  | false =>
    have hstatus : Data.status (Data.coalesce ts) = none := by
      rw [Data.status, Data.own_coalesce, lastOwn_of_any hts]
    rw [if_neg Bool.false_ne_true, if_neg Bool.false_ne_true, hstatus]
    rfl

/-- Messages that are `undefined` or `null` leave no node. -/
theorem foldl_dropWhile (ts : List Data) :
    ts.foldl applyOne none = (ts.dropWhile Data.nullish).foldl applyOne none := by
  induction ts with
  | nil => rfl
  | cons t ts ih =>
    rw [List.dropWhile_cons]
    split
    next ht =>
      rw [List.foldl_cons, ← ih]
      exact congrArg (ts.foldl applyOne) (if_pos ht)
    next => rfl

/-- ... and nothing in the buffer that another message does not replace. -/
theorem coalesce_dropWhile (ts : List Data) :
    (ts.dropWhile Data.nullish = [] ∧ Data.nullish (Data.coalesce ts) = true) ∨
      (ts.dropWhile Data.nullish ≠ [] ∧
        Data.coalesce ts = Data.coalesce (ts.dropWhile Data.nullish)) := by
  cases hdrop : ts.dropWhile Data.nullish with
  | nil => exact Or.inl ⟨rfl, Data.nullish_coalesce (List.dropWhile_eq_nil_iff.mp hdrop)⟩
  | cons t rest =>
    refine Or.inr ⟨List.cons_ne_nil _ _, ?_⟩
    have hfront : Data.truthy (Data.coalesce (ts.takeWhile Data.nullish)) = false :=
      Data.falsy_of_nullish (Data.nullish_coalesce fun u hu => List.mem_takeWhile_imp hu)
    rw [← List.takeWhile_append_dropWhile (p := Data.nullish) (l := ts), hdrop, Data.coalesce,
      List.foldl_append, List.foldl_cons]
    show rest.foldl _ (if Data.truthy (Data.coalesce _) then _ else t) = _
    rw [hfront]
    rfl

/-- A new node after the messages one by one. -/
theorem foldl_new {t : Data} (ht : Data.nullish t = false) (rest : List Data) :
    (t :: rest).foldl applyOne none =
      some (Data.statusAfter (some (.string (Utf16.ascii "ONLINE"))) (t :: rest),
        Data.newTelemetry t rest) := by
  have hfirst : applyOne none t = some (if Data.truthy (Data.status t) then Data.status t
      else some (.string (Utf16.ascii "ONLINE")), t) := if_neg (Bool.eq_false_iff.mp ht)
  rw [List.foldl_cons, hfirst, foldl_known]
  rfl

theorem nullish_newTelemetry {t : Data} (ht : Data.nullish t = false) (rest : List Data) :
    Data.nullish (Data.newTelemetry t rest) = false := by
  rw [Data.newTelemetry]
  split
  next => rfl
  next => exact ht

theorem applyNew_eq_iff {e status telemetry : Data} (htelemetry : Data.nullish telemetry = false) :
    applyNew e = some (status, telemetry) ↔
      (if Data.truthy (Data.status e) then Data.status e
        else some (.string (Utf16.ascii "ONLINE"))) = status ∧ e = telemetry := by
  unfold applyNew
  split
  next he =>
    refine iff_of_false (fun h => by cases h) ?_
    intro hgiven
    obtain ⟨-, rfl⟩ := hgiven
    rw [he] at htelemetry
    cases htelemetry
  next => rw [Option.some.injEq, Prod.mk.injEq]

/-- What a flush does to a node is what its messages do one by one, exactly if they fit. -/
theorem applyOne_coalesce_iff (v : Option (Data × Data)) (ts : List Data) :
    applyOne v (Data.coalesce ts) = ts.foldl applyOne v ↔ BatchFits v ts := by
  cases v with
  | some v =>
    rw [applyOne_known, foldl_known, Option.some.injEq, Prod.mk.injEq, Data.status_coalesce_iff]
    exact and_iff_left rfl
  | none =>
    unfold BatchFits
    rw [foldl_dropWhile]
    rcases coalesce_dropWhile ts with ⟨hdrop, hnullish⟩ | ⟨hdrop, hsame⟩
    · rw [hdrop]
      refine iff_of_true (if_pos hnullish) ⟨?_, ?_⟩
      · intro before t after heq
        exact absurd heq (by simp)
      · intro first middle last heq
        cases heq
    · rw [hsame]
      cases hcase : ts.dropWhile Data.nullish with
      | nil => exact absurd hcase hdrop
      | cons t rest =>
        have ht : Data.nullish t = false := by
          have hhead := List.head_dropWhile_not Data.nullish hdrop
          simp only [hcase, List.head_cons] at hhead
          exact hhead
        rw [foldl_new ht]
        show applyNew _ = _ ↔ _
        rw [applyNew_eq_iff (nullish_newTelemetry ht rest), Data.status_coalesce_iff,
          Data.telemetry_coalesce_iff]

/-! ## The valve and the store without it -/

section
variable {κ : Type} [DecidableEq κ]

/-- What reaches the store. -/
inductive ValveEvent (κ : Type) where
  | telemetry (id : κ) (data : Data)
  | hardware (metrics : Data)
  | flush

/-- The store behind the valve, the store that is flushed after every message, and the
telemetry since the last flush. -/
structure Twin (κ : Type) [DecidableEq κ] where
  valve : ValveSlice κ
  eager : ValveSlice κ
  batch : List (κ × Data)

def Twin.next (s : Twin κ) : ValveEvent κ → Twin κ
  | .telemetry id data =>
    { valve := enqueueTelemetry s.valve id data
      eager := flushPressureValve (enqueueTelemetry s.eager id data)
      batch := s.batch ++ [(id, data)] }
  | .hardware metrics =>
    { s with
      valve := enqueueHardware s.valve metrics
      eager := flushPressureValve (enqueueHardware s.eager metrics) }
  | .flush => { s with valve := flushPressureValve s.valve, batch := [] }

/-- Both from the same store. -/
def twin (store : ValveSlice κ) : Lts (Twin κ) (ValveEvent κ) where
  init := ⟨store, store, []⟩
  step s e := some (s.next e)

/-- The messages for one id. -/
def batchOf (batch : List (κ × Data)) (id : κ) : List Data :=
  (batch.filter fun message => message.1 = id).map Prod.snd

/-- A flush leaves the same nodes, with the same status and telemetry; and if it throws,
nothing that it discards would have changed the store. -/
def Transparent (s : Twin κ) : ValveEvent κ → Prop
  | .flush =>
    (∀ id, shown (flushPressureValve s.valve).nodes id = shown s.eager.nodes id) ∧
      (flushNodes s.valve.nodes s.valve.pendingTelemetry = none →
        ∀ id t, s.valve.pendingTelemetry.get? id = some t →
          Data.truthy t = false ∧ (shown s.valve.nodes id = none → Data.nullish t = true))
  | _ => True

/-- The messages for each node fit; and if those for a new one are all `undefined` or `null`,
no message of the flush would change the store. -/
def Fits (s : Twin κ) : ValveEvent κ → Prop
  | .flush =>
    (∀ id, BatchFits (shown s.valve.nodes id) (batchOf s.batch id)) ∧
      ((∃ id, shown s.valve.nodes id = none ∧ batchOf s.batch id ≠ [] ∧
          ∀ t ∈ batchOf s.batch id, Data.nullish t = true) →
        ∀ id, ∀ t ∈ batchOf s.batch id,
          Data.truthy t = false ∧ (shown s.valve.nodes id = none → Data.nullish t = true))
  | _ => True

/-- The buffer holds the batch, which the other store has applied. -/
structure Mirrors (s : Twin κ) : Prop where
  pending : ∀ id, s.valve.pendingTelemetry.get? id =
    if batchOf s.batch id = [] then none else some (Data.coalesce (batchOf s.batch id))
  eager : ∀ id, shown s.eager.nodes id =
    (batchOf s.batch id).foldl applyOne (shown s.valve.nodes id)
  drained : ∀ id, s.eager.pendingTelemetry.get? id = none

/-! ### Flushing -/

theorem flush_of_throw {s : ValveSlice κ} (h : flushNodes s.nodes s.pendingTelemetry = none) :
    (flushPressureValve s).nodes = s.nodes := by
  unfold flushPressureValve
  split
  next => rfl
  next => rw [h]

theorem flush_of_done {s : ValveSlice κ} {nodes : List (WarRoomNode κ)}
    (h : flushNodes s.nodes s.pendingTelemetry = some nodes) (id : κ) :
    shown (flushPressureValve s).nodes id =
      (s.pendingTelemetry.get? id).elim (shown s.nodes id) (applyOne (shown s.nodes id)) := by
  rw [← shown_flushNodes h id]
  unfold flushPressureValve
  split
  next hclean =>
    have hnone : s.pendingTelemetry.get? id = none := by
      rw [OrderedMap.get?, hclean.1]
      rfl
    rw [shown_flushNodes h id, hnone]
    rfl
  next =>
    rw [h]
    dsimp only
    split
    next => rfl
    next => rfl

/-- A flush empties the buffer, whether it throws or not. -/
theorem flush_drains (s : ValveSlice κ) (id : κ) :
    (flushPressureValve s).pendingTelemetry.get? id = none := by
  unfold flushPressureValve
  split
  next hclean =>
    rw [OrderedMap.get?, hclean.1]
    rfl
  next =>
    split
    next => rfl
    next =>
      dsimp only
      split
      next => rfl
      next => rfl

theorem batchOf_concat (batch : List (κ × Data)) (id id' : κ) (data : Data) :
    batchOf (batch ++ [(id, data)]) id' =
      if id = id' then batchOf batch id' ++ [data] else batchOf batch id' := by
  unfold batchOf
  rw [List.filter_append, List.map_append]
  by_cases hid : id = id'
  · simp only [hid, decide_true, List.filter_cons_of_pos, List.filter_nil, List.map_cons,
      List.map_nil, if_true]
  · rw [if_neg hid, List.filter_cons_of_neg (by simpa using hid)]
    exact List.append_nil _

/-- The store without the valve applies each message. -/
theorem shown_eager {s : ValveSlice κ} (hdrained : ∀ id, s.pendingTelemetry.get? id = none) (id : κ)
    (data : Data) (id' : κ) :
    shown (flushPressureValve (enqueueTelemetry s id data)).nodes id' =
      if id = id' then applyOne (shown s.nodes id') data else shown s.nodes id' := by
  have hpending : ∀ id', (enqueueTelemetry s id data).pendingTelemetry.get? id' =
      if id' = id then some data else none := by
    intro id'
    unfold enqueueTelemetry
    dsimp only
    rw [OrderedMap.get?_set, hdrained id, hdrained id']
    rfl
  cases hflush : flushNodes s.nodes (enqueueTelemetry s id data).pendingTelemetry with
  | none =>
    rw [flush_of_throw (s := enqueueTelemetry s id data) hflush]
    show shown s.nodes id' = _
    obtain ⟨culprit, t, hget, hunknown, hnullish⟩ := (flushNodes_none_iff _ _).mp hflush
    rw [hpending] at hget
    split at hget
    next hculprit =>
      obtain rfl := Option.some.inj hget
      split
      next hid =>
        rw [← hid, ← hculprit, hunknown]
        exact (if_pos hnullish).symm
      next => rfl
    next => cases hget
  | some nodes =>
    rw [flush_of_done (s := enqueueTelemetry s id data) hflush, hpending]
    show Option.elim _ (shown s.nodes id') _ = _
    by_cases hid : id = id'
    · rw [if_pos hid.symm, if_pos hid]
      rfl
    · rw [if_neg (Ne.symm hid), if_neg hid]
      rfl

/-! ### Steps -/

theorem mirrors_telemetry {s : Twin κ} (h : Mirrors s) (id : κ) (data : Data) :
    Mirrors (s.next (.telemetry id data)) where
  pending := by
    intro id'
    show (enqueueTelemetry s.valve id data).pendingTelemetry.get? id' =
      if batchOf (s.batch ++ [(id, data)]) id' = [] then none
      else some (Data.coalesce (batchOf (s.batch ++ [(id, data)]) id'))
    unfold enqueueTelemetry
    dsimp only
    rw [OrderedMap.get?_set, batchOf_concat, h.pending id, h.pending id']
    by_cases hid : id' = id
    · have hbuffer : (if batchOf s.batch id = [] then none
          else some (Data.coalesce (batchOf s.batch id))).join
            = Data.coalesce (batchOf s.batch id) := by
        split
        next hempty =>
          rw [hempty]
          rfl
        next => rfl
      rw [if_pos hid, if_pos hid.symm, hid, if_neg (List.concat_ne_nil _ _), hbuffer,
        Data.coalesce_concat]
    · rw [if_neg hid, if_neg (Ne.symm hid)]
  eager := by
    intro id'
    show shown (flushPressureValve (enqueueTelemetry s.eager id data)).nodes id' =
      (batchOf (s.batch ++ [(id, data)]) id').foldl applyOne (shown s.valve.nodes id')
    rw [shown_eager h.drained, batchOf_concat, h.eager id']
    split
    next => rw [List.foldl_append, List.foldl_cons, List.foldl_nil]
    next => rfl
  drained := flush_drains _

theorem mirrors_hardware {s : Twin κ} (h : Mirrors s) (metrics : Data) :
    Mirrors (s.next (.hardware metrics)) where
  pending := h.pending
  eager := by
    intro id
    show shown (flushPressureValve (enqueueHardware s.eager metrics)).nodes id =
      (batchOf s.batch id).foldl applyOne (shown s.valve.nodes id)
    have hdrained : ∀ id, (enqueueHardware s.eager metrics).pendingTelemetry.get? id = none :=
      h.drained
    cases hflush : flushNodes (enqueueHardware s.eager metrics).nodes
        (enqueueHardware s.eager metrics).pendingTelemetry with
    | none => rw [flush_of_throw hflush, ← h.eager id]; rfl
    | some nodes => rw [flush_of_done hflush, hdrained, ← h.eager id]; rfl
  drained := flush_drains _

/-- After a flush that is transparent, there is nothing to apply. -/
theorem mirrors_flush {s : Twin κ} (h : Mirrors s)
    (hsame : ∀ id, shown (flushPressureValve s.valve).nodes id = shown s.eager.nodes id) :
    Mirrors (s.next .flush) where
  pending := flush_drains s.valve
  eager := fun id => (hsame id).symm
  drained := h.drained

/-- A batch leaves no new node exactly if all its messages are `undefined` or `null`. -/
theorem foldl_none_iff (ts : List Data) :
    ts.foldl applyOne none = none ↔ ∀ t ∈ ts, Data.nullish t = true := by
  rw [foldl_dropWhile, ← List.dropWhile_eq_nil_iff]
  cases hdrop : ts.dropWhile Data.nullish with
  | nil => exact iff_of_true rfl rfl
  | cons t rest =>
    have ht : Data.nullish t = false := by
      have hne : ts.dropWhile Data.nullish ≠ [] := by
        rw [hdrop]
        exact List.cons_ne_nil _ _
      have hhead := List.head_dropWhile_not Data.nullish hne
      simp only [hdrop, List.head_cons] at hhead
      exact hhead
    rw [foldl_new ht]
    exact iff_of_false (fun h => by cases h) (List.cons_ne_nil _ _)

/-- A buffered update that counts as false does nothing to a known node. -/
theorem applyOne_falsy {v : Option (Data × Data)} {t : Data} (ht : Data.truthy t = false)
    (hnullish : v = none → Data.nullish t = true) : applyOne v t = v := by
  cases v with
  | none => exact if_pos (hnullish rfl)
  | some v =>
    show some (applyKnown t v) = some v
    rw [applyKnown, ht]
    rfl

/-- One flush. -/
theorem transparent_flush_iff {s : Twin κ} (h : Mirrors s) :
    Transparent s .flush ↔ Fits s .flush := by
  have hpending : ∀ {id t}, s.valve.pendingTelemetry.get? id = some t →
      batchOf s.batch id ≠ [] ∧ t = Data.coalesce (batchOf s.batch id) := by
    intro id t hget
    rw [h.pending] at hget
    split at hget
    next => cases hget
    next hbatch => exact ⟨hbatch, (Option.some.inj hget).symm⟩
  have hfiled : ∀ {id}, batchOf s.batch id ≠ [] →
      s.valve.pendingTelemetry.get? id = some (Data.coalesce (batchOf s.batch id)) := by
    intro id hbatch
    rw [h.pending, if_neg hbatch]
  have hfits := fun id => applyOne_coalesce_iff (shown s.valve.nodes id) (batchOf s.batch id)
  unfold Transparent Fits
  dsimp only
  cases hflush : flushNodes s.valve.nodes s.valve.pendingTelemetry with
  | some nodes =>
    have hquiet : ¬ ∃ id, shown s.valve.nodes id = none ∧ batchOf s.batch id ≠ [] ∧
        ∀ t ∈ batchOf s.batch id, Data.nullish t = true := by
      intro hgiven
      obtain ⟨id, hunknown, hbatch, hall⟩ := hgiven
      have hthrows := (flushNodes_none_iff s.valve.nodes s.valve.pendingTelemetry).mpr
        ⟨id, _, hfiled hbatch, hunknown, Data.nullish_coalesce hall⟩
      rw [hflush] at hthrows
      cases hthrows
    rw [and_iff_left (fun hnone => by cases hnone), and_iff_left (fun hone => absurd hone hquiet)]
    refine forall_congr' fun id => ?_
    rw [← hfits id, flush_of_done hflush, h.eager id, h.pending id]
    split
    next hbatch =>
      rw [hbatch]
      exact iff_of_true rfl (applyOne_falsy rfl fun _ => rfl)
    next => exact Iff.rfl
  | none =>
    rw [flush_of_throw hflush]
    obtain ⟨culprit, t, hget, hunknown, hnullish⟩ := (flushNodes_none_iff _ _).mp hflush
    obtain ⟨hbatch, rfl⟩ := hpending hget
    -- the messages of a new node whose buffer is nullish are so, if they fit
    have hall : ∀ {id}, BatchFits (shown s.valve.nodes id) (batchOf s.batch id) →
        shown s.valve.nodes id = none → Data.nullish (Data.coalesce (batchOf s.batch id)) = true →
          ∀ t ∈ batchOf s.batch id, Data.nullish t = true := by
      intro id hid hnone hbuffer
      have hsame := (hfits id).mpr hid
      rw [hnone] at hsame
      exact (foldl_none_iff _).mp (hsame.symm.trans (if_pos hbuffer))
    constructor
    · intro hgiven
      obtain ⟨hsame, hspares⟩ := hgiven
      have hspares := hspares rfl
      have hid : ∀ id, BatchFits (shown s.valve.nodes id) (batchOf s.batch id) := by
        intro id
        refine (hfits id).mp ?_
        rw [← h.eager id, ← hsame id]
        by_cases hempty : batchOf s.batch id = []
        · rw [hempty]
          exact applyOne_falsy rfl fun _ => rfl
        · exact applyOne_falsy (hspares id _ (hfiled hempty)).1 (hspares id _ (hfiled hempty)).2
      refine ⟨hid, fun _ id t ht => ?_⟩
      obtain ⟨hfalsy, hnew⟩ := hspares id _ (hfiled (List.ne_nil_of_mem ht))
      refine ⟨?_, fun hnone => hall (hid id) hnone (hnew hnone) t ht⟩
      rw [truthy_coalesce_eq, List.any_eq_false] at hfalsy
      exact Bool.not_eq_true _ ▸ hfalsy t ht
    · intro hgiven
      obtain ⟨hid, hblank⟩ := hgiven
      have hquiet := hblank ⟨culprit, hunknown, hbatch, hall (hid culprit) hunknown hnullish⟩
      have hfalsy : ∀ id, Data.truthy (Data.coalesce (batchOf s.batch id)) = false := by
        intro id
        rw [truthy_coalesce_eq, List.any_eq_false]
        intro t ht
        rw [(hquiet id t ht).1]
        exact Bool.false_ne_true
      have hnew : ∀ id, shown s.valve.nodes id = none →
          Data.nullish (Data.coalesce (batchOf s.batch id)) = true :=
        fun id hnone => Data.nullish_coalesce fun t ht => (hquiet id t ht).2 hnone
      constructor
      · intro id
        rw [h.eager id, ← (hfits id).mpr (hid id)]
        exact (applyOne_falsy (hfalsy id) (hnew id)).symm
      · intro _ id t hget
        obtain ⟨-, rfl⟩ := hpending hget
        exact ⟨hfalsy id, hnew id⟩

/-- For every sequence of messages and flushes from a store with an empty buffer: every flush
is transparent, exactly if the messages of every flush fit. -/
theorem valve_transparent_iff (store : ValveSlice κ)
    (hdrained : store.pendingTelemetry = .empty) (events : List (ValveEvent κ)) :
    (twin store).Along Transparent (twin store).init events ↔
      (twin store).Along Fits (twin store).init events := by
  have hstart : Mirrors (twin store).init := by
    have hnone : ∀ id, store.pendingTelemetry.get? id = none := by
      intro id
      rw [hdrained]
      rfl
    exact ⟨hnone, fun _ => rfl, hnone⟩
  refine Lts.along_congr (I := Mirrors) ?_ ?_ events hstart
  · intro s e h
    cases e with
    | telemetry id data => exact Iff.rfl
    | hardware metrics => exact Iff.rfl
    | flush => exact transparent_flush_iff h
  · intro s e t h hfits hstep
    obtain rfl := Option.some.inj hstep
    cases e with
    | telemetry id data => exact mirrors_telemetry h id data
    | hardware metrics => exact mirrors_hardware h metrics
    | flush => exact mirrors_flush h ((transparent_flush_iff h).mpr hfits).1

end

/-! ## A message without data -/

/-- The store of a cockpit that has just been opened. -/
def openedCockpit : ValveSlice Nat where
  nodes := [⟨0, .text (some (.string (Utf16.ascii "VPC_SYSTEM_READY"))),
    some (.string (Utf16.ascii "SYNCHRONIZING")), none⟩]
  hardware := some .null
  flushCount := 0
  pendingTelemetry := .empty
  pendingHardware := some .null
  pendingHardwareDirty := false

/-- `{ status: text }`. -/
def statusOnly (text : String) : Data :=
  some (.object fun key =>
    if key = Utf16.ascii "status" then some (.string (Utf16.ascii text)) else none)

/-- One message and its flush. -/
theorem single_message_transparent :
    (twin openedCockpit).Along Transparent (twin openedCockpit).init
      [.telemetry 0 (statusOnly "ONLINE"), .flush] := by
  refine (valve_transparent_iff openedCockpit rfl _).mpr ⟨trivial, ⟨?_, ?_⟩, trivial⟩
  · intro id
    show BatchFits (shown openedCockpit.nodes id) (batchOf ([] ++ [(0, statusOnly "ONLINE")]) id)
    rw [batchOf_concat]
    by_cases hid : 0 = id
    · subst hid
      rw [if_pos rfl]
      intro before t after heq _ _
      have hlength := congrArg List.length heq
      have hafter : after = [] := by
        refine List.eq_nil_of_length_eq_zero ?_
        simp only [batchOf, List.filter_nil, List.map_nil, List.length_append, List.length_cons,
          List.length_nil] at hlength
        omega
      refine Or.inl fun u hu => ?_
      rw [hafter] at hu
      exact absurd hu List.not_mem_nil
    · rw [if_neg hid]
      have hunknown : shown openedCockpit.nodes id = none := by
        rw [shown_eq_none_iff]
        intro hmem
        exact hid (List.mem_singleton.mp hmem).symm
      rw [hunknown]
      refine ⟨?_, ?_⟩
      · intro before t after heq
        exact absurd heq.symm (List.append_ne_nil_of_right_ne_nil _ (List.cons_ne_nil _ _))
      · intro first middle last heq
        cases heq
  · intro hgiven
    obtain ⟨id, hunknown, hbatch, -⟩ := hgiven
    change batchOf ([] ++ [(0, statusOnly "ONLINE")]) id ≠ [] at hbatch
    rw [batchOf_concat] at hbatch
    by_cases hid : 0 = id
    · subst hid
      cases hunknown
    · rw [if_neg hid] at hbatch
      exact absurd rfl hbatch

/-- The message of a new node has no data, and the update of the other node is lost with it. -/
theorem missing_data_discards :
    ¬ (twin openedCockpit).Along Transparent (twin openedCockpit).init
      [.telemetry 1 none, .telemetry 0 (statusOnly "ONLINE"), .flush] := by
  intro hgiven
  obtain ⟨-, -, ⟨hsame, -⟩, -⟩ := hgiven
  have hshown := congrArg (Option.map Prod.fst) (hsame 0)
  have hvalve : (shown (flushPressureValve ((twin openedCockpit).init.next (.telemetry 1 none)
      |>.next (.telemetry 0 (statusOnly "ONLINE"))).valve).nodes 0).map Prod.fst
        = some (some (.string (Utf16.ascii "SYNCHRONIZING"))) := rfl
  have heager : (shown ((twin openedCockpit).init.next (.telemetry 1 none)
      |>.next (.telemetry 0 (statusOnly "ONLINE"))).eager.nodes 0).map Prod.fst
        = some (some (.string (Utf16.ascii "ONLINE"))) := rfl
  have hboth := (hvalve.symm.trans hshown).trans heager
  have htexts := Value.string.inj (Option.some.inj (Option.some.inj hboth))
  exact absurd htexts (by decide)

end Kovael.Cockpit
