import Kovael.Supervisor.Runtimes

/-!
# A record and its children

`Safe` is what holds between a record and the children that were spawned for it:
the managed child is the last of them and carries the record's generation, and
every other one has exited, has failed or was told to stop.

Children only get older (`Aged`), apart from new ones of the agent that is worked
on (`Grows`); `Safe` survives both, and the callbacks and signals keep it. That
a callback leaves newer children alone needs no invariant: it compares the child
and the generation it was made for (`Called.stale`).
-/

namespace Kovael.Supervisor

open Js (OrderedMap)

variable {cfg : SupervisorConfig} {host : RecordHost} {a b : String} {r r' : RuntimeRecord}
  {w w' w'' : World}

/-! ## Children only get older -/

/-- The child is done with, or was told to be. -/
def Child.spent (c : Child) : Prop := c.exited = true ∨ c.errored = true ∨ .sigterm ∈ c.signals

/-- The same child, some time later. -/
structure Later (c c' : Child) : Prop where
  agentId : c'.agentId = c.agentId
  generation : c'.generation = c.generation
  spent : c.spent → c'.spent

theorem Later.rfl {c : Child} : Later c c := ⟨.refl _, .refl _, id⟩

theorem Later.trans {c c' c'' : Child} (h : Later c c') (h' : Later c' c'') : Later c c'' :=
  ⟨h'.agentId.trans h.agentId, h'.generation.trans h.generation, fun ho => h'.spent (h.spent ho)⟩

/-- The same children, some time later. -/
structure Aged (w w' : World) : Prop where
  forward : ∀ id c, w.children.get? id = some c →
    ∃ c', w'.children.get? id = some c' ∧ Later c c'
  back : ∀ id c', w'.children.get? id = some c' → ∃ c, w.children.get? id = some c
  next : w'.nextChild = w.nextChild

/-- The same children some time later, and new ones of this agent. -/
structure Grows (a : String) (w w' : World) : Prop where
  forward : ∀ id c, w.children.get? id = some c →
    ∃ c', w'.children.get? id = some c' ∧ Later c c'
  back : ∀ id c', w'.children.get? id = some c' →
    (∃ c, w.children.get? id = some c) ∨ c'.agentId = a

theorem Aged.of_children (hchildren : w'.children = w.children)
    (hnext : w'.nextChild = w.nextChild) : Aged w w' where
  forward id c hc := ⟨c, by rw [hchildren]; exact hc, .rfl⟩
  back id c' hc := ⟨c', by rw [← hchildren]; exact hc⟩
  next := hnext

theorem Aged.trans (h : Aged w w') (h' : Aged w' w'') : Aged w w'' where
  forward id c hc := by
    obtain ⟨c', hc', hl⟩ := h.forward id c hc
    obtain ⟨c'', hc'', hl'⟩ := h'.forward id c' hc'
    exact ⟨c'', hc'', hl.trans hl'⟩
  back id c'' hc := by
    obtain ⟨c', hc'⟩ := h'.back id c'' hc
    exact h.back id c' hc'
  next := h'.next.trans h.next

theorem Aged.grows (h : Aged w w') (a : String) : Grows a w w' :=
  ⟨h.forward, fun id c' hc => Or.inl (h.back id c' hc)⟩

theorem Grows.trans (h : Grows a w w') (h' : Grows a w' w'') : Grows a w w'' where
  forward id c hc := by
    obtain ⟨c', hc', hl⟩ := h.forward id c hc
    obtain ⟨c'', hc'', hl'⟩ := h'.forward id c' hc'
    exact ⟨c'', hc'', hl.trans hl'⟩
  back id c'' hc := by
    rcases h'.back id c'' hc with ⟨c', hc'⟩ | hnew
    · rcases h.back id c' hc' with hold | hnew
      · exact Or.inl hold
      · obtain ⟨c₂, hc₂, hl⟩ := h'.forward id c' hc'
        rw [hc, Option.some.injEq] at hc₂
        exact Or.inr (hc₂ ▸ hl.agentId.trans hnew)
    · exact Or.inr hnew

/-- What a method does to a child that is there. -/
theorem onChild_aged {child : Nat} {f : Child → Child} (hf : ∀ c, Later c (f c)) :
    Aged w (w.onChild child f) where
  forward id c hc := by
    show ∃ c', (w.children.modify child f).get? id = some c' ∧ _
    rw [OrderedMap.get?_modify]
    by_cases hid : id = child
    · rw [if_pos hid, ← hid, hc]
      exact ⟨f c, rfl, hf c⟩
    · rw [if_neg hid]
      exact ⟨c, hc, .rfl⟩
  back id c' hc := by
    change (w.children.modify child f).get? id = some c' at hc
    rw [OrderedMap.get?_modify] at hc
    by_cases hid : id = child
    · rw [if_pos hid, Option.map_eq_some_iff] at hc
      obtain ⟨c, hold, -⟩ := hc
      exact ⟨c, hid ▸ hold⟩
    · rw [if_neg hid] at hc
      exact ⟨c', hc⟩
  next := rfl

theorem exited_later (c : Child) : Later c { c with exited := true } :=
  ⟨rfl, rfl, fun _ => Or.inl rfl⟩

theorem errored_later (c : Child) : Later c { c with errored := true } :=
  ⟨rfl, rfl, fun _ => Or.inr (Or.inl rfl)⟩

theorem signalled_later (signal : Signal) (c : Child) :
    Later c { c with signals := c.signals ++ [signal] } := by
  refine ⟨rfl, rfl, ?_⟩
  intro hcases
  rcases hcases with hexited | herrored | hsignal
  · exact Or.inl hexited
  · exact Or.inr (Or.inl herrored)
  · exact Or.inr (Or.inr (List.mem_append_left _ hsignal))

theorem clearTimeouts_children (timers : List Nat) :
    ∀ w : World, (timers.foldl World.clearTimeout w).children = w.children ∧
      (timers.foldl World.clearTimeout w).nextChild = w.nextChild ∧
      (timers.foldl World.clearTimeout w).log = w.log := by
  induction timers with
  | nil =>
    intro w
    exact ⟨rfl, rfl, rfl⟩
  | cons timer timers ih =>
    intro w
    exact ih (w.clearTimeout timer)

/-! ## The invariant -/

/-- A record and the children that were spawned for it. -/
structure Safe (a : String) (r : RuntimeRecord) (w : World) : Prop where
  generation : ∀ m, r.managed = some m → m.generation = r.generation
  child : ∀ m, r.managed = some m →
    ∃ c, w.children.get? m.child = some c ∧ c.agentId = a ∧ c.generation = m.generation
  last : ∀ m, r.managed = some m → ∀ id c, w.children.get? id = some c → c.agentId = a →
    id ≤ m.child
  others : ∀ id c, w.children.get? id = some c → c.agentId = a →
    (∀ m, r.managed = some m → m.child ≠ id) → c.spent

/-- Children are numbered as they are spawned. -/
def Fresh (w : World) : Prop := ∀ id c, w.children.get? id = some c → id < w.nextChild

theorem Aged.fresh (h : Aged w w') (hfresh : Fresh w) : Fresh w' := by
  intro id c' hc
  obtain ⟨c, hold⟩ := h.back id c' hc
  rw [h.next]
  exact hfresh id c hold

/-- Nothing happens to the children of other agents that their records notice. -/
theorem Safe.grow (h : Safe b r w) (hg : Grows a w w') (hne : b ≠ a) : Safe b r w' where
  generation := h.generation
  child m hm := by
    obtain ⟨c, hc, hagent, hgen⟩ := h.child m hm
    obtain ⟨c', hc', hl⟩ := hg.forward m.child c hc
    exact ⟨c', hc', hl.agentId.trans hagent, hl.generation.trans hgen⟩
  last m hm id c' hc' hagent := by
    rcases hg.back id c' hc' with ⟨c, hc⟩ | hnew
    · obtain ⟨c₂, hc₂, hl⟩ := hg.forward id c hc
      rw [hc', Option.some.injEq] at hc₂
      exact h.last m hm id c hc (by rw [← hl.agentId, ← hc₂, hagent])
    · exact absurd (hagent.symm.trans hnew) hne
  others id c' hc' hagent hold := by
    rcases hg.back id c' hc' with ⟨c, hc⟩ | hnew
    · obtain ⟨c₂, hc₂, hl⟩ := hg.forward id c hc
      rw [hc', Option.some.injEq] at hc₂
      rw [hc₂]
      exact hl.spent (h.others id c hc (by rw [← hl.agentId, ← hc₂, hagent]) hold)
    · exact absurd (hagent.symm.trans hnew) hne

/-- The children grow older, and the record keeps its own. -/
theorem Safe.aged (h : Safe a r w) (hg : Aged w w') (hmanaged : r'.managed = r.managed)
    (hgeneration : r'.generation = r.generation) : Safe a r' w' where
  generation m hm := by
    rw [hmanaged] at hm
    rw [hgeneration]
    exact h.generation m hm
  child m hm := by
    rw [hmanaged] at hm
    obtain ⟨c, hc, hagent, hgen⟩ := h.child m hm
    obtain ⟨c', hc', hl⟩ := hg.forward m.child c hc
    exact ⟨c', hc', hl.agentId.trans hagent, hl.generation.trans hgen⟩
  last m hm id c' hc' hagent := by
    rw [hmanaged] at hm
    obtain ⟨c, hc⟩ := hg.back id c' hc'
    obtain ⟨c₂, hc₂, hl⟩ := hg.forward id c hc
    rw [hc', Option.some.injEq] at hc₂
    exact h.last m hm id c hc (by rw [← hl.agentId, ← hc₂, hagent])
  others id c' hc' hagent hold := by
    rw [hmanaged] at hold
    obtain ⟨c, hc⟩ := hg.back id c' hc'
    obtain ⟨c₂, hc₂, hl⟩ := hg.forward id c hc
    rw [hc', Option.some.injEq] at hc₂
    rw [hc₂]
    exact hl.spent (h.others id c hc (by rw [← hl.agentId, ← hc₂, hagent]) hold)

/-- A record without a child has nothing of its own to keep. -/
theorem Safe.unmanaged (h : Safe a r w) (hnone : r.managed = none) (hnone' : r'.managed = none) :
    Safe a r' w where
  generation m hm := absurd (hnone'.symm.trans hm) (by simp)
  child m hm := absurd (hnone'.symm.trans hm) (by simp)
  last m hm := absurd (hnone'.symm.trans hm) (by simp)
  others id c hc hagent _ :=
    h.others id c hc hagent fun m hm => absurd (hnone.symm.trans hm) (by simp)

/-- The record lets go of a child that is over. -/
theorem Safe.release (h : Safe a r w) {m : ManagedRuntime} (hm : r.managed = some m) {c : Child}
    (hc : w.children.get? m.child = some c) (hover : c.spent) (hnone : r'.managed = none) :
    Safe a r' w where
  generation m hm := absurd (hnone.symm.trans hm) (by simp)
  child m hm := absurd (hnone.symm.trans hm) (by simp)
  last m hm := absurd (hnone.symm.trans hm) (by simp)
  others id c' hc' hagent _ := by
    by_cases hid : m.child = id
    · rw [← hid, hc, Option.some.injEq] at hc'
      exact hc' ▸ hover
    · refine h.others id c' hc' hagent ?_
      intro m' hm'
      rw [hm, Option.some.injEq] at hm'
      exact hm' ▸ hid

/-- A child is spawned for a record that has none. -/
theorem Safe.spawn (h : Safe a r w) (hnone : r.managed = none) (hfresh : Fresh w) {host' : String}
    {g : Nat} (hmanaged : r'.managed = some ⟨w.nextChild, g⟩) (hg : r'.generation = g) :
    Safe a r' (w.spawn a g host') := by
  have hold : ∀ id c, (w.spawn a g host').children.get? id = some c → id ≠ w.nextChild →
      w.children.get? id = some c := by
    intro id c hc hid
    exact (OrderedMap.get?_set_ne _ _ hid).symm.trans hc
  have hm : ∀ m, r'.managed = some m → m = ⟨w.nextChild, g⟩ := by
    intro m hm
    rw [hmanaged, Option.some.injEq] at hm
    exact hm.symm
  refine ⟨?_, ?_, ?_, ?_⟩
  · intro m hmm
    rw [hm m hmm, hg]
  · intro m hmm
    rw [hm m hmm]
    exact ⟨_, OrderedMap.get?_set_self .., rfl, rfl⟩
  · intro m hmm id c hc _
    rw [hm m hmm]
    by_cases hid : id = w.nextChild
    · exact Nat.le_of_eq hid
    · exact Nat.le_of_lt (hfresh id c (hold id c hc hid))
  · intro id c hc hagent hother
    have hid : id ≠ w.nextChild := fun hid => hother _ hmanaged hid.symm
    refine h.others id c (hold id c hc hid) hagent ?_
    intro m hm
    exact absurd (hnone.symm.trans hm) (by simp)

/-! ## Callbacks and signals -/

/-- Stopping the stop timer is all that `clearStopTimer` does. -/
theorem clearStopTimer_spec (r : RuntimeRecord) (w : World) :
    (clearStopTimer r w).1 = { r with stopTimer := none } ∧
      (clearStopTimer r w).2.children = w.children ∧
      (clearStopTimer r w).2.nextChild = w.nextChild ∧ (clearStopTimer r w).2.log = w.log := by
  unfold clearStopTimer
  split
  next h =>
    refine ⟨?_, rfl, rfl, rfl⟩
    rw [← h]
  next => exact ⟨rfl, rfl, rfl, rfl⟩

/-- A callback of a child that is not managed changes nothing. -/
theorem handleExit_stale {m : ManagedRuntime} {code : Option Int} {signal : Option String}
    {now : Int} (h : r.managed ≠ some m) : handleExit a m code signal now r w = (r, w) :=
  if_pos h

theorem handleError_stale {m : ManagedRuntime} {err : String} {now : Int}
    (h : r.managed ≠ some m) : handleError cfg a m err now r w = (r, w) :=
  if_pos h

theorem told_of_children (h : w'.children = w.children) (id : Nat) : w'.told id = w.told id := by
  rw [World.told, World.told, h]

/-- A child is told to stop by SIGTERM and by nothing else. -/
theorem told_onChild {child : Nat} {f : Child → Child}
    (hf : ∀ c, (f c).signals.contains .sigterm = c.signals.contains .sigterm) (id : Nat) :
    (w.onChild child f).told id = w.told id := by
  show ((w.children.modify child f).get? id).any _ = (w.children.get? id).any _
  rw [OrderedMap.get?_modify]
  split
  next hid =>
    rw [hid]
    cases w.children.get? child with
    | none => rfl
    | some c => exact hf c
  next => rfl

/-- Clearing the stop timer, and logging an end that nothing had asked for. -/
theorem noteAlone_spec (entry : Entry) (child : Nat) (r : RuntimeRecord) (w : World) :
    (if (clearStopTimer r w).2.told child then (clearStopTimer r w).2
      else (clearStopTimer r w).2.note entry).children = w.children ∧
    (if (clearStopTimer r w).2.told child then (clearStopTimer r w).2
      else (clearStopTimer r w).2.note entry).nextChild = w.nextChild ∧
    (if (clearStopTimer r w).2.told child then (clearStopTimer r w).2
      else (clearStopTimer r w).2.note entry).log
        = if w.told child then w.log else w.log ++ [entry] := by
  obtain ⟨-, hchildren, hnext, hlog⟩ := clearStopTimer_spec r w
  rw [told_of_children hchildren]
  cases w.told child with
  | true => exact ⟨hchildren, hnext, hlog⟩
  | false => exact ⟨hchildren, hnext, congrArg (· ++ [entry]) hlog⟩

/-- A callback of the managed child lets go of it, and logs what nothing had
asked for. -/
theorem handleExit_managed {m : ManagedRuntime} (h : r.managed = some m) (code : Option Int)
    (signal : Option String) (now : Int) (w : World) :
    (handleExit a m code signal now r w).1.managed = none ∧
      (handleExit a m code signal now r w).1.desiredState = r.desiredState ∧
      (handleExit a m code signal now r w).2.children = w.children ∧
      (handleExit a m code signal now r w).2.nextChild = w.nextChild ∧
      (handleExit a m code signal now r w).2.log
        = if w.told m.child then w.log else w.log ++ [.exitedAlone a] := by
  unfold handleExit
  rw [if_neg (not_not_intro h)]
  refine ⟨rfl, ?_, noteAlone_spec (.exitedAlone a) m.child r w⟩
  show (clearStopTimer r w).1.desiredState = r.desiredState
  rw [(clearStopTimer_spec r w).1]

theorem handleError_managed {m : ManagedRuntime} (h : r.managed = some m) (err : String)
    (now : Int) (w : World) :
    (handleError cfg a m err now r w).1.managed = none ∧
      (handleError cfg a m err now r w).1.desiredState = r.desiredState ∧
      (handleError cfg a m err now r w).2.children = w.children ∧
      (handleError cfg a m err now r w).2.nextChild = w.nextChild ∧
      (handleError cfg a m err now r w).2.log
        = if w.told m.child then w.log else w.log ++ [.spawnFailed a] := by
  unfold handleError
  rw [if_neg (not_not_intro h)]
  refine ⟨rfl, ?_, noteAlone_spec (.spawnFailed a) m.child r w⟩
  show (clearStopTimer r w).1.desiredState = r.desiredState
  rw [(clearStopTimer_spec r w).1]

/-- All that a callback of `child` can do to the record of its agent and to the
world. -/
inductive Called (a : String) (child : Nat) (r : RuntimeRecord) (w : World)
    (out : RuntimeRecord × World) : Prop where
  /-- The child is not there, or the event came before. -/
  | idle (hsame : out = (r, w))
  /-- The child is marked; the record does not manage it. -/
  | ignored {c : Child} {mark : Child → Child} (hmark : ∀ c, Later c (mark c))
      (hsignals : ∀ c, (mark c).signals = c.signals)
      (hm : r.managed ≠ some ⟨child, c.generation⟩) (hrecord : out.1 = r)
      (hchildren : out.2.children = (w.onChild child mark).children)
      (hnext : out.2.nextChild = w.nextChild) (hlog : out.2.log = w.log)
  /-- The child is marked and the record lets go of it. -/
  | letGo {c : Child} {mark : Child → Child} {entry : Entry}
      (hc : w.children.get? child = some c) (hmark : ∀ c, Later c (mark c))
      (hsignals : ∀ c, (mark c).signals = c.signals) (hspent : (mark c).spent)
      (hm : r.managed = some ⟨child, c.generation⟩) (hnone : out.1.managed = none)
      (hdesired : out.1.desiredState = r.desiredState)
      (hchildren : out.2.children = (w.onChild child mark).children)
      (hnext : out.2.nextChild = w.nextChild) (hentry : entry.agentId = a)
      (hnot : entry ≠ .start a)
      (hlog : out.2.log = if w.told child then w.log else w.log ++ [entry])

theorem emitExit_called {child : Nat} {code : Option Int} {signal : Option String} {now : Int} :
    Called a child r w (emitExit a child code signal now r w) := by
  unfold emitExit
  split
  next => exact .idle rfl
  next c hc =>
    split
    next => exact .idle rfl
    next =>
      obtain ⟨hclear, hclearNext, hclearLog⟩ := clearTimeouts_children c.exitTimers (handleExit a
        ⟨child, c.generation⟩ code signal now r (w.onChild child fun c =>
          { c with exited := true })).2
      by_cases hm : r.managed = some ⟨child, c.generation⟩
      · obtain ⟨hnone, hdesired, hchildren, hnext, hlog⟩ := handleExit_managed (a := a) hm code
          signal now (w.onChild child fun c => { c with exited := true })
        have hmarked : ∀ id, (w.onChild child fun c => { c with exited := true }).told id
            = w.told id := told_onChild fun _ => rfl
        rw [hmarked] at hlog
        exact .letGo hc exited_later (fun _ => rfl) (Or.inl rfl) hm hnone hdesired
          (hclear.trans hchildren) (hclearNext.trans hnext) rfl (by simp) (hclearLog.trans hlog)
      · rw [handleExit_stale hm] at hclear hclearNext hclearLog ⊢
        exact .ignored exited_later (fun _ => rfl) hm rfl hclear hclearNext hclearLog

theorem emitError_called {child : Nat} {err : String} {now : Int} :
    Called a child r w (emitError cfg a child err now r w) := by
  unfold emitError
  split
  next => exact .idle rfl
  next c hc =>
    split
    next => exact .idle rfl
    next =>
      by_cases hm : r.managed = some ⟨child, c.generation⟩
      · obtain ⟨hnone, hdesired, hchildren, hnext, hlog⟩ := @handleError_managed cfg a r _ hm err
          now (w.onChild child fun c => { c with errored := true })
        have hmarked : ∀ id, (w.onChild child fun c => { c with errored := true }).told id
            = w.told id := told_onChild fun _ => rfl
        rw [hmarked] at hlog
        exact .letGo hc errored_later (fun _ => rfl) (Or.inr (Or.inl rfl)) hm hnone hdesired
          hchildren hnext rfl (by simp) hlog
      · rw [handleError_stale hm]
        exact .ignored errored_later (fun _ => rfl) hm rfl rfl rfl rfl

/-- A signal is sent, and is a callback where the child goes inside `kill`. -/
theorem kill_called {child : Nat} {signal : Signal} {now : Int} :
    Called a child r (w.onChild child fun c => { c with signals := c.signals ++ [signal] })
      (kill cfg host a child signal now r w) := by
  unfold kill
  dsimp only
  split
  next => exact .idle rfl
  next => exact emitExit_called
  next => exact emitError_called

/-- The record and its children are in order, no child is lost and only this
agent gets a new one. -/
structure Keeps (a : String) (w : World) (out : RuntimeRecord × World) : Prop where
  safe : Safe a out.1 out.2
  fresh : Fresh out.2
  grows : Grows a w out.2

/-- A method that spawns nothing. -/
structure Ages (a : String) (w : World) (out : RuntimeRecord × World) : Prop where
  safe : Safe a out.1 out.2
  aged : Aged w out.2

theorem Ages.keeps {out : RuntimeRecord × World} (h : Ages a w out) (hfresh : Fresh w) :
    Keeps a w out :=
  ⟨h.safe, h.aged.fresh hfresh, h.aged.grows a⟩

theorem Safe.ages (h : Safe a r w) (hg : Aged w w') : Ages a w (r, w') :=
  ⟨h.aged hg rfl rfl, hg⟩

/-- What a callback lets go of is over. -/
theorem released_ages {child : Nat} {c : Child} {f : Child → Child} {out : RuntimeRecord × World}
    (h : Safe a r w) (hc : w.children.get? child = some c) (hf : ∀ c, Later c (f c))
    (hover : (f c).spent)
    (hmanaged : r.managed = some ⟨child, c.generation⟩)
    (hnone : out.1.managed = none) (hout : Aged (w.onChild child f) out.2) : Ages a w out := by
  have hw₁ : Aged w (w.onChild child f) := onChild_aged hf
  have hc₁ : (w.onChild child f).children.get? child = some (f c) := by
    show (w.children.modify child f).get? child = _
    rw [OrderedMap.get?_modify, if_pos rfl, hc]
    rfl
  have hsafe : Safe a { r with managed := none } (w.onChild child f) :=
    (h.aged hw₁ rfl rfl).release hmanaged hc₁ hover rfl
  exact ⟨(hsafe.aged hout rfl rfl).unmanaged rfl hnone, hw₁.trans hout⟩

theorem Called.ages {child : Nat} {out : RuntimeRecord × World} (h : Called a child r w out)
    (hsafe : Safe a r w) : Ages a w out := by
  cases h with
  | idle hsame =>
    rw [hsame]
    exact hsafe.ages (.of_children rfl rfl)
  | @ignored c mark hmark _ _ hrecord hchildren hnext _ =>
    have haged : Aged w out.2 := (onChild_aged hmark).trans (.of_children hchildren hnext)
    exact ⟨hsafe.aged haged (by rw [hrecord]) (by rw [hrecord]), haged⟩
  | letGo hc hmark _ hspent hm hnone _ hchildren hnext _ _ _ =>
    exact released_ages hsafe hc hmark hspent hm hnone (.of_children hchildren hnext)

/-- An event of a child that the record does not manage leaves the record as it
is. -/
theorem Called.stale {child : Nat} {out : RuntimeRecord × World} (h : Called a child r w out)
    (hother : ∀ m, r.managed = some m → m.child ≠ child) : out.1 = r ∧ Aged w out.2 := by
  cases h with
  | idle hsame =>
    rw [hsame]
    exact ⟨rfl, .of_children rfl rfl⟩
  | @ignored c mark hmark _ _ hrecord hchildren hnext _ =>
    exact ⟨hrecord, (onChild_aged hmark).trans (.of_children hchildren hnext)⟩
  | letGo _ _ _ _ hm => exact absurd rfl (hother _ hm)

/-- Whether the record manages the child or not, no other child changes. -/
theorem Called.children {child id : Nat} {out : RuntimeRecord × World}
    (h : Called a child r w out) (hid : id ≠ child) :
    out.2.children.get? id = w.children.get? id := by
  cases h with
  | idle hsame => rw [hsame]
  | ignored _ _ _ _ hchildren =>
    rw [hchildren]
    exact OrderedMap.get?_modify_ne _ _ hid
  | letGo _ _ _ _ _ _ _ hchildren =>
    rw [hchildren]
    exact OrderedMap.get?_modify_ne _ _ hid

theorem kill_ages {child : Nat} {signal : Signal} {now : Int} (h : Safe a r w) :
    Ages a w (kill cfg host a child signal now r w) := by
  have hsent : Aged w (w.onChild child fun c => { c with signals := c.signals ++ [signal] }) :=
    onChild_aged (signalled_later signal)
  obtain ⟨hs, hw⟩ := (@kill_called cfg host a r w child signal now).ages (h.aged hsent rfl rfl)
  exact ⟨hs, hsent.trans hw⟩

theorem kill_children {child id : Nat} {signal : Signal} {now : Int} (hid : id ≠ child) :
    (kill cfg host a child signal now r w).2.children.get? id = w.children.get? id :=
  (kill_called.children hid).trans (OrderedMap.get?_modify_ne _ _ hid)

end Kovael.Supervisor
