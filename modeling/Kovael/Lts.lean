/-!
# Labelled transition systems with a partial step function

A system is an initial state and a step function: an event is either disabled
in a state (`none`) or leads to exactly one state, so all nondeterminism (which
party moves, what the clock reads, how an awaited call ends) is in the events.
`exec` runs a list of events; `Along P s es` says that every event of the list
meets `P` in the state it is taken in, `Sometime P s es` that one of them does.

The rules the developments use are `exec_invariant` (what a step preserves, a
run preserves) and `along_of_invariant` (what an invariant implies about one
step holds of every step of a run), both relative to a condition `C` on the
steps, `along_iff` (`Along`, said of the states that the run passes),
`exec_length_le` and `exists_stuck` (what a measure that every step decreases
says of the length of a run), and `add_tally_le` (what a measure that no step
lowers says of how often a run raises it).
-/

/-- An initial state and a partial step function. -/
structure Lts (σ ε : Type) where
  init : σ
  step : σ → ε → Option σ

namespace Lts

variable {σ ε : Type} (M : Lts σ ε)

/-- Take the events in order; `none` if one of them is disabled. -/
def exec : σ → List ε → Option σ
  | s, [] => some s
  | s, e :: es => (M.step s e).bind fun s' => exec s' es

/-- Every event meets `P` in the state it is taken in. -/
def Along (P : σ → ε → Prop) : σ → List ε → Prop
  | _, [] => True
  | s, e :: es =>
    P s e ∧
      match M.step s e with
      | none => True
      | some s' => Along P s' es

/-- Some event meets `P` in the state it is taken in. -/
def Sometime (P : σ → ε → Prop) : σ → List ε → Prop
  | _, [] => False
  | s, e :: es =>
    P s e ∨
      match M.step s e with
      | none => False
      | some s' => Sometime P s' es

/-- How many of the events meet `P` in the state they are taken in. -/
def tally (P : σ → ε → Bool) : σ → List ε → Nat
  | _, [] => 0
  | s, e :: es =>
    (if P s e then 1 else 0) +
      match M.step s e with
      | none => 0
      | some s' => tally P s' es

/-- A state some run from the initial state ends in. -/
def Reachable (s : σ) : Prop := ∃ es, M.exec M.init es = some s

instance decidableAlong (P : σ → ε → Prop) [∀ s e, Decidable (P s e)] :
    ∀ (s : σ) (es : List ε), Decidable (M.Along P s es)
  | _, [] => inferInstanceAs (Decidable True)
  | s, e :: es =>
    have : Decidable (match M.step s e with
        | none => True
        | some s' => M.Along P s' es) :=
      match M.step s e with
      | none => inferInstanceAs (Decidable True)
      | some s' => decidableAlong P s' es
    inferInstanceAs (Decidable (_ ∧ _))

variable {M}

@[simp] theorem exec_nil (s : σ) : M.exec s [] = some s := rfl

/-- A run that starts with `e` takes that step first. -/
theorem exec_cons {s s' : σ} {e : ε} {es : List ε} :
    M.exec s (e :: es) = some s' ↔ ∃ t, M.step s e = some t ∧ M.exec t es = some s' := by
  rw [exec, Option.bind_eq_some_iff]

/-- A run over `es ++ es'` passes through a state between the two. -/
theorem exec_append {s s' : σ} {es es' : List ε} :
    M.exec s (es ++ es') = some s' ↔ ∃ t, M.exec s es = some t ∧ M.exec t es' = some s' := by
  induction es generalizing s with
  | nil => simp
  | cons e es ih =>
    rw [List.cons_append]
    simp only [exec_cons, ih]
    constructor
    · intro hgiven
      obtain ⟨u, hu, t, ht, hs'⟩ := hgiven
      exact ⟨t, ⟨u, hu, ht⟩, hs'⟩
    · intro hgiven
      obtain ⟨t, ⟨u, hu, ht⟩, hs'⟩ := hgiven
      exact ⟨u, hu, t, ht, hs'⟩

theorem along_cons {P : σ → ε → Prop} {s t : σ} {e : ε} {es : List ε}
    (hstep : M.step s e = some t) : M.Along P s (e :: es) ↔ P s e ∧ M.Along P t es := by
  rw [Along, hstep]

theorem sometime_cons {P : σ → ε → Prop} {s t : σ} {e : ε} {es : List ε}
    (hstep : M.step s e = some t) : M.Sometime P s (e :: es) ↔ P s e ∨ M.Sometime P t es := by
  rw [Sometime, hstep]

/-- A condition on the events alone. -/
theorem along_of_forall {P : σ → ε → Prop} {es : List ε} (h : ∀ e ∈ es, ∀ s, P s e) (s : σ) :
    M.Along P s es := by
  induction es generalizing s with
  | nil => trivial
  | cons e es ih =>
    rw [Along]
    refine ⟨h e (List.mem_cons_self ..) s, ?_⟩
    cases M.step s e with
    | none => trivial
    | some t => exact ih (fun e' he' => h e' (List.mem_cons_of_mem _ he')) t

/-- `Along`, said of every event of the list and the state it is taken in. -/
theorem along_iff {P : σ → ε → Prop} {s : σ} {es : List ε} :
    M.Along P s es ↔
      ∀ pre e post t, es = pre ++ e :: post → M.exec s pre = some t → P t e := by
  induction es generalizing s with
  | nil =>
    constructor
    · intro _ pre e post t hes
      exact absurd hes (by simp)
    · intro _
      trivial
  | cons e es ih =>
    rw [Along]
    constructor
    · intro hgiven
      obtain ⟨he, hes⟩ := hgiven
      intro pre e' post t heq ht
      cases pre with
      | nil =>
        rw [List.nil_append, List.cons.injEq] at heq
        rw [exec_nil, Option.some.injEq] at ht
        rw [← ht, ← heq.1]
        exact he
      | cons e₀ pre =>
        rw [List.cons_append, List.cons.injEq] at heq
        obtain ⟨u, hu, hpre⟩ := exec_cons.mp ht
        rw [← heq.1] at hu
        rw [hu] at hes
        exact ih.mp hes pre e' post t heq.2 hpre
    · intro hall
      refine ⟨hall [] e es s rfl rfl, ?_⟩
      cases hst : M.step s e with
      | none => trivial
      | some u =>
        refine ih.mpr ?_
        intro pre e' post t heq hpre
        exact hall (e :: pre) e' post t (by rw [heq, List.cons_append])
          (exec_cons.mpr ⟨u, hst, hpre⟩)

/-- What every step preserves, a run preserves. -/
theorem exec_invariant {I : σ → Prop} {C : σ → ε → Prop}
    (hpres : ∀ s e t, I s → C s e → M.step s e = some t → I t) :
    ∀ (es : List ε) {s s' : σ}, I s → M.exec s es = some s' → M.Along C s es → I s'
  | [], s, s', hI, hrun, _ => by
    rw [exec_nil, Option.some.injEq] at hrun
    exact hrun ▸ hI
  | e :: es, s, s', hI, hrun, hC => by
    obtain ⟨t, hst, ht⟩ := exec_cons.mp hrun
    obtain ⟨hCe, hCt⟩ := (along_cons hst).mp hC
    exact exec_invariant hpres es (hpres s e t hI hCe hst) ht hCt

/-- What an invariant implies about the next step holds of every step. -/
theorem along_of_invariant {I : σ → Prop} {C P : σ → ε → Prop}
    (hpres : ∀ s e t, I s → C s e → M.step s e = some t → I t)
    (hP : ∀ s e, I s → C s e → P s e) :
    ∀ (es : List ε) {s : σ}, I s → M.Along C s es → M.Along P s es
  | [], _, _, _ => trivial
  | e :: es, s, hI, hC => by
    rw [Along] at hC ⊢
    refine ⟨hP s e hI hC.1, ?_⟩
    cases hst : M.step s e with
    | none => trivial
    | some t =>
      rw [hst] at hC
      exact along_of_invariant hpres hP es (hpres s e t hI hC.1 hst) hC.2

/-- When a step keeps `I` exactly if it meets `P`, a run keeps `I` throughout exactly
if all its steps meet `P`. -/
theorem forall_exec_iff_along {I : σ → Prop} {P : σ → ε → Prop}
    (hiff : ∀ s e t, I s → M.step s e = some t → (I t ↔ P s e)) :
    ∀ (es : List ε) {s s' : σ}, I s → M.exec s es = some s' →
      ((∀ pre post t, es = pre ++ post → M.exec s pre = some t → I t) ↔ M.Along P s es)
  | [], s, s', hI, _ => by
    refine ⟨fun _ => trivial, ?_⟩
    intro _ pre post t heq hpre
    obtain ⟨rfl, -⟩ := List.append_eq_nil_iff.mp heq.symm
    rw [exec_nil, Option.some.injEq] at hpre
    exact hpre ▸ hI
  | e :: es, s, s', hI, hrun => by
    obtain ⟨u, hu, hrest⟩ := exec_cons.mp hrun
    rw [along_cons hu]
    constructor
    · intro hall
      have hIu : I u := hall [e] es u rfl (exec_cons.mpr ⟨u, hu, rfl⟩)
      refine ⟨(hiff s e u hI hu).mp hIu, (forall_exec_iff_along hiff es hIu hrest).mp ?_⟩
      intro pre post t heq hpre
      exact hall (e :: pre) post t (by rw [heq, List.cons_append])
        (exec_cons.mpr ⟨u, hu, hpre⟩)
    · intro hgiven
      obtain ⟨hP, halong⟩ := hgiven
      intro pre post t heq hpre
      cases pre with
      | nil =>
        rw [exec_nil, Option.some.injEq] at hpre
        exact hpre ▸ hI
      | cons e' pre =>
        rw [List.cons_append, List.cons.injEq] at heq
        obtain ⟨rfl, heq⟩ := heq
        obtain ⟨v, hv, hpre⟩ := exec_cons.mp hpre
        rw [hu, Option.some.injEq] at hv
        subst hv
        have hIu := (hiff s e u hI hu).mpr hP
        exact (forall_exec_iff_along hiff es hIu hrest).mpr halong pre post t heq hpre

/-- Two conditions that agree wherever an invariant holds, which the second keeps. -/
theorem along_congr {I : σ → Prop} {P Q : σ → ε → Prop} (hiff : ∀ s e, I s → (P s e ↔ Q s e))
    (hpres : ∀ s e t, I s → Q s e → M.step s e = some t → I t) :
    ∀ (es : List ε) {s : σ}, I s → (M.Along P s es ↔ M.Along Q s es)
  | [], _, _ => Iff.rfl
  | e :: es, s, hI => by
    rw [Along, Along, hiff s e hI]
    refine and_congr_right fun hQ => ?_
    cases hst : M.step s e with
    | none => exact Iff.rfl
    | some t => exact along_congr hiff hpres es (hpres s e t hI hQ hst)

/-- A condition that is always met. -/
theorem along_true (es : List ε) (s : σ) : M.Along (fun _ _ => True) s es :=
  along_of_forall (fun _ _ _ => trivial) s

/-- A measure that every step decreases bounds the length of a run. -/
theorem exec_length_le {I : σ → Prop} (μ : σ → Nat)
    (hpres : ∀ s e t, I s → M.step s e = some t → I t)
    (hdec : ∀ s e t, I s → M.step s e = some t → μ t < μ s) :
    ∀ (es : List ε) {s s' : σ}, I s → M.exec s es = some s' → es.length + μ s' ≤ μ s
  | [], s, s', _, hrun => by
    rw [exec_nil, Option.some.injEq] at hrun
    have hzero : ([] : List ε).length + μ s' = μ s := by rw [hrun, List.length_nil, Nat.zero_add]
    exact Nat.le_of_eq hzero
  | e :: es, s, s', hI, hrun => by
    obtain ⟨t, hst, ht⟩ := exec_cons.mp hrun
    have hlt := hdec s e t hI hst
    have hle := exec_length_le μ hpres hdec es (hpres s e t hI hst) ht
    rw [List.length_cons]
    omega

/-- A measure that every step decreases lets no sequence of events go on: within
the measure one of them is disabled. -/
theorem exists_stuck {I : σ → Prop} (μ : σ → Nat)
    (hpres : ∀ s e t, I s → M.step s e = some t → I t)
    (hdec : ∀ s e t, I s → M.step s e = some t → μ t < μ s) :
    ∀ (k : Nat) (events : Nat → ε) {s : σ}, I s → μ s ≤ k →
      ∃ n ≤ k, ∃ t, M.exec s ((List.range n).map events) = some t ∧ M.step t (events n) = none
  | k, events, s, hI, hk => by
    cases hst : M.step s (events 0) with
    | none => exact ⟨0, Nat.zero_le k, s, rfl, hst⟩
    | some t =>
      have hlt := hdec s (events 0) t hI hst
      obtain ⟨k, rfl⟩ : ∃ j, k = j + 1 := ⟨k - 1, by omega⟩
      obtain ⟨n, hn, u, hu, hstuck⟩ :=
        exists_stuck μ hpres hdec k (fun n => events (n + 1)) (hpres s (events 0) t hI hst)
          (by omega)
      refine ⟨n + 1, by omega, u, ?_, hstuck⟩
      rw [List.range_succ_eq_map, List.map_cons, List.map_map]
      exact exec_cons.mpr ⟨t, hst, hu⟩

/-- A measure that no step lowers and that the events of one kind raise bounds their number. -/
theorem add_tally_le {I : σ → Prop} {C : σ → ε → Prop} {P : σ → ε → Bool} (μ : σ → Nat)
    (hpres : ∀ s e t, I s → C s e → M.step s e = some t → I t)
    (hrise : ∀ s e t, I s → C s e → M.step s e = some t →
      μ s + (if P s e then 1 else 0) ≤ μ t) :
    ∀ (es : List ε) {s s' : σ}, I s → M.exec s es = some s' → M.Along C s es →
      μ s + M.tally P s es ≤ μ s'
  | [], s, s', _, hrun, _ => by
    rw [exec_nil, Option.some.injEq] at hrun
    exact Nat.le_of_eq (congrArg μ hrun)
  | e :: es, s, s', hI, hrun, hC => by
    obtain ⟨t, hst, ht⟩ := exec_cons.mp hrun
    obtain ⟨hCe, hCt⟩ := (along_cons hst).mp hC
    have hstep := hrise s e t hI hCe hst
    have hrest := add_tally_le μ hpres hrise es (hpres s e t hI hCe hst) ht hCt
    rw [tally, hst]
    dsimp only
    omega

/-- Every reachable state satisfies what the initial state satisfies and every
step preserves. -/
theorem reachable_invariant {I : σ → Prop} (hinit : I M.init)
    (hpres : ∀ s e t, I s → M.step s e = some t → I t) {s : σ} (h : M.Reachable s) : I s := by
  obtain ⟨es, hes⟩ := h
  exact exec_invariant (C := fun _ _ => True) (fun s e t hI _ hst => hpres s e t hI hst) es hinit
    hes (along_true es _)

end Lts
