import Mathlib.Data.List.Basic

/-!
# Merkle trees that duplicate an odd node

The nodes of a level are combined in pairs, the last one with itself if it is left
over, until one is left. A root does not determine the number of its leaves, but two
lists of one length with one root are equal (`root_injective`) if `combine` binds the
pairs that the two trees combine; `pairs` lists these pairs.
-/

namespace Crypto.MerkleTree

variable {α : Type} (combine : α → α → α)

/-- The level above. -/
def nextLevel : List α → List α
  | [] => []
  | [x] => [combine x x]
  | x :: y :: rest => combine x y :: nextLevel rest

/-- The pairs that are combined for the level above. -/
def levelPairs : List α → List (α × α)
  | [] => []
  | [x] => [(x, x)]
  | x :: y :: rest => (x, y) :: levelPairs rest

theorem length_nextLevel : ∀ xs : List α, (nextLevel combine xs).length = (xs.length + 1) / 2
  | [] => by simp [nextLevel]
  | [_] => by simp [nextLevel]
  | _ :: _ :: rest => by
    rw [nextLevel, List.length_cons, length_nextLevel rest, List.length_cons, List.length_cons]
    omega

/-- The node that is left at the end. -/
def root : List α → Option α
  | [] => none
  | [x] => some x
  | x :: y :: rest => root (nextLevel combine (x :: y :: rest))
termination_by xs => xs.length
decreasing_by
  rw [length_nextLevel, List.length_cons, List.length_cons]
  omega

theorem root_eq_none_iff (xs : List α) : root combine xs = none ↔ xs = [] := by
  induction xs using root.induct combine with
  | case1 => simp [root]
  | case2 x => simp [root]
  | case3 x y rest ih =>
    rw [root, ih, nextLevel]
    simp

/-- All pairs that are combined on the way to the root. -/
def pairs : List α → List (α × α)
  | [] => []
  | [_] => []
  | x :: y :: rest =>
    levelPairs (x :: y :: rest) ++ pairs (nextLevel combine (x :: y :: rest))
termination_by xs => xs.length
decreasing_by
  rw [length_nextLevel, List.length_cons, List.length_cons]
  omega

/-- What the leaves and the combined nodes are, the members of the pairs are. -/
theorem levelPairs_forall {Q : α → Prop} :
    ∀ {xs : List α}, (∀ x ∈ xs, Q x) → ∀ p ∈ levelPairs xs, Q p.1 ∧ Q p.2
  | [], _ => fun _ hp => absurd hp List.not_mem_nil
  | [x], hxs => by
    intro p hp
    obtain rfl := List.mem_singleton.mp hp
    exact ⟨hxs x (List.mem_singleton_self x), hxs x (List.mem_singleton_self x)⟩
  | x :: y :: rest, hxs => by
    intro p hp
    rcases List.mem_cons.mp hp with rfl | hp
    · exact ⟨hxs x (by simp), hxs y (by simp)⟩
    · exact levelPairs_forall (fun z hz => hxs z (by simp [hz])) p hp

theorem nextLevel_forall {Q : α → Prop} (hcombine : ∀ x y, Q (combine x y)) :
    ∀ {xs : List α}, ∀ z ∈ nextLevel combine xs, Q z
  | [], _, hz => absurd hz List.not_mem_nil
  | [x], z, hz => by
    obtain rfl := List.mem_singleton.mp hz
    exact hcombine x x
  | x :: y :: rest, z, hz => by
    rcases List.mem_cons.mp hz with rfl | hz
    · exact hcombine x y
    · exact nextLevel_forall hcombine z hz

theorem pairs_forall {Q : α → Prop} (hcombine : ∀ x y, Q (combine x y)) (xs : List α) :
    (∀ x ∈ xs, Q x) → ∀ p ∈ pairs combine xs, Q p.1 ∧ Q p.2 := by
  induction xs using pairs.induct combine with
  | case1 =>
    intro _ p hp
    rw [pairs] at hp
    exact absurd hp List.not_mem_nil
  | case2 x =>
    intro _ p hp
    rw [pairs] at hp
    exact absurd hp List.not_mem_nil
  | case3 x y rest ih =>
    intro hxs p hp
    rw [pairs] at hp
    rcases List.mem_append.mp hp with hp | hp
    · exact levelPairs_forall hxs p hp
    · exact ih (nextLevel_forall combine hcombine) p hp

section

variable {combine} {P : α × α → Prop}
  (hinj : ∀ p q, P p → P q → combine p.1 p.2 = combine q.1 q.2 → p = q)
include hinj

/-- A level binds the level below. -/
theorem nextLevel_injective : ∀ {xs ys : List α}, xs.length = ys.length →
    (∀ p ∈ levelPairs xs, P p) → (∀ p ∈ levelPairs ys, P p) →
    nextLevel combine xs = nextLevel combine ys → xs = ys
  | [], [], _, _, _, _ => rfl
  | [x], [y], _, hxs, hys, h => by
    have hpair : (x, x) = (y, y) :=
      hinj _ _ (hxs _ (List.mem_singleton_self _)) (hys _ (List.mem_singleton_self _))
        (List.cons.inj h).1
    rw [(Prod.mk.inj hpair).1]
  | x :: x' :: xs, y :: y' :: ys, hlen, hxs, hys, h => by
    obtain ⟨hfirst, hrest⟩ := List.cons.inj h
    have hpair : (x, x') = (y, y') :=
      hinj _ _ (hxs _ (List.mem_cons_self ..)) (hys _ (List.mem_cons_self ..)) hfirst
    obtain ⟨rfl, rfl⟩ := Prod.mk.inj hpair
    have hlen' : xs.length = ys.length := by
      simp only [List.length_cons] at hlen
      omega
    rw [nextLevel_injective hlen' (fun p hp => hxs p (List.mem_cons_of_mem _ hp))
      (fun p hp => hys p (List.mem_cons_of_mem _ hp)) hrest]
  | [], _ :: _, hlen, _, _, _ => by simp at hlen
  | _ :: _, [], hlen, _, _, _ => by simp at hlen
  | [_], _ :: _ :: _, hlen, _, _, _ => by simp at hlen
  | _ :: _ :: _, [_], hlen, _, _, _ => by simp at hlen

/-- Lists of one length with one root are equal. The induction follows the levels of
the first tree, the second has the same number of nodes on each. -/
theorem root_injective (xs : List α) :
    ∀ {ys : List α}, xs.length = ys.length → (∀ p ∈ pairs combine xs, P p) →
      (∀ p ∈ pairs combine ys, P p) → root combine xs = root combine ys → xs = ys := by
  induction xs using root.induct combine with
  | case1 =>
    intro ys hlen _ _ _
    exact (List.length_eq_zero_iff.mp hlen.symm).symm
  | case2 x =>
    intro ys hlen _ _ h
    obtain ⟨y, rfl⟩ := List.length_eq_one_iff.mp hlen.symm
    rw [root, root, Option.some.injEq] at h
    rw [h]
  | case3 x x' xs ih =>
    intro ys hlen hxs hys h
    cases ys with
    | nil => simp at hlen
    | cons y ys =>
      cases ys with
      | nil => simp at hlen
      | cons y' ys =>
        rw [pairs] at hxs hys
        rw [root, root] at h
        have hlevel : nextLevel combine (x :: x' :: xs) = nextLevel combine (y :: y' :: ys) := by
          refine ih ?_ ?_ ?_ h
          · rw [length_nextLevel, length_nextLevel, hlen]
          · exact fun p hp => hxs p (List.mem_append_right _ hp)
          · exact fun p hp => hys p (List.mem_append_right _ hp)
        exact nextLevel_injective hinj hlen (fun p hp => hxs p (List.mem_append_left _ hp))
          (fun p hp => hys p (List.mem_append_left _ hp)) hlevel

end

end Crypto.MerkleTree
