import Mathlib.Data.List.Infix

/-!
# Replacing in a text

`text.replace(regex, …)` with the flag `g`, over any units: a rule says what is matched at a
place, by the unit before and the text from there. `Replaced` is the run as a relation, for
inductions. Where a rule cuts, that is, where it keeps a beginning of what it matched and puts a
marked label behind it, a long text without the marks stands in the result only if it stood in
what was given (`Replaced.infix_of_cuts`), and the rule found nothing in it there
(`Replaced.occurrence`).
-/

namespace Js

namespace Replace

variable {α : Type}

/-- A match: how many units, and what stands there instead. -/
structure Hit (α : Type) where
  length : Nat
  text : List α

/-- What is matched, behind a unit or at the start, at the beginning of a text. -/
abbrev Rule (α : Type) := Option α → List α → Option (Hit α)

/-- All matches from the left are replaced; so many units are still of the last one. -/
def replaceFrom (rule : Rule α) : Option α → Nat → List α → List α
  | _, _, [] => []
  | _, n + 1, c :: cs => replaceFrom rule (some c) n cs
  | prev, 0, c :: cs =>
    match rule prev (c :: cs) with
    | some hit => hit.text ++ replaceFrom rule (some c) (hit.length - 1) cs
    | none => c :: replaceFrom rule (some c) 0 cs

/-- `text.replace(rule)`. -/
def replaceAll (rule : Rule α) (text : List α) : List α := replaceFrom rule none 0 text

/-- The rule matches no empty text. -/
def Positive (rule : Rule α) : Prop :=
  ∀ prev text hit, rule prev text = some hit → 0 < hit.length

/-! ## What is before a place -/

/-- The unit before what follows a text. -/
def behind (prev : Option α) (text : List α) : Option α := text.getLast?.or prev

@[simp] theorem behind_nil (prev : Option α) : behind prev [] = prev := rfl

@[simp] theorem behind_cons (prev : Option α) (c : α) (cs : List α) :
    behind prev (c :: cs) = behind (some c) cs := by
  rw [behind, behind, List.getLast?_cons, Option.some_or, Option.or_some]

theorem behind_append (prev : Option α) (xs ys : List α) :
    behind prev (xs ++ ys) = behind (behind prev xs) ys := by
  rw [behind, behind, behind, List.getLast?_append, Option.or_assoc]

theorem behind_of_ne_nil (prev prev' : Option α) {xs : List α} (h : xs ≠ []) :
    behind prev xs = behind prev' xs := by
  obtain ⟨c, cs, rfl⟩ := List.exists_cons_of_ne_nil h
  rw [behind_cons, behind_cons]

/-! ## The run as a relation -/

/-- What a run makes of a text, behind a unit or at the start. -/
inductive Replaced (rule : Rule α) : Option α → List α → List α → Prop
  | nil (prev : Option α) : Replaced rule prev [] []
  | keep {prev : Option α} {c : α} {cs out : List α} (hnone : rule prev (c :: cs) = none)
    (h : Replaced rule (some c) cs out) : Replaced rule prev (c :: cs) (c :: out)
  | hit {prev : Option α} {text out : List α} {hit : Hit α} (hsome : rule prev text = some hit)
    (h : Replaced rule (behind prev (text.take hit.length)) (text.drop hit.length) out) :
    Replaced rule prev text (hit.text ++ out)

variable {rule : Rule α}

theorem replaced_replaceFrom (hrule : Positive rule) (prev : Option α) (n : Nat) (text : List α) :
    Replaced rule (behind prev (text.take n)) (text.drop n) (replaceFrom rule prev n text) := by
  induction text generalizing prev n with
  | nil =>
    rw [List.take_nil, List.drop_nil]
    cases n with
    | zero => exact .nil prev
    | succ n => exact .nil prev
  | cons c cs ih =>
    cases n with
    | succ n =>
      rw [List.take_succ_cons, List.drop_succ_cons, behind_cons]
      exact ih (some c) n
    | zero =>
      rw [List.take_zero, List.drop_zero, behind_nil, replaceFrom]
      split
      next hit hsome =>
        -- the unit that is looked at is one of the hit's own
        have hlength : hit.length = hit.length - 1 + 1 := by
          have := hrule prev (c :: cs) hit hsome
          omega
        refine .hit hsome ?_
        rw [hlength, List.take_succ_cons, List.drop_succ_cons, behind_cons]
        exact ih (some c) (hit.length - 1)
      next hnone => exact .keep hnone (ih (some c) 0)

theorem replaced_replaceAll (hrule : Positive rule) (text : List α) :
    Replaced rule none text (replaceAll rule text) :=
  replaced_replaceFrom hrule none 0 text

/-! ## Where a rule finds nothing -/

/-- The rule finds nothing at the places of a text, behind a unit and before the rest. -/
def Untouched (rule : Rule α) : Option α → List α → List α → Prop
  | _, [], _ => True
  | prev, c :: cs, rest => rule prev (c :: (cs ++ rest)) = none ∧ Untouched rule (some c) cs rest

theorem untouched_append {prev : Option α} {xs ys rest : List α} :
    Untouched rule prev (xs ++ ys) rest ↔
      Untouched rule prev xs (ys ++ rest) ∧ Untouched rule (behind prev xs) ys rest := by
  induction xs generalizing prev with
  | nil => exact ⟨fun h => ⟨trivial, h⟩, fun h => h.2⟩
  | cons c xs ih =>
    rw [List.cons_append, Untouched, Untouched, behind_cons, ih, List.append_assoc, and_assoc]

/-- There the text stays as it is. -/
theorem replaceFrom_untouched {prev : Option α} {xs rest : List α}
    (h : Untouched rule prev xs rest) :
    replaceFrom rule prev 0 (xs ++ rest) = xs ++ replaceFrom rule (behind prev xs) 0 rest := by
  induction xs generalizing prev with
  | nil => rfl
  | cons c xs ih =>
    rw [List.cons_append, replaceFrom, h.1, behind_cons, List.cons_append, ← ih h.2]

theorem replaceAll_untouched {text : List α} (h : Untouched rule none text []) :
    replaceAll rule text = text := by
  have hstays := replaceFrom_untouched h
  rwa [List.append_nil, replaceFrom, List.append_nil] at hstays

/-- A rule that finds nothing where a text ends so. -/
theorem untouched_of_suffix {prev : Option α} {xs rest : List α}
    (h : ∀ prev c cs, c :: cs <:+ xs → rule prev (c :: (cs ++ rest)) = none) :
    Untouched rule prev xs rest := by
  induction xs generalizing prev with
  | nil => trivial
  | cons c xs ih =>
    exact ⟨h prev c xs List.suffix_rfl,
      ih fun prev d ds hds => h prev d ds (hds.trans (List.suffix_cons c xs))⟩

/-! ## Texts without a mark -/

/-- A text without an element ends before it, or begins behind it. -/
theorem split_of_append_cons {x : α} {w xs ys os rest : List α} (hx : x ∉ w) (hw : w ≠ [])
    (h : xs ++ x :: ys = os ++ w ++ rest) :
    (∃ zs, xs = os ++ w ++ zs) ∨ ∃ zs, os = xs ++ x :: zs ∧ ys = zs ++ w ++ rest := by
  rw [List.append_assoc] at h
  rcases List.append_eq_append_iff.mp h with ⟨zs, hos, hrest⟩ | ⟨zs, hxs, hrest⟩
  · cases zs with
    | nil =>
      obtain ⟨c, cs, rfl⟩ := List.exists_cons_of_ne_nil hw
      exact absurd (List.mem_cons_self ..) ((List.cons.inj hrest).1 ▸ hx)
    | cons z zs =>
      obtain ⟨rfl, hys⟩ := List.cons.inj hrest
      exact Or.inr ⟨zs, hos, hys.trans (List.append_assoc ..).symm⟩
  · rcases List.append_eq_append_iff.mp hrest with ⟨more, hzs, -⟩ | ⟨more, hw', hmore⟩
    · exact Or.inl ⟨more, by rw [hxs, hzs, List.append_assoc]⟩
    · cases more with
      | nil =>
        rw [List.append_nil] at hw'
        exact Or.inl ⟨[], by rw [hxs, hw', List.append_nil]⟩
      | cons z more =>
        obtain ⟨rfl, -⟩ := List.cons.inj hmore
        rw [hw'] at hx
        exact absurd (List.mem_append_right zs (List.mem_cons_self ..)) hx

/-- A text without an element ends before it. -/
theorem prefix_append_cons {w xs ys : List α} {x : α} (hx : x ∉ w) (h : w <+: xs ++ x :: ys) :
    w <+: xs := by
  by_cases hw : w = []
  · rw [hw]
    exact List.nil_prefix
  · obtain ⟨rest, hrest⟩ := h
    rcases @split_of_append_cons α x w xs ys [] rest hx hw hrest.symm with ⟨zs, hzs⟩ | ⟨zs, hnil, -⟩
    · exact ⟨zs, hzs.symm⟩
    · exact absurd hnil.symm (List.append_ne_nil_of_right_ne_nil xs (List.cons_ne_nil x zs))

/-- And is on one side of it. -/
theorem infix_append_cons {w xs ys : List α} {x : α} (hx : x ∉ w) (h : w <:+: xs ++ x :: ys) :
    w <:+: xs ∨ w <:+: ys := by
  by_cases hw : w = []
  · rw [hw]
    exact Or.inl List.nil_infix
  · obtain ⟨os, rest, hrest⟩ := h
    rcases split_of_append_cons hx hw hrest.symm with ⟨zs, hzs⟩ | ⟨zs, -, hzs⟩
    · exact Or.inl ⟨os, zs, hzs.symm⟩
    · exact Or.inr ⟨zs, rest, hzs.symm⟩

/-! ## Rules that cut -/

/-- Between marks. -/
def marked (left right : α) (label : List α) : List α := left :: (label ++ [right])

/-- The rule keeps a beginning of what it matches, of units that it may keep, and puts a marked
label behind it that is shorter than the bound. -/
def Cuts (left right : α) (bound : Nat) (mayKeep : α → Prop) (rule : Rule α) : Prop :=
  ∀ prev text hit, rule prev text = some hit → ∃ kept label, kept <+: text ∧
    (∀ c ∈ kept, mayKeep c) ∧ hit.text = kept ++ marked left right label ∧ label.length < bound

section

variable {left right : α} {bound : Nat} {mayKeep : α → Prop} {w : List α} {prev : Option α}
variable {text out : List α}

theorem append_marked (kept label rest : List α) :
    kept ++ marked left right label ++ rest = kept ++ left :: (label ++ right :: rest) := by
  rw [marked, List.append_assoc, List.cons_append, List.append_assoc, List.singleton_append]

/-- Where the result has a text without marks at its beginning, the given text has it. -/
theorem Replaced.prefix_of_cuts (h : Replaced rule prev text out)
    (hrule : Cuts left right bound mayKeep rule) (hleft : left ∉ w) (hbegins : w <+: out) :
    w <+: text := by
  induction h generalizing w with
  | nil prev => exact hbegins
  | @keep prev c cs out hnone h ih =>
    cases w with
    | nil => exact List.nil_prefix
    | cons d w =>
      obtain ⟨rfl, hrest⟩ := List.cons_prefix_cons.mp hbegins
      rw [List.mem_cons, not_or] at hleft
      exact List.cons_prefix_cons.mpr ⟨rfl, ih hleft.2 hrest⟩
  | @hit prev text out hit hsome h ih =>
    obtain ⟨kept, label, hkept, -, htext, -⟩ := hrule prev text hit hsome
    rw [htext, append_marked] at hbegins
    exact (prefix_append_cons hleft hbegins).trans hkept

/-- A long text without marks stood in the given text, if it stands in the result. -/
theorem Replaced.infix_of_cuts (h : Replaced rule prev text out)
    (hrule : Cuts left right bound mayKeep rule) (hleft : left ∉ w) (hright : right ∉ w)
    (hlength : bound ≤ w.length) (hstands : w <:+: out) : w <:+: text := by
  induction h with
  | nil prev => exact hstands
  | @keep prev c cs out hnone h ih =>
    rcases List.infix_cons_iff.mp hstands with hbegins | hstands
    · exact ((Replaced.keep hnone h).prefix_of_cuts hrule hleft hbegins).isInfix
    · exact List.infix_cons (ih hstands)
  | @hit prev text out hit hsome h ih =>
    obtain ⟨kept, label, hkept, -, htext, hlabel⟩ := hrule prev text hit hsome
    rw [htext, append_marked] at hstands
    rcases infix_append_cons hleft hstands with hstands | hstands
    · exact hstands.trans hkept.isInfix
    · rcases infix_append_cons hright hstands with hstands | hstands
      · exact absurd hstands.length_le (Nat.not_le.mpr (Nat.lt_of_lt_of_le hlabel hlength))
      · exact (ih hstands).trans (List.drop_suffix _ _).isInfix

/-- A text that begins the result, and that the rule does not keep to its end, began the given
one, and the rule found nothing in it. -/
theorem Replaced.prefix_occurrence {rest : List α} (h : Replaced rule prev text (w ++ rest))
    (hrule : Cuts left right bound mayKeep rule) (hleft : left ∉ w)
    (hlast : ∀ c ∈ w.getLast?, ¬ mayKeep c) :
    ∃ more, text = w ++ more ∧ Untouched rule prev w more ∧
      Replaced rule (behind prev w) more rest := by
  induction w generalizing prev text with
  | nil => exact ⟨text, rfl, trivial, h⟩
  | cons c w ih =>
    generalize hout : c :: w ++ rest = out at h
    cases h with
    | nil prev => exact absurd hout (List.cons_ne_nil _ _)
    | @keep prev d cs out hnone h =>
      obtain ⟨rfl, rfl⟩ := List.cons.inj hout
      rw [List.mem_cons, not_or] at hleft
      obtain ⟨more, rfl, huntouched, hrun⟩ := ih h hleft.2 (by
        intro d hd
        refine hlast d ?_
        rw [List.getLast?_cons, hd]
        rfl)
      exact ⟨more, rfl, ⟨hnone, huntouched⟩, by rwa [behind_cons]⟩
    | @hit prev text out hit hsome h =>
      -- the text would be in what the hit keeps, but its last unit is not kept
      obtain ⟨kept, label, -, hmay, htext, -⟩ := hrule prev text hit hsome
      rw [htext, append_marked] at hout
      have hkept := prefix_append_cons hleft ⟨rest, hout⟩
      have hmem : (c :: w).getLast (List.cons_ne_nil c w) ∈ kept :=
        hkept.subset (List.getLast_mem (List.cons_ne_nil c w))
      exact absurd (hmay _ hmem) (hlast _ (List.getLast?_eq_getLast_of_ne_nil _))

/-- A long text without marks in the result, at its place in the given text: the rule found
nothing in it, and it is behind the same unit or directly behind a hit. -/
theorem Replaced.occurrence {os rest : List α} (h : Replaced rule prev text (os ++ w ++ rest))
    (hrule : Cuts left right bound mayKeep rule) (hleft : left ∉ w) (hright : right ∉ w)
    (hw : w ≠ []) (hlength : bound ≤ w.length) (hlast : ∀ c ∈ w.getLast?, ¬ mayKeep c) :
    ∃ as more, text = as ++ w ++ more ∧ Untouched rule (behind prev as) w more ∧
      Replaced rule (behind prev (as ++ w)) more rest ∧
      (as.getLast? = os.getLast? ∨ ∃ prev' text' hit, rule prev' text' = some hit ∧
        text'.drop hit.length = w ++ more ∧
          behind prev as = behind prev' (text'.take hit.length)) := by
  generalize hout : os ++ w ++ rest = out at h
  induction h generalizing os with
  | nil prev =>
    rw [List.append_eq_nil_iff, List.append_eq_nil_iff] at hout
    exact absurd hout.1.2 hw
  | @keep prev c cs out hnone h ih =>
    cases os with
    | nil =>
      have hrun := Replaced.keep hnone h
      rw [← hout, List.nil_append] at hrun
      obtain ⟨more, htext, huntouched, hafter⟩ := hrun.prefix_occurrence hrule hleft hlast
      exact ⟨[], more, htext, huntouched, hafter, Or.inl rfl⟩
    | cons d os =>
      obtain ⟨rfl, hrest⟩ := List.cons.inj hout
      obtain ⟨as, more, rfl, huntouched, hafter, hedge⟩ := ih hrest
      refine ⟨d :: as, more, rfl, by rwa [behind_cons], by rwa [List.cons_append, behind_cons], ?_⟩
      rcases hedge with hsame | hhit
      · exact Or.inl (by rw [List.getLast?_cons, List.getLast?_cons, hsame])
      · exact Or.inr (by rwa [behind_cons])
  | @hit prev text out hit hsome h ih =>
    obtain ⟨kept, label, -, hmay, htext, hlabel⟩ := hrule prev text hit hsome
    rw [htext, append_marked] at hout
    rcases split_of_append_cons hleft hw hout.symm with ⟨zs, hzs⟩ | ⟨zs, hos, hzs⟩
    · -- not in what the hit keeps, by its last unit
      have hmem : w.getLast hw ∈ kept := by
        rw [hzs]
        exact List.mem_append_left _ (List.mem_append_right _ (List.getLast_mem hw))
      exact absurd (hmay _ hmem) (hlast _ (List.getLast?_eq_getLast_of_ne_nil hw))
    · rcases split_of_append_cons hright hw hzs with ⟨ys, hys⟩ | ⟨ys, rfl, hys⟩
      · -- nor in the label, which is shorter
        have hle : w.length ≤ label.length := by
          rw [hys, List.length_append, List.length_append]
          omega
        omega
      · -- so it is behind the hit, and directly behind it when nothing is between
        obtain ⟨as, more, hdrop, huntouched, hafter, hedge⟩ := ih hys.symm
        refine ⟨text.take hit.length ++ as, more, ?_, ?_, ?_, ?_⟩
        · rw [List.append_assoc, List.append_assoc, ← List.append_assoc as, ← hdrop,
            List.take_append_drop]
        · rwa [behind_append]
        · rwa [List.append_assoc, behind_append]
        · rcases hedge with hsame | hhit
          · cases ys with
            | nil =>
              obtain rfl := List.getLast?_eq_none_iff.mp hsame
              exact Or.inr ⟨prev, text, hit, hsome, hdrop, by rw [List.append_nil]⟩
            | cons y ys =>
              refine Or.inl ?_
              rw [hos, List.getLast?_append, hsame, List.getLast?_append, List.getLast?_cons,
                List.getLast?_cons, List.getLast?_append, List.getLast?_cons, List.getLast?_cons]
              rfl
          · exact Or.inr (by rwa [behind_append])

end

/-! ## Taking a text out -/

section

variable [DecidableEq α]

/-- A text, wherever it stands. -/
def literal (v by_ : List α) : Rule α := fun _ text =>
  if v.isPrefixOf text then some ⟨v.length, by_⟩ else none

variable {left right : α} {v label : List α}

theorem positive_literal (hv : v ≠ []) (text : List α) : Positive (literal v text) := by
  intro prev xs hit h
  rw [literal] at h
  split at h
  next =>
    obtain rfl := Option.some.inj h
    exact List.length_pos_iff.mpr hv
  next => cases h

theorem cuts_literal {bound : Nat} (mayKeep : α → Prop) (hlabel : label.length < bound) :
    Cuts left right bound mayKeep (literal v (marked left right label)) := by
  intro prev xs hit h
  rw [literal] at h
  split at h
  next =>
    obtain rfl := Option.some.inj h
    exact ⟨[], label, List.nil_prefix, List.forall_mem_nil _, rfl, hlabel⟩
  next => cases h

/-- A text that stands nowhere. -/
theorem untouched_literal {text : List α} (by_ : List α) (prev : Option α) (h : ¬ v <:+: text) :
    Untouched (literal v by_) prev text [] := by
  refine untouched_of_suffix fun prev c cs hsuffix => ?_
  rw [List.append_nil, literal]
  refine if_neg fun hbegins => h ?_
  exact (List.isPrefixOf_iff_prefix.mp hbegins).isInfix.trans hsuffix.isInfix

theorem Replaced.not_infix_literal {prev : Option α} {text out : List α}
    (h : Replaced (literal v (marked left right label)) prev text out) (hleft : left ∉ v)
    (hright : right ∉ v) (hlabel : label.length < v.length) : ¬ v <:+: out := by
  have hne : v ≠ [] := List.length_pos_iff.mp (Nat.zero_lt_of_lt hlabel)
  have hcuts : Cuts left right v.length (fun _ => False) (literal v (marked left right label)) :=
    cuts_literal _ hlabel
  intro hstands
  induction h with
  | nil prev => exact hne (List.eq_nil_of_infix_nil hstands)
  | @keep prev c cs out hnone h ih =>
    rcases List.infix_cons_iff.mp hstands with hbegins | hstands
    · have hthere := (Replaced.keep hnone h).prefix_of_cuts hcuts hleft hbegins
      rw [literal, if_pos (List.isPrefixOf_iff_prefix.mpr hthere)] at hnone
      cases hnone
    · exact ih hstands
  | @hit prev text out hit hsome h ih =>
    obtain ⟨kept, label', -, hmay, htext, hlabel'⟩ := hcuts prev text hit hsome
    obtain rfl : kept = [] := List.eq_nil_iff_forall_not_mem.mpr hmay
    rw [htext, append_marked] at hstands
    rcases infix_append_cons hleft hstands with hstands | hstands
    · exact hne (List.eq_nil_of_infix_nil hstands)
    · rcases infix_append_cons hright hstands with hstands | hstands
      · exact absurd hstands.length_le (Nat.not_le.mpr hlabel')
      · exact ih hstands

/-- A text that is taken out, and is longer than the label, is out. -/
theorem not_infix_literal (hleft : left ∉ v) (hright : right ∉ v) (hlabel : label.length < v.length)
    (text : List α) : ¬ v <:+: replaceAll (literal v (marked left right label)) text :=
  (replaced_replaceAll (positive_literal (List.length_pos_iff.mp (Nat.zero_lt_of_lt hlabel)) _)
    text).not_infix_literal hleft hright hlabel

end

end Replace

end Js
