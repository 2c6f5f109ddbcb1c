import Kovael.Supervisor.LiveSecrets

/-!
# Secrets that a text brings back

When a secret is in the redaction of some text. A `Leak` of a secret is what such a text needs:
another spelling of `bearer` for the beginning of `Bearer` that ends the secret, and word units
before it so that neither the values of the secrets nor the last three rules are found around
it. The text of a leak has the secret in its redaction (`Leak.reaches`), and every text that has
one comes from a leak (`exists_leak`), as what the last three rules leave of a text around a
secret they left alone. `secrets_redacted_iff` is the result.
-/

namespace Kovael.Supervisor

open Js (Utf16)
open Js.Utf16 (ascii)
open Js.Replace

/-- The rules that look for the shape of a secret. -/
def shapeRules : List (Rule UInt16) := [keyRule, hexRule, tokenRule]

/-- How a secret comes back. -/
structure Leak (env : ProcessEnv) (v : Utf16) where
  before : Utf16
  head : Utf16
  tail : Utf16
  word : Utf16
  split : v = head ++ tail
  nonempty : tail ≠ []
  written : tail <+: ascii "Bearer"
  apart : (behind none head).any isWordUnit = false
  spelled : word.map lowerUnit = ascii "bearer"
  joined : ∀ c ∈ before, isWordUnit c = true
  length : (before ++ v).length ≤ 1000
  /-- No value is taken out. -/
  unseen : ∀ s ∈ liveSecrets env, ¬ s <:+: before ++ head ++ word
  /-- Nothing looks like a secret. -/
  shapeless : ∀ rule ∈ shapeRules,
    Untouched rule none (before ++ head ++ ascii "Bearer") (ascii " [REDACTED]")

/-- The text that is redacted to the secret. -/
def Leak.text {env : ProcessEnv} {v : Utf16} (leak : Leak env v) : Utf16 :=
  leak.before ++ leak.head ++ leak.word ++ ascii " x"

/-- Some text brings the secret back. -/
def Exposed (env : ProcessEnv) (v : Utf16) : Prop := Nonempty (Leak env v)

/-! ## The text of a leak -/

theorem replaceFrom_of_length_le {α : Type} (rule : Rule α) (prev : Option α) {n : Nat}
    {text : List α} (h : text.length ≤ n) : replaceFrom rule prev n text = [] := by
  induction text generalizing prev n with
  | nil =>
    cases n with
    | zero => rfl
    | succ n => rfl
  | cons c cs ih =>
    rw [List.length_cons] at h
    obtain ⟨n, rfl⟩ := Nat.exists_eq_add_of_le' (Nat.le_trans (Nat.le_add_left 1 _) h)
    exact ih (some c) (Nat.le_of_succ_le_succ h)

/-- A rule that needs a unit finds nothing in a text without it. -/
theorem replaceAll_labelled {group : List Piece} {lower text : Utf16} {x : UInt16}
    (hlower : Piece.text lower ∈ group) (hx : x ∈ lower) (hword : isWordUnit x = false)
    (htext : x ∉ text) : replaceAll (labelled group) text = text := by
  refine replaceAll_untouched (untouched_of_suffix fun prev c cs hsuffix => ?_)
  rw [List.append_nil, Option.eq_none_iff_forall_not_mem]
  intro hit hhit
  obtain ⟨n, hn, -⟩ := labelled_some hhit
  obtain ⟨d, hd, hlowerUnit⟩ := exists_of_piecesLength? hn hlower hx
  obtain rfl := eq_of_lowerUnit_eq hword hlowerUnit
  exact htext (hsuffix.subset hd)

theorem isSafeUnit_of_isWordUnit {c : UInt16} (h : isWordUnit c = true) :
    isSafeUnit c = true := by
  rw [isWordUnit, Bool.or_eq_true] at h
  rw [isSafeUnit]
  rcases h with hletter | h95
  · rw [hletter]
    rfl
  · rw [h95, Bool.or_true]
    rfl

theorem not_isSpaceUnit {c : UInt16} (h : isSafeUnit c = true) : isSpaceUnit c = false := by
  have hrange : 45 ≤ c.toNat ∧ c.toNat ≤ 122 := by
    simp only [isSafeUnit, Bool.or_eq_true, Bool.and_eq_true, decide_eq_true_eq,
      UInt16.le_iff_toNat_le, ← UInt16.toNat_inj, UInt16.reduceToNat] at h
    omega
  simp only [isSpaceUnit, Bool.or_eq_false_iff, Bool.and_eq_false_iff, decide_eq_false_iff_not,
    UInt16.le_iff_toNat_le, ← UInt16.toNat_inj, UInt16.reduceToNat]
  omega

theorem not_isSpaceUnit_of_spelled {word : Utf16} (h : word.map lowerUnit = ascii "bearer") :
    ∀ c ∈ word, isSpaceUnit c = false :=
  fun c hc => not_isSpaceUnit (isSafeUnit_of_isWordUnit (isWordUnit_of_spelled h c hc))

/-- The first space of a text. -/
theorem eq_of_first_space {xs ys as bs : Utf16} {c d : UInt16}
    (hxs : ∀ x ∈ xs, isSpaceUnit x = false) (hys : ∀ y ∈ ys, isSpaceUnit y = false)
    (hc : isSpaceUnit c = true) (hd : isSpaceUnit d = true) (h : xs ++ c :: as = ys ++ d :: bs) :
    xs = ys := by
  have hfirst : ∀ (zs more : Utf16) (e : UInt16), (∀ z ∈ zs, isSpaceUnit z = false) →
      isSpaceUnit e = true → (zs ++ e :: more).takeWhile (fun z => !isSpaceUnit z) = zs := by
    intro zs more e hzs he
    rw [List.takeWhile_append_of_pos fun z hz => by rw [hzs z hz]; rfl,
      List.takeWhile_cons_of_neg (by rw [he]; exact Bool.false_ne_true), List.append_nil]
  rw [← hfirst xs as c hxs hc, h, hfirst ys bs d hys hd]

theorem bearerRule_word {prev : Option UInt16} {word : Utf16}
    (hspelled : word.map lowerUnit = ascii "bearer") (hprev : prev.any isWordUnit = false) :
    bearerRule prev (word ++ ascii " x") = some ⟨8, ascii "Bearer [REDACTED]"⟩ := by
  have hsix := length_of_spelled hspelled
  have hlength : bearerLength (word ++ ascii " x") = some 8 := by
    have hword : (Piece.text (ascii "bearer")).length? (word ++ ascii " x") = some 6 := by
      rw [Piece.length?, List.map_append, hspelled]
      rfl
    rw [bearerLength, piecesLength?, hword, Option.bind_some, ← hsix, List.drop_left, hsix]
    rfl
  obtain ⟨d, ds, rfl⟩ := List.exists_cons_of_length_pos (l := word) (by omega)
  have hd := isWordUnit_of_spelled hspelled d (List.mem_cons_self ..)
  rw [bearerRule, atBoundary, hlength, List.cons_append, List.head?_cons, isBoundary, hprev,
    Option.any_some, hd]
  rfl

/-- One spelling, at the end of a text without spaces. -/
theorem replaceAll_bearerRule {text word : Utf16} (htext : ∀ c ∈ text, isSafeUnit c = true)
    (hspelled : word.map lowerUnit = ascii "bearer")
    (happart : (behind none text).any isWordUnit = false) :
    replaceAll bearerRule (text ++ (word ++ ascii " x")) = text ++ ascii "Bearer [REDACTED]" := by
  have hsix := length_of_spelled hspelled
  have hword := not_isSpaceUnit_of_spelled hspelled
  have huntouched : Untouched bearerRule none text (word ++ ascii " x") := by
    refine untouched_of_suffix fun prev c cs hsuffix => ?_
    rw [Option.eq_none_iff_forall_not_mem]
    intro hit hhit
    obtain ⟨-, -, -, b, rest, hb⟩ := bearerRule_some hhit
    obtain ⟨g, gs, hgap⟩ := List.exists_cons_of_ne_nil b.nonempty
    -- the first space of the text is six units behind where the match begins
    have hfirst : b.word = c :: (cs ++ word) := by
      refine @eq_of_first_space b.word (c :: (cs ++ word)) (gs ++ [b.token] ++ rest) (ascii "x")
        g 32 (not_isSpaceUnit_of_spelled b.spelled) ?_ (b.space g ?_) rfl ?_
      · intro x hx
        rw [← List.cons_append, List.mem_append] at hx
        exact hx.elim (fun hx => not_isSpaceUnit (htext x (hsuffix.subset hx))) (hword x)
      · rw [hgap]
        exact List.mem_cons_self ..
      · rw [BearerText.units, hgap] at hb
        rw [List.cons_append, List.append_assoc cs]
        refine Eq.trans ?_ hb.symm
        rw [List.append_assoc b.word]
        rfl
    have hlength := congrArg List.length hfirst
    rw [length_of_spelled b.spelled, List.length_cons, List.length_append] at hlength
    omega
  rw [replaceAll, replaceFrom_untouched huntouched]
  have hrule := bearerRule_word hspelled happart
  obtain ⟨d, ds, rfl⟩ := List.exists_cons_of_length_pos (l := word) (by omega)
  rw [List.cons_append, replaceFrom]
  rw [List.cons_append] at hrule
  rw [hrule]
  have hrest : (ds ++ ascii " x").length ≤ 7 := by
    rw [List.length_cons] at hsix
    rw [List.length_append, Nat.succ.inj hsix]
    decide
  dsimp only
  rw [replaceFrom_of_length_le bearerRule (some d) hrest, List.append_nil]

section

variable {env : ProcessEnv} {v : Utf16}

theorem Leak.head_ne_nil (leak : Leak env v) (hv : IsSecret v) : leak.head ≠ [] := by
  intro hnil
  have hlength := hv.length
  have htail := length_le_of_written leak.written
  rw [leak.split, hnil, List.nil_append] at hlength
  omega

theorem Leak.safe (leak : Leak env v) (hv : IsSecret v) :
    ∀ c ∈ leak.before ++ leak.head, isSafeUnit c = true := by
  intro c hc
  rcases List.mem_append.mp hc with hbefore | hhead
  · exact isSafeUnit_of_isWordUnit (leak.joined c hbefore)
  · refine hv.units c ?_
    rw [leak.split]
    exact List.mem_append_left leak.tail hhead

theorem Leak.behind_head (leak : Leak env v) (hv : IsSecret v) :
    (behind none (leak.before ++ leak.head)).any isWordUnit = false := by
  rw [behind_append, behind_of_ne_nil _ none (leak.head_ne_nil hv)]
  exact leak.apart

/-- A unit that is in no secret and not in `" x"` is not in the text. -/
theorem Leak.not_mem (leak : Leak env v) (hv : IsSecret v) {x : UInt16}
    (hx : isSafeUnit x = false) (hend : x ∉ ascii " x") : x ∉ leak.text := by
  intro hmem
  rw [Leak.text, List.mem_append, List.mem_append] at hmem
  rcases hmem with (hmem | hmem) | hmem
  · rw [leak.safe hv x hmem] at hx
    cases hx
  · rw [isSafeUnit_of_isWordUnit (isWordUnit_of_spelled leak.spelled x hmem)] at hx
    cases hx
  · exact hend hmem

/-- The rules leave the label as it is, behind the letter before it. -/
theorem replaceFrom_label : ∀ rule ∈ shapeRules,
    replaceFrom rule (some 114) 0 (ascii " [REDACTED]") = ascii " [REDACTED]" := by
  intro rule hrule
  rw [shapeRules, List.mem_cons, List.mem_cons, List.mem_singleton] at hrule
  rcases hrule with rfl | rfl | rfl
  · rfl
  · rfl
  · rfl

theorem Leak.shape_eq_self (leak : Leak env v) {rule : Rule UInt16} (hrule : rule ∈ shapeRules) :
    replaceAll rule (leak.before ++ leak.head ++ ascii "Bearer" ++ ascii " [REDACTED]") =
      leak.before ++ leak.head ++ ascii "Bearer" ++ ascii " [REDACTED]" := by
  have hbehind : behind none (leak.before ++ leak.head ++ ascii "Bearer") = some 114 := by
    rw [behind_append]
    rfl
  rw [replaceAll, replaceFrom_untouched (leak.shapeless rule hrule), hbehind,
    replaceFrom_label rule hrule]

theorem Leak.redacted (leak : Leak env v) (hvalid : ValidSecrets env) (hv : IsSecret v) :
    redactSensitiveText leak.text env =
      (leak.before ++ leak.head ++ ascii "Bearer" ++ ascii " [REDACTED]").take 1000 := by
  have hremoved : removeValues env leak.text = leak.text := by
    refine removeValues_eq_self fun s hs hstands => ?_
    have hsecret := hvalid s hs
    -- no secret has the space in it
    rcases infix_append_cons hsecret.plain.space hstands with hin | hin
    · exact leak.unseen s hs hin
    · have hlength := Nat.le_trans hsecret.length hin.length_le
      exact absurd hlength (by decide)
  have hassignment : replaceAll assignmentRule leak.text = leak.text :=
    @replaceAll_labelled _ (ascii "=") _ 61 (by simp) (by decide) rfl
      (leak.not_mem hv rfl (by decide))
  have hauthorization : replaceAll authorizationRule leak.text = leak.text :=
    @replaceAll_labelled _ (ascii "authorization:") _ 58 (by simp) (by decide) rfl
      (leak.not_mem hv rfl (by decide))
  have hbearer : replaceAll bearerRule leak.text =
      leak.before ++ leak.head ++ ascii "Bearer" ++ ascii " [REDACTED]" := by
    rw [Leak.text, List.append_assoc (leak.before ++ leak.head), replaceAll_bearerRule
      (leak.safe hv) leak.spelled (leak.behind_head hv),
      List.append_assoc (leak.before ++ leak.head) (ascii "Bearer")]
    rfl
  rw [redactSensitiveText, hremoved, hassignment, hauthorization, hbearer,
    leak.shape_eq_self (List.mem_cons_self ..),
    leak.shape_eq_self (List.mem_cons_of_mem _ (List.mem_cons_self ..)),
    leak.shape_eq_self (List.mem_cons_of_mem _ (List.mem_cons_of_mem _ (List.mem_cons_self ..)))]

/-- The redaction of the text of a leak has the secret. -/
theorem Leak.reaches (leak : Leak env v) (hvalid : ValidSecrets env) (hv : IsSecret v) :
    v <:+: redactSensitiveText leak.text env := by
  rw [leak.redacted hvalid hv]
  obtain ⟨more, hmore⟩ := leak.written
  have hsplit : leak.before ++ leak.head ++ ascii "Bearer" ++ ascii " [REDACTED]" =
      leak.before ++ v ++ (more ++ ascii " [REDACTED]") := by
    rw [← hmore]
    simp only [leak.split, List.append_assoc]
  rw [hsplit, List.take_append, List.take_of_length_le leak.length]
  exact ⟨leak.before, _, rfl⟩

end

/-! ## A text around a secret -/

/-- No word goes on from the unit before into a text. -/
def Apart (prev : Option UInt16) (w : Utf16) : Prop :=
  prev.any isWordUnit = true → w.head?.any isWordUnit = false

/-- The word in which a text stands. -/
theorem exists_apart (os v : Utf16) : ∃ as before, os = as ++ before ∧
    (∀ c ∈ before, isWordUnit c = true) ∧ Apart as.getLast? (before ++ v) := by
  by_cases hv : v.head?.any isWordUnit = true
  · refine ⟨os.rdropWhile isWordUnit, os.rtakeWhile isWordUnit,
      List.rdropWhile_append_rtakeWhile.symm, fun c hc => List.mem_rtakeWhile_imp hc, ?_⟩
    intro hlast
    obtain ⟨c, hc, hword⟩ := (Option.any_eq_true isWordUnit _).mp hlast
    obtain ⟨hne, rfl⟩ := List.mem_getLast?_eq_getLast hc
    exact absurd hword (List.rdropWhile_last_not isWordUnit os hne)
  · refine ⟨os, [], (List.append_nil os).symm, List.forall_mem_nil _, fun _ => ?_⟩
    rw [List.nil_append]
    exact Bool.eq_false_iff.mpr hv

section

variable {shape : Utf16 → Option Nat} {label kept : Utf16}

/-- A long plain text that the rule leaves stood in the given text, and the rule found nothing in
it; when no word went into it then none did before. -/
theorem shape_occurrence (hshape : IsShape shape)
    (hcuts : Cuts 91 93 32 (· ∈ kept) (atBoundary shape label)) {os w rest text : Utf16}
    (hw : Plain w) (hlength : 32 ≤ w.length) (hlast : ∀ c ∈ w.getLast?, c ∉ kept)
    (hapart : Apart os.getLast? w)
    (h : replaceAll (atBoundary shape label) text = os ++ w ++ rest) :
    ∃ as more, text = as ++ w ++ more ∧ Apart as.getLast? w ∧
      Untouched (atBoundary shape label) as.getLast? w more ∧
      Replaced (atBoundary shape label) w.getLast? more rest := by
  have hne : w ≠ [] := List.length_pos_iff.mp (by omega)
  have hrun := replaced_replaceAll (positive_atBoundary hshape label) text
  rw [h] at hrun
  obtain ⟨as, more, htext, huntouched, hafter, hedge⟩ :=
    hrun.occurrence hcuts hw.left hw.right hne hlength hlast
  refine ⟨as, more, htext, ?_, ?_, ?_⟩
  · rcases hedge with hsame | ⟨prev', text', hit, hsome, hdrop, hbehind⟩
    · rwa [hsame]
    · -- a boundary is behind the hit, so no word goes from it into the text
      intro hprev
      obtain ⟨-, hit_length, -⟩ := atBoundary_some hsome
      have hends := hshape.ends hit_length
      have htake : text'.take hit.length ≠ [] := by
        intro hnil
        rcases List.take_eq_nil_iff.mp hnil with hzero | hnil
        · exact absurd hzero (Nat.ne_of_gt (hshape.positive hit_length))
        · rw [hnil, List.drop_nil] at hdrop
          exact absurd hdrop.symm (List.append_ne_nil_of_left_ne_nil hne more)
      have hbefore : behind none (text'.take hit.length) = as.getLast? := by
        rw [behind_of_ne_nil none prev' htake, ← hbehind, behind, Option.or_none]
      rw [EndsAt, hbefore, hdrop, isBoundary, hprev, Bool.true_bne, Bool.not_eq_true'] at hends
      obtain ⟨c, cs, rfl⟩ := List.exists_cons_of_ne_nil hne
      exact hends
  · rwa [behind, Option.or_none] at huntouched
  · rwa [behind, Option.or_none, List.getLast?_append_of_ne_nil as hne] at hafter

/-- Inside a word the rule finds nothing. -/
theorem untouched_word {prev : Option UInt16} {more rest : Utf16}
    (hprev : prev.any isWordUnit = true) (hmore : ∀ c ∈ more, isWordUnit c = true) :
    Untouched (atBoundary shape label) prev more rest := by
  induction more generalizing prev with
  | nil => trivial
  | cons c more ih =>
    have hc := hmore c (List.mem_cons_self ..)
    exact ⟨atBoundary_none shape label _ (hprev.trans hc.symm),
      ih hc fun d hd => hmore d (List.mem_cons_of_mem _ hd)⟩

/-- The end of a word and the space behind it stay. -/
theorem word_stays (hshape : IsShape shape) {prev : Option UInt16} {more after out : Utf16}
    (hprev : prev.any isWordUnit = true) (hmore : ∀ c ∈ more, isWordUnit c = true)
    (h : Replaced (atBoundary shape label) prev (more ++ 32 :: after) out) :
    ∃ after', out = more ++ 32 :: after' := by
  induction more generalizing prev out with
  | nil =>
    generalize htext : [] ++ 32 :: after = text at h
    cases h with
    | nil prev => cases htext
    | @keep prev c cs out hnone h =>
      obtain ⟨rfl, -⟩ := List.cons.inj htext
      exact ⟨out, rfl⟩
    | @hit prev text out hit hsome h =>
      obtain ⟨-, hlength, -⟩ := atBoundary_some hsome
      rw [← htext, hshape.before_space [] after [], List.nil_append, hshape.space] at hlength
      cases hlength
  | cons c more ih =>
    have hc := hmore c (List.mem_cons_self ..)
    have hnone : atBoundary shape label prev (c :: (more ++ 32 :: after)) = none :=
      atBoundary_none shape label _ (hprev.trans hc.symm)
    generalize htext : c :: more ++ 32 :: after = text at h
    cases h with
    | nil prev => cases htext
    | @keep prev d cs out hnone' h =>
      obtain ⟨rfl, rfl⟩ := List.cons.inj htext
      have hprev : (some c).any isWordUnit = true := hc
      obtain ⟨after', rfl⟩ := ih hprev (fun d hd => hmore d (List.mem_cons_of_mem _ hd)) h
      exact ⟨after', rfl⟩
    | @hit prev text out hit hsome h =>
      rw [← htext, List.cons_append, hnone] at hsome
      cases hsome

/-- What is behind the next space does not matter. -/
theorem untouched_before_space (hshape : IsShape shape) {prev : Option UInt16} {w after : Utf16}
    (after' : Utf16) (h : Untouched (atBoundary shape label) prev w (32 :: after)) :
    Untouched (atBoundary shape label) prev w (32 :: after') := by
  induction w generalizing prev with
  | nil => trivial
  | cons c w ih =>
    refine ⟨?_, ih h.2⟩
    have hnone := h.1
    rw [← List.cons_append, atBoundary] at hnone ⊢
    rw [hshape.before_space (c :: w) after' after]
    exact hnone

/-- A text into which no word goes may as well begin. -/
theorem untouched_of_apart {prev : Option UInt16} {w rest : Utf16} (hapart : Apart prev w)
    (h : Untouched (atBoundary shape label) prev w rest) :
    Untouched (atBoundary shape label) none w rest := by
  cases w with
  | nil => trivial
  | cons c w =>
    refine ⟨?_, h.2⟩
    cases hc : isWordUnit c with
    | false => exact atBoundary_none shape label _ hc.symm
    | true =>
      -- a word begins here, as it does at the beginning of a text
      have hprev : prev.any isWordUnit = false := by
        rw [← Bool.not_eq_true]
        intro hword
        have hnot := hapart hword
        rw [List.head?_cons, Option.any_some, hc] at hnot
        cases hnot
      have hnone := h.1
      rw [atBoundary, isBoundary, hprev] at hnone
      exact hnone

/-- Around a text that the rule left alone it finds nothing. -/
theorem untouched_around (hshape : IsShape shape) {prev : Option UInt16} {w more after : Utf16}
    (hapart : Apart prev w) (hword : w.getLast?.any isWordUnit = true)
    (hmore : ∀ c ∈ more, isWordUnit c = true)
    (h : Untouched (atBoundary shape label) prev w (more ++ 32 :: after)) (after' : Utf16) :
    Untouched (atBoundary shape label) none (w ++ more) (32 :: after') := by
  refine untouched_before_space hshape after' (untouched_append.mpr
    ⟨untouched_of_apart hapart h, untouched_word ?_ hmore⟩)
  rwa [behind, Option.or_none]

end

/-! ## Every secret in a redaction is a leak -/

theorem word_of_written {p more : Utf16} (h : p ++ more = ascii "Bearer") :
    (∀ c ∈ p, isWordUnit c = true ∧ c ∉ ascii "sk-") ∧ ∀ c ∈ more, isWordUnit c = true := by
  have hall : ((ascii "Bearer").all fun c =>
      isWordUnit c && !(ascii "sk-").contains c) = true := rfl
  have hunit : ∀ c ∈ ascii "Bearer", isWordUnit c = true ∧ c ∉ ascii "sk-" := by
    intro c hc
    have hboth := List.all_eq_true.mp hall c hc
    rw [Bool.and_eq_true, Bool.not_eq_true', ← Bool.not_eq_true, List.contains_iff_mem] at hboth
    exact hboth
  exact ⟨fun c hc => hunit c (h ▸ List.mem_append_left more hc),
    fun c hc => (hunit c (h ▸ List.mem_append_right p hc)).1⟩

section

variable {env : ProcessEnv} {text v : Utf16}

/-- The last unit of a text that ends in a beginning of `Bearer`. -/
theorem Recasing.last {before : Option UInt16} {w rest u p more : Utf16}
    (h : Recasing before w rest u p more) : w.getLast?.any isWordUnit = true ∧
      ∀ c ∈ w.getLast?, c ∉ ascii "sk-" := by
  obtain ⟨c, hc⟩ := List.getLast?_isSome.mpr h.nonempty |> Option.isSome_iff_exists.mp
  have hmem := (word_of_written h.written).1 c (List.mem_of_getLast? hc)
  have hlast : w.getLast? = some c := by
    rw [h.split, List.getLast?_append_of_ne_nil u h.nonempty, hc]
  rw [hlast]
  refine ⟨hmem.1, fun d hd => ?_⟩
  obtain rfl := Option.some.inj hd
  exact hmem.2

/-- The word around a secret in a redaction: the rule of `bearer` wrote its end, and the rules
after it found nothing in it. -/
theorem exists_around (hvalid : ValidSecrets env) (hv : v ∈ liveSecrets env)
    (h : v <:+: redactSensitiveText text env) :
    ∃ before, (∀ c ∈ before, isWordUnit c = true) ∧ (before ++ v).length ≤ 1000 ∧
      ∃ rest u p more, Recasing none (before ++ v) rest u p more ∧
        (∃ b : BearerText, u ++ b.units <:+: seenByBearer env text) ∧
        ∀ rule ∈ shapeRules, Untouched rule none (before ++ v ++ more) (ascii " [REDACTED]") := by
  have hsecret := hvalid v hv
  have hne : v ≠ [] := List.length_pos_iff.mp (Nat.lt_of_lt_of_le (by decide) hsecret.length)
  -- how the secret ends, so that the rule of keys keeps none of it
  obtain ⟨os, rest, hos⟩ := infix_bearerRule_of_redacted hsecret.plain hsecret.length h
  obtain ⟨_, _, _, hsecretEnd, -⟩ :=
    recasing_of_infix hvalid hv List.infix_rfl hsecret.plain hos.symm
  -- the word in which the secret stands in the result
  obtain ⟨os, rest, hos⟩ := h
  obtain ⟨as, before, rfl, hbefore, hapart⟩ := exists_apart os v
  have hlength : (before ++ v).length ≤ 1000 := by
    have hle := congrArg List.length hos
    rw [redactSensitiveText, List.length_take, List.length_append, List.length_append,
      List.length_append] at hle
    rw [List.length_append]
    omega
  have hplain : Plain (before ++ v) :=
    (Plain.of_units hbefore rfl rfl rfl).append hsecret.plain
  have hlong : 32 ≤ (before ++ v).length := by
    have := hsecret.length
    rw [List.length_append]
    omega
  have hend : (before ++ v).getLast? = v.getLast? := List.getLast?_append_of_ne_nil before hne
  have hlast : ∀ c ∈ (before ++ v).getLast?, c ∉ ascii "sk-" := by
    rw [hend]
    exact hsecretEnd.last.2
  have hword : (before ++ v).getLast?.any isWordUnit = true := by
    rw [hend]
    exact hsecretEnd.last.1
  have hresult : as ++ (before ++ v) <+: replaceAll tokenRule (replaceAll hexRule
      (replaceAll keyRule (replaceAll bearerRule (seenByBearer env text)))) := by
    refine List.IsPrefix.trans ⟨rest, ?_⟩ (List.take_prefix 1000 _)
    rw [← List.append_assoc as]
    exact hos
  -- back through the rules, the last one first
  obtain ⟨more₆, hmore₆⟩ := hresult
  obtain ⟨as₅, more₅, hhex, hapart₅, htoken, -⟩ := shape_occurrence isShape_tokenLength
    cuts_tokenRule hplain hlong (fun _ _ => List.not_mem_nil) hapart hmore₆.symm
  obtain ⟨as₄, more₄, hkey, hapart₄, hhexUntouched, hhexRun⟩ := shape_occurrence
    isShape_hexLength cuts_hexRule hplain hlong (fun _ _ => List.not_mem_nil) hapart₅ hhex
  obtain ⟨as₃, more₃, hbearer, hapart₃, hkeyUntouched, hkeyRun⟩ := shape_occurrence
    isShape_keyLength cuts_keyRule hplain hlong hlast hapart₄ hkey
  obtain ⟨u, p, more, hrecasing, hb⟩ :=
    recasing_of_infix hvalid hv (List.suffix_append before v).isInfix hplain hbearer
  -- and forward: what is behind the secret up to the next space is the same for all of them
  have hmore := (word_of_written hrecasing.written).2
  obtain ⟨after₃, rfl⟩ := hrecasing.space
  obtain ⟨after₄, rfl⟩ := word_stays isShape_keyLength hword hmore hkeyRun
  obtain ⟨after₅, rfl⟩ := word_stays isShape_hexLength hword hmore hhexRun
  refine ⟨before, hbefore, hlength, _, u, p, more, hrecasing, hb, ?_⟩
  intro rule hrule
  rw [shapeRules, List.mem_cons, List.mem_cons, List.mem_singleton] at hrule
  rcases hrule with rfl | rfl | rfl
  · exact untouched_around isShape_keyLength hapart₃ hword hmore hkeyUntouched _
  · exact untouched_around isShape_hexLength hapart₄ hword hmore hhexUntouched _
  · exact untouched_around isShape_tokenLength hapart₅ hword hmore htoken _

/-- A secret in a redaction is one that a text brings back. -/
theorem exists_leak (hvalid : ValidSecrets env) (hv : v ∈ liveSecrets env)
    (h : v <:+: redactSensitiveText text env) : Exposed env v := by
  obtain ⟨before, hbefore, hlength, rest, u, p, more, hrecasing, ⟨b, hb⟩, hshapes⟩ :=
    exists_around hvalid hv h
  have hsecret := hvalid v hv
  have hp := hrecasing.length_le
  -- the end is in the secret, as it is shorter
  obtain ⟨head, rfl, rfl⟩ : ∃ head, u = before ++ head ∧ v = head ++ p := by
    rcases List.append_eq_append_iff.mp hrecasing.split with ⟨head, hu, hv⟩ | ⟨tail, -, htail⟩
    · exact ⟨head, hu, hv⟩
    · have hlong := hsecret.length
      rw [htail, List.length_append] at hp
      omega
  have hhead : head ≠ [] := by
    intro heq
    obtain rfl := heq
    have hlong := hsecret.length
    rw [List.nil_append] at hlong
    omega
  refine ⟨{ before, head, tail := p, word := b.word, split := rfl
            nonempty := hrecasing.nonempty
            written := ⟨more, hrecasing.written⟩
            apart := ?_
            spelled := b.spelled
            joined := hbefore
            length := hlength
            unseen := ?_
            shapeless := ?_ }⟩
  · have happart := hrecasing.apart
    rwa [behind_append, behind_of_ne_nil _ none hhead] at happart
  · -- what the rule of `bearer` was given has no secret
    intro s hs hstands
    refine not_infix_seenByBearer hvalid hs (hstands.trans (List.IsInfix.trans ?_ hb))
    refine ⟨[], b.gap ++ [b.token], ?_⟩
    rw [BearerText.units, List.nil_append, List.append_assoc (before ++ head)]
  · intro rule hrule
    have huntouched := hshapes rule hrule
    rwa [← List.append_assoc, List.append_assoc (before ++ head), hrecasing.written] at huntouched

/-- A secret of one word does not come back. -/
theorem not_exposed_of_word (hv : IsSecret v) (hword : ∀ c ∈ v, isWordUnit c = true) :
    ¬ Exposed env v := by
  intro hgiven
  obtain ⟨leak⟩ := hgiven
  have hhead := leak.head_ne_nil hv
  have hbegins : leak.head <+: v := ⟨leak.tail, leak.split.symm⟩
  have hmem := hbegins.subset (List.getLast_mem hhead)
  have happart := leak.apart
  rw [behind, List.getLast?_eq_getLast_of_ne_nil hhead, Option.some_or, Option.any_some,
    hword _ hmem] at happart
  cases happart

end

/-! ## Redaction -/

/-- A text without another spelling of `bearer` where a secret ends in a beginning of `Bearer` is
redacted; and all texts are just if no secret has a leak. -/
theorem secrets_redacted_iff (env : ProcessEnv) (hvalid : ValidSecrets env) :
    (∀ text, (∀ v ∈ liveSecrets env, ¬ Recased v text) →
      Redacted env (redactSensitiveText text env)) ∧
    ((∀ text, Redacted env (redactSensitiveText text env)) ↔
      ∀ v ∈ liveSecrets env, ¬ Exposed env v) := by
  refine ⟨fun text => redacted_of_not_recased hvalid, fun h v hv => ?_, fun h text => ?_⟩
  · intro hgiven
    obtain ⟨leak⟩ := hgiven
    exact (h leak.text).secrets v hv (leak.reaches hvalid (hvalid v hv))
  · exact { length := List.length_take_le 1000 _
            secrets := fun v hv hstands => h v hv (exists_leak hvalid hv hstands) }

/-- One secret is set. -/
def tokenEnv (v : Utf16) : ProcessEnv := fun name => if name = "KOVAEL_TOKEN" then some v else none

/-- A token of 32 hexadecimal digits. -/
theorem hex_token_redacted :
    Redacted (tokenEnv (ascii "0123456789abcdef0123456789abcdef"))
      (redactSensitiveText (ascii "token=0123456789abcdef0123456789abcdef")
        (tokenEnv (ascii "0123456789abcdef0123456789abcdef"))) := by
  have hunits : (ascii "0123456789abcdef0123456789abcdef").all isWordUnit = true := rfl
  have hword := List.all_eq_true.mp hunits
  have hsecret : IsSecret (ascii "0123456789abcdef0123456789abcdef") :=
    ⟨by decide, fun c hc => isSafeUnit_of_isWordUnit (hword c hc)⟩
  have hlive : ∀ v ∈ liveSecrets (tokenEnv (ascii "0123456789abcdef0123456789abcdef")),
      v = ascii "0123456789abcdef0123456789abcdef" := fun v hv => List.mem_singleton.mp hv
  refine (secrets_redacted_iff _ fun v hv => ?_).2.mpr (fun v hv => ?_) _
  · rw [hlive v hv]
    exact hsecret
  · rw [hlive v hv]
    exact not_exposed_of_word hsecret hword

/-- A token that ends in `-Bearer` is written into the text. -/
theorem bearer_written_into_token :
    ValidSecrets (tokenEnv (ascii "aaaaaaaaaaaaaaaaaaaaaaaaaa-Bearer")) ∧
      ¬ Redacted (tokenEnv (ascii "aaaaaaaaaaaaaaaaaaaaaaaaaa-Bearer"))
        (redactSensitiveText (ascii "aaaaaaaaaaaaaaaaaaaaaaaaaa-bearer x")
          (tokenEnv (ascii "aaaaaaaaaaaaaaaaaaaaaaaaaa-Bearer"))) := by
  refine ⟨fun v hv => ?_, fun h => ?_⟩
  · obtain rfl := List.mem_singleton.mp hv
    have hunits : (ascii "aaaaaaaaaaaaaaaaaaaaaaaaaa-Bearer").all isSafeUnit = true := rfl
    exact ⟨by decide, List.all_eq_true.mp hunits⟩
  · refine h.secrets (ascii "aaaaaaaaaaaaaaaaaaaaaaaaaa-Bearer") (List.mem_singleton.mpr rfl) ?_
    exact ⟨[], ascii " [REDACTED]", by decide +kernel⟩

end Kovael.Supervisor
