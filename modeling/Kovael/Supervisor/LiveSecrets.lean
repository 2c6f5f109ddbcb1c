import Kovael.Supervisor.Redaction

/-!
# Live secrets in a redacted text

What `redactSensitiveText` removes of secrets that are long enough. Their values are out of the
text before the rules see it (`not_infix_removeValues`), and the rules that cut bring none back.
The rule of `bearer` can: a secret that it brings back ends in a beginning of `Bearer`, behind a
unit that is in no word, and where it comes back the text had another spelling
(`recased_of_leaked`). A text without such a place is redacted (`redacted_of_not_recased`).
-/

namespace Kovael.Supervisor

open Js (Utf16)
open Js.Utf16 (ascii)
open Js.Replace

/-- The values of the secrets that are set. -/
def liveSecrets (env : ProcessEnv) : List Utf16 := secretValueEnvNames.filterMap env

/-- A value that is long enough, of units of `[A-Za-z0-9._-]`. -/
structure IsSecret (v : Utf16) : Prop where
  length : 32 ≤ v.length
  units : ∀ c ∈ v, isSafeUnit c = true

def ValidSecrets (env : ProcessEnv) : Prop := ∀ v ∈ liveSecrets env, IsSecret v

/-- A text that is short and without the live secrets. -/
structure Redacted (env : ProcessEnv) (text : Utf16) : Prop where
  length : text.length ≤ 1000
  secrets : ∀ v ∈ liveSecrets env, ¬ v <:+: text

/-- What `bearer\s+[…]` matches, up to the first unit of the token. -/
structure BearerText where
  word : Utf16
  gap : Utf16
  token : UInt16
  spelled : word.map lowerUnit = ascii "bearer"
  nonempty : gap ≠ []
  space : ∀ c ∈ gap, isSpaceUnit c = true
  accepted : isBearerUnit token = true

def BearerText.units (b : BearerText) : Utf16 := b.word ++ (b.gap ++ [b.token])

/-- A beginning of `Bearer` ends the value, behind a unit that is in no word, and the text has
there `bearer` in another spelling, and a token behind it. -/
def Recased (v text : Utf16) : Prop :=
  ∃ (u p : Utf16) (b : BearerText), v = u ++ p ∧ p ≠ [] ∧ p <+: ascii "Bearer" ∧
    ¬ p <+: b.word ∧ (behind none u).any isWordUnit = false ∧ u ++ b.units <:+: text

/-! ## Brackets -/

/-- No bracket and no space. -/
structure Plain (w : Utf16) : Prop where
  left : 91 ∉ w
  right : 93 ∉ w
  space : 32 ∉ w

theorem Plain.of_units {w : Utf16} {ok : UInt16 → Bool} (h : ∀ c ∈ w, ok c = true)
    (hleft : ok 91 = false) (hright : ok 93 = false) (hspace : ok 32 = false) : Plain w where
  left hmem := by rw [h 91 hmem] at hleft; cases hleft
  right hmem := by rw [h 93 hmem] at hright; cases hright
  space hmem := by rw [h 32 hmem] at hspace; cases hspace

theorem IsSecret.plain {v : Utf16} (h : IsSecret v) : Plain v :=
  Plain.of_units h.units rfl rfl rfl

theorem Plain.append {xs ys : Utf16} (hxs : Plain xs) (hys : Plain ys) : Plain (xs ++ ys) where
  left hmem := (List.mem_append.mp hmem).elim hxs.left hys.left
  right hmem := (List.mem_append.mp hmem).elim hxs.right hys.right
  space hmem := (List.mem_append.mp hmem).elim hxs.space hys.space

theorem Plain.of_subset {xs ys : Utf16} (h : Plain ys) (hsub : xs ⊆ ys) : Plain xs where
  left hmem := h.left (hsub hmem)
  right hmem := h.right (hsub hmem)
  space hmem := h.space (hsub hmem)

theorem isWordUnit_of_spelled {word : Utf16} (h : word.map lowerUnit = ascii "bearer") :
    ∀ c ∈ word, isWordUnit c = true := by
  intro c hc
  have hlower : lowerUnit c ∈ ascii "bearer" := h ▸ List.mem_map_of_mem hc
  have hall : (ascii "bearer").all isWordUnit = true := rfl
  rw [← isWordUnit_lowerUnit]
  exact List.all_eq_true.mp hall _ hlower

theorem length_of_spelled {word : Utf16} (h : word.map lowerUnit = ascii "bearer") :
    word.length = 6 := by
  rw [← List.length_map lowerUnit, h]
  rfl

theorem length_le_of_written {p : Utf16} (h : p <+: ascii "Bearer") : p.length ≤ 6 := h.length_le

theorem BearerText.not_mem (b : BearerText) {x : UInt16} (hword : isWordUnit x = false)
    (hspace : isSpaceUnit x = false) (haccepted : isBearerUnit x = false) : x ∉ b.units := by
  intro hmem
  rw [BearerText.units, List.mem_append, List.mem_append, List.mem_singleton] at hmem
  rcases hmem with hmem | hmem | rfl
  · rw [isWordUnit_of_spelled b.spelled x hmem] at hword
    cases hword
  · rw [b.space x hmem] at hspace
    cases hspace
  · rw [b.accepted] at haccepted
    cases haccepted

/-! ## The values are taken out -/

section

variable {env : ProcessEnv}

/-- Taking a value out makes no long text without brackets that was not there. -/
theorem infix_removeValue {name : String} {w text : Utf16} (hleft : 91 ∉ w) (hright : 93 ∉ w)
    (hlength : 32 ≤ w.length) (h : w <:+: removeValue env text name) : w <:+: text := by
  rw [removeValue] at h
  split at h
  next v hv =>
    split at h
    next hlong =>
      have hne : v ≠ [] := List.length_pos_iff.mp (Nat.lt_of_lt_of_le (by decide) hlong)
      have hrun := replaced_replaceAll (positive_literal hne redacted) text
      have hcuts : Cuts 91 93 32 (fun _ => False) (literal v redacted) :=
        @cuts_literal UInt16 _ 91 93 v (ascii "REDACTED") 32 _ (by decide)
      exact hrun.infix_of_cuts hcuts hleft hright hlength h
    next => exact h
  next => exact h

theorem infix_foldl_removeValue {names : List String} {w text : Utf16} (hleft : 91 ∉ w)
    (hright : 93 ∉ w) (hlength : 32 ≤ w.length) (h : w <:+: names.foldl (removeValue env) text) :
    w <:+: text := by
  induction names generalizing text with
  | nil => exact h
  | cons name names ih => exact infix_removeValue hleft hright hlength (ih h)

theorem not_infix_removeValue {name : String} {v : Utf16} (hname : env name = some v)
    (hv : IsSecret v) (text : Utf16) : ¬ v <:+: removeValue env text name := by
  have hlength := hv.length
  rw [removeValue, hname]
  dsimp only
  rw [if_pos (by omega)]
  exact @not_infix_literal UInt16 _ 91 93 v (ascii "REDACTED") hv.plain.left hv.plain.right
    (Nat.lt_of_lt_of_le (by decide) hlength) text

/-- No value is left, whatever is taken out before and after it. -/
theorem not_infix_foldl_removeValue {names : List String} {name : String} {v : Utf16}
    (hmem : name ∈ names) (hname : env name = some v) (hv : IsSecret v) (text : Utf16) :
    ¬ v <:+: names.foldl (removeValue env) text := by
  induction names generalizing text with
  | nil => cases hmem
  | cons first names ih =>
    rcases List.mem_cons.mp hmem with rfl | hmem
    · -- taken out first: the others would have to bring it back
      exact fun h => not_infix_removeValue hname hv text
        (infix_foldl_removeValue hv.plain.left hv.plain.right hv.length h)
    · exact ih hmem _

theorem not_infix_removeValues (hvalid : ValidSecrets env) {v : Utf16} (hv : v ∈ liveSecrets env)
    (text : Utf16) : ¬ v <:+: removeValues env text := by
  obtain ⟨name, hmem, hname⟩ := List.mem_filterMap.mp hv
  exact not_infix_foldl_removeValue hmem hname (hvalid v hv) text

/-- A text without the values stays as it is. -/
theorem removeValues_eq_self {text : Utf16}
    (h : ∀ v ∈ liveSecrets env, ¬ v <:+: text) : removeValues env text = text := by
  have hstep : ∀ name ∈ secretValueEnvNames, removeValue env text name = text := by
    intro name hname
    rw [removeValue]
    split
    next v hv =>
      split
      next =>
        have hlive : v ∈ liveSecrets env := List.mem_filterMap.mpr ⟨name, hname, hv⟩
        exact replaceAll_untouched (untouched_literal redacted none (h v hlive))
      next => rfl
    next => rfl
  have hfold : ∀ names : List String, (∀ name ∈ names, removeValue env text name = text) →
      names.foldl (removeValue env) text = text := by
    intro names hnames
    induction names with
    | nil => rfl
    | cons name names ih =>
      rw [List.foldl_cons, hnames name (List.mem_cons_self ..)]
      exact ih fun name hname => hnames name (List.mem_cons_of_mem _ hname)
  exact hfold _ hstep

end

/-! ## The rule of `bearer` -/

theorem bearerRule_some {prev : Option UInt16} {text : Utf16} {hit : Hit UInt16}
    (h : bearerRule prev text = some hit) :
    prev.any isWordUnit = false ∧ 0 < hit.length ∧ hit.text = ascii "Bearer [REDACTED]" ∧
      ∃ (b : BearerText) (rest : Utf16), text = b.units ++ rest := by
  obtain ⟨hboundary, hlength, htext⟩ := atBoundary_some h
  obtain ⟨m, k, hword, hbehindWord, hm⟩ := piecesLength?_cons hlength
  obtain ⟨word, rest, rfl, hspelled, rfl⟩ := length?_text hword
  rw [List.drop_left] at hbehindWord
  obtain ⟨m, l, hgap, hbehindGap, rfl⟩ := piecesLength?_cons hbehindWord
  obtain ⟨hgapLength, gap, rest, rfl, hspace, rfl⟩ := length?_run hgap
  rw [List.drop_left] at hbehindGap
  obtain ⟨m, k, htoken, -, rfl⟩ := piecesLength?_cons hbehindGap
  obtain ⟨htokenLength, token, rest, rfl, haccepted, rfl⟩ := length?_run htoken
  obtain ⟨c, cs, rfl⟩ := List.exists_cons_of_length_pos htokenLength
  have hsix := length_of_spelled hspelled
  refine ⟨?_, by omega, htext,
    ⟨word, gap, c, hspelled, List.length_pos_iff.mp hgapLength, hspace,
      haccepted c (List.mem_cons_self ..)⟩, cs ++ rest, ?_⟩
  · -- the first unit is a letter, so the unit before it is in no word
    obtain ⟨d, ds, rfl⟩ := List.exists_cons_of_length_pos (l := word) (by omega)
    have hd := isWordUnit_of_spelled hspelled d (List.mem_cons_self ..)
    rw [List.cons_append, List.head?_cons, isBoundary, Option.any_some, hd, Bool.bne_true,
      Bool.not_eq_true'] at hboundary
    exact hboundary
  · rw [BearerText.units, List.append_assoc, List.append_assoc]
    rfl

theorem positive_bearerRule : Positive bearerRule :=
  fun _ _ _ h => (bearerRule_some h).2.1

theorem bearer_label (out : Utf16) : ascii "Bearer [REDACTED]" ++ out =
    ascii "Bearer" ++ 32 :: ([] ++ 91 :: (ascii "REDACTED" ++ 93 :: out)) := rfl

/-- What the rule makes of a spelling of `bearer`: the beginning of a text of the result is in
the given text, the rest is a beginning of `Bearer`. -/
structure Recasing (before : Option UInt16) (w rest u p more : Utf16) : Prop where
  split : w = u ++ p
  nonempty : p ≠ []
  written : p ++ more = ascii "Bearer"
  space : ∃ after, rest = more ++ 32 :: after
  apart : (behind before u).any isWordUnit = false

theorem Recasing.length_le {before : Option UInt16} {w rest u p more : Utf16}
    (h : Recasing before w rest u p more) : p.length ≤ 6 :=
  length_le_of_written ⟨more, h.written⟩

/-- A text without a space at the beginning of the result. -/
theorem prefix_bearerRule {prev : Option UInt16} {w rest text : Utf16} (hspace : 32 ∉ w)
    (h : Replaced bearerRule prev text (w ++ rest)) :
    w <+: text ∨ ∃ u p more, Recasing prev w rest u p more ∧
      ∃ b : BearerText, u ++ b.units <+: text := by
  induction w generalizing prev text with
  | nil => exact Or.inl List.nil_prefix
  | cons c w ih =>
    generalize hout : c :: w ++ rest = out at h
    cases h with
    | nil prev => exact absurd hout (List.cons_ne_nil _ _)
    | @keep prev d cs out hnone h =>
      obtain ⟨rfl, rfl⟩ := List.cons.inj hout
      rw [List.mem_cons, not_or] at hspace
      rcases ih hspace.2 h with hbegins | ⟨u, p, more, hrecasing, b, hb⟩
      · exact Or.inl (List.cons_prefix_cons.mpr ⟨rfl, hbegins⟩)
      · refine Or.inr ⟨c :: u, p, more, ?_, b, List.cons_prefix_cons.mpr ⟨rfl, hb⟩⟩
        exact { split := by rw [hrecasing.split, List.cons_append]
                nonempty := hrecasing.nonempty
                written := hrecasing.written
                space := hrecasing.space
                apart := by rw [behind_cons]; exact hrecasing.apart }
    | @hit prev text out hit hsome h =>
      obtain ⟨hapart, -, htext, b, more, hb⟩ := bearerRule_some hsome
      rw [htext, bearer_label] at hout
      -- the text has no space, so it ends in the word that the rule writes
      obtain ⟨tail, htail⟩ := prefix_append_cons hspace ⟨rest, hout⟩
      rw [← htail, List.append_assoc] at hout
      refine Or.inr ⟨[], c :: w, tail, ?_, b, hb ▸ List.prefix_append _ _⟩
      exact { split := rfl
              nonempty := List.cons_ne_nil _ _
              written := htail
              space := ⟨_, List.append_cancel_left hout⟩
              apart := hapart }

/-- A long plain text in the result. -/
theorem infix_bearerRule {prev : Option UInt16} {os w rest text : Utf16} (hw : Plain w)
    (hlength : 32 ≤ w.length) (h : Replaced bearerRule prev text (os ++ w ++ rest)) :
    w <:+: text ∨ ∃ u p more, Recasing none w rest u p more ∧
      ∃ b : BearerText, u ++ b.units <:+: text := by
  have hne : w ≠ [] := List.length_pos_iff.mp (by omega)
  generalize hout : os ++ w ++ rest = out at h
  induction h generalizing os with
  | nil prev =>
    rw [List.append_eq_nil_iff, List.append_eq_nil_iff] at hout
    exact absurd hout.1.2 hne
  | @keep prev c cs out hnone h ih =>
    cases os with
    | nil =>
      have hrun := Replaced.keep hnone h
      rw [← hout, List.nil_append] at hrun
      rcases prefix_bearerRule hw.space hrun with hbegins | ⟨u, p, more, hrecasing, b, hb⟩
      · exact Or.inl hbegins.isInfix
      · refine Or.inr ⟨u, p, more, ?_, b, hb.isInfix⟩
        -- the text is longer than what the rule writes
        have hu : u ≠ [] := by
          intro heq
          obtain rfl := heq
          have hp := hrecasing.length_le
          rw [hrecasing.split, List.nil_append] at hlength
          omega
        exact { hrecasing with
                apart := by rw [behind_of_ne_nil none prev hu]; exact hrecasing.apart }
    | cons d os =>
      obtain ⟨rfl, hrest⟩ := List.cons.inj hout
      rcases ih hrest with hstands | ⟨u, p, more, hrecasing, b, hb⟩
      · exact Or.inl (List.infix_cons hstands)
      · exact Or.inr ⟨u, p, more, hrecasing, b, List.infix_cons hb⟩
  | @hit prev text out hit hsome h ih =>
    obtain ⟨-, -, htext, -⟩ := bearerRule_some hsome
    rw [htext, bearer_label] at hout
    -- at the space and at the brackets: all that the rule writes is shorter than the text
    rcases split_of_append_cons hw.space hne hout.symm with ⟨zs, hzs⟩ | ⟨zs, -, hzs⟩
    · have hlabel : w.length ≤ 6 := by
        have hwritten : w <:+: ascii "Bearer" := ⟨os, zs, hzs.symm⟩
        exact hwritten.length_le
      omega
    rcases split_of_append_cons hw.left hne hzs with ⟨ys, hys⟩ | ⟨ys, -, hys⟩
    · rw [eq_comm, List.append_eq_nil_iff, List.append_eq_nil_iff] at hys
      exact absurd hys.1.2 hne
    rcases split_of_append_cons hw.right hne hys with ⟨xs, hxs⟩ | ⟨xs, -, hxs⟩
    · have hlabel : w.length ≤ 8 := by
        have hwritten : w <:+: ascii "REDACTED" := ⟨_, xs, hxs.symm⟩
        exact hwritten.length_le
      omega
    have hdrop := (List.drop_suffix hit.length text).isInfix
    rcases ih hxs.symm with hstands | ⟨u, p, more, hrecasing, b, hb⟩
    · exact Or.inl (hstands.trans hdrop)
    · exact Or.inr ⟨u, p, more, hrecasing, b, hb.trans hdrop⟩

/-! ## Texts without a spelling -/

/-- The text that the rule of `bearer` is given. -/
def seenByBearer (env : ProcessEnv) (text : Utf16) : Utf16 :=
  replaceAll authorizationRule (replaceAll assignmentRule (removeValues env text))

section

variable {env : ProcessEnv} {text : Utf16}

theorem infix_seenByBearer {w : Utf16} (hleft : 91 ∉ w) (hright : 93 ∉ w)
    (hlength : 32 ≤ w.length) (h : w <:+: seenByBearer env text) :
    w <:+: removeValues env text := by
  have hauthorization := (replaced_replaceAll (positive_labelled _) _).infix_of_cuts
    (cuts_labelled _) hleft hright hlength h
  exact (replaced_replaceAll (positive_labelled _) _).infix_of_cuts (cuts_labelled _) hleft hright
    hlength hauthorization

theorem not_infix_seenByBearer (hvalid : ValidSecrets env) {v : Utf16}
    (hv : v ∈ liveSecrets env) : ¬ v <:+: seenByBearer env text := by
  have hsecret := hvalid v hv
  exact fun h => not_infix_removeValues hvalid hv text
    (infix_seenByBearer hsecret.plain.left hsecret.plain.right hsecret.length h)

/-- What the last three rules and the cut leave of a long plain text was there before them. -/
theorem infix_bearerRule_of_redacted {w : Utf16} (hw : Plain w) (hlength : 32 ≤ w.length)
    (h : w <:+: redactSensitiveText text env) :
    w <:+: replaceAll bearerRule (seenByBearer env text) := by
  have htoken := h.trans (List.take_prefix _ _).isInfix
  have hhex := (replaced_replaceAll (positive_atBoundary isShape_tokenLength _) _).infix_of_cuts
    cuts_tokenRule hw.left hw.right hlength htoken
  have hkey := (replaced_replaceAll (positive_atBoundary isShape_hexLength _) _).infix_of_cuts
    cuts_hexRule hw.left hw.right hlength hhex
  exact (replaced_replaceAll (positive_atBoundary isShape_keyLength _) _).infix_of_cuts
    cuts_keyRule hw.left hw.right hlength hkey

/-- A text around a secret comes from the rule of `bearer`. -/
theorem recasing_of_infix (hvalid : ValidSecrets env) {v os w rest : Utf16}
    (hv : v ∈ liveSecrets env) (hvw : v <:+: w) (hw : Plain w)
    (h : replaceAll bearerRule (seenByBearer env text) = os ++ w ++ rest) :
    ∃ u p more, Recasing none w rest u p more ∧
      ∃ b : BearerText, u ++ b.units <:+: seenByBearer env text := by
  have hlength := Nat.le_trans (hvalid v hv).length hvw.length_le
  have hrun := replaced_replaceAll positive_bearerRule (seenByBearer env text)
  rw [h] at hrun
  rcases infix_bearerRule hw hlength hrun with hstands | hrecasing
  · exact absurd (hvw.trans hstands) (not_infix_seenByBearer hvalid hv)
  · exact hrecasing

/-- A secret is in the redaction only where the text has another spelling. -/
theorem recased_of_leaked (hvalid : ValidSecrets env) {v : Utf16} (hv : v ∈ liveSecrets env)
    (h : v <:+: redactSensitiveText text env) : Recased v text := by
  have hsecret := hvalid v hv
  obtain ⟨os, rest, hos⟩ := infix_bearerRule_of_redacted hsecret.plain hsecret.length h
  obtain ⟨u, p, more, hrecasing, b, hb⟩ :=
    recasing_of_infix hvalid hv List.infix_rfl hsecret.plain hos.symm
  refine ⟨u, p, b, hrecasing.split, hrecasing.nonempty, ⟨more, hrecasing.written⟩, ?_,
    hrecasing.apart, ?_⟩
  · -- spelled alike, the secret would have stood in the text
    intro hgiven
    obtain ⟨tail, htail⟩ := hgiven
    refine not_infix_seenByBearer hvalid hv (List.IsInfix.trans ?_ hb)
    refine ⟨[], tail ++ (b.gap ++ [b.token]), ?_⟩
    rw [hrecasing.split, BearerText.units, ← htail, List.nil_append, List.append_assoc,
      List.append_assoc]
  · -- the place has no bracket, so it stood in the text that was given
    have hu : Plain u := hsecret.plain.of_subset fun c hc => by
      rw [hrecasing.split]
      exact List.mem_append_left p hc
    have hlength := hsecret.length
    have hp := hrecasing.length_le
    have hword := length_of_spelled b.spelled
    rw [hrecasing.split, List.length_append] at hlength
    have hlong : 32 ≤ (u ++ b.units).length := by
      rw [List.length_append, BearerText.units, List.length_append]
      omega
    have hleft : 91 ∉ u ++ b.units := fun hmem =>
      (List.mem_append.mp hmem).elim hu.left (b.not_mem rfl rfl rfl)
    have hright : 93 ∉ u ++ b.units := fun hmem =>
      (List.mem_append.mp hmem).elim hu.right (b.not_mem rfl rfl rfl)
    exact infix_foldl_removeValue hleft hright hlong (infix_seenByBearer hleft hright hlong hb)

theorem redacted_of_not_recased (hvalid : ValidSecrets env)
    (h : ∀ v ∈ liveSecrets env, ¬ Recased v text) :
    Redacted env (redactSensitiveText text env) where
  length := List.length_take_le 1000 _
  secrets v hv hstands := h v hv (recased_of_leaked hvalid hv hstands)

end

end Kovael.Supervisor
