import Kovael.Js.JsonSame

/-!
# The nesting of a text of JSON

`scan` follows a text of `JSON.stringify` through its strings and counts the braces
that are open outside them. The text of a value leaves the count as it found it
(`scan_stringify`). So the text of an object has no end that is the text of an object
and comes after a colon (`no_object_suffix`): outside strings a brace is still open
there, and inside a string the two readings of what follows have inside and outside
exchanged, and no backslash stands outside. Hence free text, a colon and the text of
an object can be told apart (`text_object_inj`).
-/

namespace Js.Json.Nesting

/-- Where in a text a character stands. -/
inductive Mode where
  | outside
  | inside
  | escaped
deriving DecidableEq, Repr

/-- Read one character with `depth` braces open; `none` if it closes a brace that is not
open, or is a backslash outside the strings. -/
def step : Mode → Nat → Char → Option (Mode × Nat)
  | .outside, depth, c =>
    if c = '"' then some (.inside, depth)
    else if c = '\\' then none
    else if c = '\x7b' then some (.outside, depth + 1)
    else if c = '\x7d' then (if depth = 0 then none else some (.outside, depth - 1))
    else some (.outside, depth)
  | .inside, depth, c =>
    if c = '"' then some (.outside, depth)
    else if c = '\\' then some (.escaped, depth)
    else some (.inside, depth)
  | .escaped, depth, _ => some (.inside, depth)

def scan (mode : Mode) (depth : Nat) : List Char → Option (Mode × Nat)
  | [] => some (mode, depth)
  | c :: cs =>
    match step mode depth c with
    | none => none
    | some (mode, depth) => scan mode depth cs

theorem scan_append (xs ys : List Char) (mode : Mode) (depth : Nat) :
    scan mode depth (xs ++ ys) = (scan mode depth xs).bind fun r => scan r.1 r.2 ys := by
  induction xs generalizing mode depth with
  | nil => rfl
  | cons c xs ih =>
    rw [List.cons_append, scan, scan]
    cases step mode depth c with
    | none => rfl
    | some r => exact ih ..

theorem scan_cons {c : Char} {cs : List Char} {mode mode' : Mode} {depth depth' : Nat}
    (h : step mode depth c = some (mode', depth')) :
    scan mode depth (c :: cs) = scan mode' depth' cs := by
  rw [scan, h]

theorem step_deeper {c : Char} (k : Nat) {mode mode' : Mode} {depth depth' : Nat}
    (h : step mode depth c = some (mode', depth')) :
    step mode (depth + k) c = some (mode', depth' + k) := by
  cases mode with
  | outside =>
    unfold step at h ⊢
    grind
  | inside =>
    unfold step at h ⊢
    grind
  | escaped =>
    unfold step at h ⊢
    grind

/-- More open braces around the text. -/
theorem scan_deeper (cs : List Char) (k : Nat) :
    ∀ {mode mode' : Mode} {depth depth' : Nat}, scan mode depth cs = some (mode', depth') →
      scan mode (depth + k) cs = some (mode', depth' + k) := by
  induction cs with
  | nil =>
    intro mode mode' depth depth' h
    obtain ⟨rfl, rfl⟩ := Prod.mk.inj (Option.some.inj h)
    rfl
  | cons c cs ih =>
    intro mode mode' depth depth' h
    rw [scan] at h
    cases hstep : step mode depth c with
    | none =>
      rw [hstep] at h
      cases h
    | some r =>
      rw [hstep] at h
      rw [scan_cons (step_deeper k hstep)]
      exact ih h

/-- A character that two readings take, one inside a string and one outside: it leaves
them so, or it is a quote and they change places. -/
theorem step_opposite {c : Char} {depth depth' : Nat} {r r' : Mode × Nat}
    (h : step .outside depth c = some r) (h' : step .inside depth' c = some r') :
    r.1 = .outside ∧ r'.1 = .inside ∨ r.1 = .inside ∧ r'.1 = .outside := by
  have hout : step .outside depth c = _ := step.eq_1 depth c
  have hin : step .inside depth' c = _ := step.eq_2 depth' c
  rw [hout] at h
  rw [hin] at h'
  by_cases hquote : c = '"'
  · rw [if_pos hquote, Option.some.injEq] at h h'
    rw [← h, ← h']
    exact Or.inr ⟨rfl, rfl⟩
  · rw [if_neg hquote] at h h'
    by_cases hslash : c = '\\'
    · rw [if_pos hslash] at h
      cases h
    · rw [if_neg hslash] at h h'
      obtain rfl := Option.some.inj h'
      refine Or.inl ⟨?_, rfl⟩
      grind

/-- Of two readings of a text, one inside a string and one outside, at most one ends
outside. -/
theorem scan_opposite (cs : List Char) :
    ∀ {depth depth₁ depth' depth₁' : Nat}, scan .outside depth cs = some (.outside, depth₁) →
      scan .inside depth' cs ≠ some (.outside, depth₁') := by
  suffices h : ∀ {mode mode' : Mode} {depth depth₁ depth' depth₁' : Nat},
      scan .outside depth cs = some (mode, depth₁) → scan .inside depth' cs = some (mode', depth₁') →
        mode ≠ mode' by
    intro _ _ _ _ h₁ h₂
    exact h h₁ h₂ rfl
  induction cs with
  | nil =>
    intro mode mode' depth depth₁ depth' depth₁' h h'
    obtain ⟨rfl, -⟩ := Prod.mk.inj (Option.some.inj h)
    obtain ⟨rfl, -⟩ := Prod.mk.inj (Option.some.inj h')
    decide
  | cons c cs ih =>
    intro mode mode' depth depth₁ depth' depth₁' h h'
    rw [scan] at h h'
    cases hstep : step .outside depth c with
    | none =>
      rw [hstep] at h
      cases h
    | some r =>
      cases hstep' : step .inside depth' c with
      | none =>
        rw [hstep'] at h'
        cases h'
      | some r' =>
        obtain ⟨m, d⟩ := r
        obtain ⟨m', d'⟩ := r'
        rw [hstep] at h
        rw [hstep'] at h'
        rcases step_opposite hstep hstep' with ⟨rfl, rfl⟩ | ⟨rfl, rfl⟩
        · exact ih h h'
        · exact (ih h' h).symm

/-! ## The texts of values -/

/-- Outside strings the text leaves the count as it was. -/
def Balanced (cs : List Char) : Prop := ∀ depth, scan .outside depth cs = some (.outside, depth)

theorem balanced_nil : Balanced [] := fun _ => rfl

theorem Balanced.append {xs ys : List Char} (hxs : Balanced xs) (hys : Balanced ys) :
    Balanced (xs ++ ys) := by
  intro depth
  rw [scan_append, hxs depth]
  exact hys depth

/-- A character that means nothing outside strings. -/
def Plain (c : Char) : Prop := c ≠ '"' ∧ c ≠ '\\' ∧ c ≠ '\x7b' ∧ c ≠ '\x7d'

instance (c : Char) : Decidable (Plain c) := inferInstanceAs (Decidable (_ ∧ _))

theorem balanced_plain {cs : List Char} (h : ∀ c ∈ cs, Plain c) : Balanced cs := by
  induction cs with
  | nil => exact balanced_nil
  | cons c cs ih =>
    intro depth
    obtain ⟨hquote, hslash, hopen, hclose⟩ := h c (List.mem_cons_self ..)
    have hstep : step .outside depth c = some (.outside, depth) := by
      rw [step, if_neg hquote, if_neg hslash, if_neg hopen, if_neg hclose]
    rw [scan_cons hstep]
    exact ih (fun d hd => h d (List.mem_cons_of_mem _ hd)) depth

theorem balanced_all {cs : List Char} (h : (cs.all fun c => decide (Plain c)) = true) :
    Balanced cs :=
  balanced_plain fun c hc => of_decide_eq_true (List.all_eq_true.mp h c hc)

theorem balanced_braces {cs : List Char} (h : Balanced cs) : Balanced ('\x7b' :: (cs ++ ['\x7d'])) := by
  intro depth
  show scan .outside (depth + 1) (cs ++ ['\x7d']) = _
  rw [scan_append, h (depth + 1)]
  rfl

/-- An escaped character is inside its string. -/
theorem scan_escapeChar (c : Char) (depth : Nat) (cs : List Char) :
    scan .inside depth (escapeChar c ++ cs) = scan .inside depth cs := by
  have hdigit : ∀ n < 32, hexDigit (n / 16) ≠ '"' ∧ hexDigit (n / 16) ≠ '\\' ∧
      hexDigit (n % 16) ≠ '"' ∧ hexDigit (n % 16) ≠ '\\' := by decide
  have hinside : ∀ {c : Char}, c ≠ '"' → c ≠ '\\' → step .inside depth c = some (.inside, depth) := by
    intro c hquote hslash
    rw [step, if_neg hquote, if_neg hslash]
  unfold escapeChar
  split
  next => rfl
  split
  next => rfl
  split
  next => rfl
  split
  next => rfl
  split
  next => rfl
  split
  next => rfl
  split
  next => rfl
  split
  next hlow =>
    obtain ⟨h₁, h₂, h₃, h₄⟩ := hdigit c.toNat hlow
    show scan .inside depth (_ :: _ :: cs) = _
    rw [scan_cons (hinside h₁ h₂), scan_cons (hinside h₃ h₄)]
  next hquote hslash _ _ _ _ _ _ =>
    rw [List.singleton_append, scan_cons (hinside hquote hslash)]

theorem balanced_quote (s : String) : Balanced (quote s).toList := by
  intro depth
  rw [toList_quote]
  show scan .inside depth (s.toList.flatMap escapeChar ++ ['"']) = _
  induction s.toList with
  | nil => rfl
  | cons c cs ih => rw [List.flatMap_cons, List.append_assoc, scan_escapeChar, ih]

theorem balanced_separated {sep : List Char} (hsep : Balanced sep) :
    ∀ {xs : List (List Char)}, (∀ x ∈ xs, Balanced x) → Balanced (separated sep xs)
  | [], _ => balanced_nil
  | [x], h => h x (List.mem_singleton_self x)
  | x :: _ :: _, h =>
    ((h x (List.mem_cons_self ..)).append hsep).append
      (balanced_separated hsep fun z hz => h z (List.mem_cons_of_mem _ hz))

theorem balanced_of_isNumber {cs : List Char} (h : isNumber cs = true) : Balanced cs := by
  refine balanced_plain ?_
  intro c hc
  have hchar := all_of_isNumber h c hc
  refine ⟨?_, ?_, ?_, ?_⟩
  all_goals
    intro heq
    obtain rfl := heq
    exact absurd hchar (by decide)

theorem stringifyItems_eq_map (xs : List Json) : stringifyItems xs = xs.map stringify := by
  induction xs with
  | nil => rfl
  | cons x xs ih => rw [stringifyItems, ih, List.map_cons]

theorem stringifyFields_eq_map (fields : List (String × Json)) :
    stringifyFields fields = fields.map fun f => quote f.1 ++ ":" ++ stringify f.2 := by
  induction fields with
  | nil => rfl
  | cons f fields ih =>
    obtain ⟨key, v⟩ := f
    rw [stringifyFields, ih, List.map_cons]

variable {number : String → String}

theorem balanced_stringify (v : Json) : Held number v → Balanced (stringify v).toList := by
  have hcomma : Balanced [','] := balanced_all rfl
  have hbrackets : Balanced ['['] ∧ Balanced [']'] :=
    ⟨balanced_all rfl, balanced_all rfl⟩
  induction v using inductOn with
  | null => exact fun _ => balanced_all rfl
  | bool b =>
    intro _
    cases b with
    | true => exact balanced_all rfl
    | false => exact balanced_all rfl
  | number text => exact fun h => balanced_of_isNumber h.1
  | string s => exact fun _ => balanced_quote s
  | array xs ih =>
    intro h
    rw [toList_array, stringifyItems_eq_map, List.map_map]
    refine hbrackets.1.append ((balanced_separated hcomma ?_).append hbrackets.2)
    intro cs hcs
    obtain ⟨x, hx, rfl⟩ := List.mem_map.mp hcs
    exact ih x hx (heldAll_iff.mp h x hx)
  | object fields ih =>
    intro h
    rw [toList_object, stringifyFields_eq_map, List.map_map]
    refine balanced_braces (balanced_separated hcomma ?_)
    intro cs hcs
    obtain ⟨f, hf, rfl⟩ := List.mem_map.mp hcs
    show Balanced (quote f.1 ++ ":" ++ stringify f.2).toList
    rw [String.toList_append, String.toList_append]
    exact ((balanced_quote f.1).append (balanced_all rfl)).append
      (ih f hf (heldFields_iff.mp h.2.2 f hf))

/-- The characters of an object, between its braces. -/
theorem exists_inner {fields : List (String × Json)} (h : Held number (.object fields)) :
    ∃ inner, (stringify (.object fields)).toList = '\x7b' :: (inner ++ ['\x7d']) ∧
      Balanced inner := by
  refine ⟨_, toList_object fields, ?_⟩
  rw [stringifyFields_eq_map, List.map_map]
  refine balanced_separated (balanced_all rfl) ?_
  intro cs hcs
  obtain ⟨f, hf, rfl⟩ := List.mem_map.mp hcs
  show Balanced (quote f.1 ++ ":" ++ stringify f.2).toList
  rw [String.toList_append, String.toList_append]
  exact ((balanced_quote f.1).append (balanced_all rfl)).append
    (balanced_stringify f.2 (heldFields_iff.mp h.2.2 f hf))

/-! ## Objects after a colon -/

/-- The text of an object has no end that is the text of an object, after a colon. -/
theorem no_object_suffix {fields fields' : List (String × Json)} (h : Held number (.object fields))
    (h' : Held number (.object fields')) (cs : List Char) :
    (stringify (.object fields)).toList ≠ cs ++ ':' :: (stringify (.object fields')).toList := by
  intro heq
  obtain ⟨inner, htext, hinner⟩ := exists_inner h
  obtain ⟨inner', htext', -⟩ := exists_inner h'
  have hbalanced := balanced_stringify _ h'
  -- the colon stands between the braces of the first object
  have hsplit : ∃ pre, inner = pre ++ ':' :: '\x7b' :: inner' := by
    rw [htext, htext'] at heq
    cases cs with
    | nil => exact absurd (List.cons.inj heq).1 (by decide)
    | cons c cs =>
      have htail : inner ++ ['\x7d'] = (cs ++ ':' :: '\x7b' :: inner') ++ ['\x7d'] := by
        rw [(List.cons.inj heq).2, List.append_assoc]
        rfl
      exact ⟨cs, List.append_cancel_right htail⟩
  obtain ⟨pre, rfl⟩ := hsplit
  have hsuffix : (pre ++ ':' :: '\x7b' :: inner') ++ ['\x7d']
      = (pre ++ [':']) ++ (stringify (.object fields')).toList := by
    rw [htext', List.append_assoc, List.append_assoc]
    rfl
  have hwhole : scan .outside 1 ((pre ++ [':']) ++ (stringify (.object fields')).toList)
      = some (.outside, 0) := by
    rw [← hsuffix, scan_append, hinner 1]
    rfl
  -- what stands before it leaves a brace open, and is not within an escape
  obtain ⟨mode, depth, hbefore, hmode⟩ : ∃ mode depth,
      scan .outside 1 (pre ++ [':']) = some (mode, depth + 1) ∧ mode ≠ .escaped := by
    have hzero := hinner 0
    rw [scan_append] at hzero
    cases hpre : scan .outside 0 pre with
    | none =>
      rw [hpre] at hzero
      cases hzero
    | some r =>
      obtain ⟨mode, depth⟩ := r
      have hdeeper := scan_deeper pre 1 hpre
      rw [scan_append, hdeeper]
      cases mode with
      | outside => exact ⟨.outside, depth, rfl, by decide⟩
      | inside => exact ⟨.inside, depth, rfl, by decide⟩
      | escaped => exact ⟨.inside, depth, rfl, by decide⟩
  rw [scan_append, hbefore] at hwhole
  cases mode with
  | outside =>
    have hend := (hbalanced (depth + 1)).symm.trans hwhole
    simp at hend
  | inside => exact scan_opposite _ (hbalanced 0) hwhole
  | escaped => exact hmode rfl

/-- Free text, a colon and the text of an object. -/
theorem text_object_inj {s s' : List Char} {fields fields' : List (String × Json)}
    (h : Held number (.object fields)) (h' : Held number (.object fields'))
    (heq : s ++ ':' :: (stringify (.object fields)).toList
      = s' ++ ':' :: (stringify (.object fields')).toList) : s = s' ∧ fields = fields' := by
  have hobject : ∀ {fields fields' : List (String × Json)}, Held number (.object fields) →
      Held number (.object fields') →
      (stringify (.object fields)).toList = (stringify (.object fields')).toList →
        fields = fields' := by
    intro fields fields' h h' heq
    exact Json.object.inj (stringify_injective h h' (String.toList_injective heq))
  rcases List.append_eq_append_iff.mp heq with ⟨cs, hs', hrest⟩ | ⟨cs, hs, hrest⟩
  · cases cs with
    | nil =>
      rw [List.append_nil] at hs'
      exact ⟨hs'.symm, hobject h h' (List.cons.inj hrest).2⟩
    | cons c cs =>
      exact absurd (List.cons.inj hrest).2 (no_object_suffix h h' cs)
  · cases cs with
    | nil =>
      rw [List.append_nil] at hs
      exact ⟨hs, (hobject h' h (List.cons.inj hrest).2).symm⟩
    | cons c cs =>
      exact absurd (List.cons.inj hrest).2 (no_object_suffix h' h cs)

end Js.Json.Nesting
