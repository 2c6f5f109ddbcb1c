import Mathlib.Data.List.Induction
import Kovael.Workflow.Comments
import Kovael.Workflow.Places

/-!
# Where a key of the front matter goes

The stack of the parser holds the lines that opened a map and were not closed by a line
with the same indent or less. A key goes to the topmost of them with a smaller indent.
That is the map of the nearest line before it with a smaller indent, if that line opened
a map; if it has a value or a list, the key goes to a map further out, although the
contract of the loader calls anything richer than its subset rejected
(`nesting_kept_iff`). The other key that is not where it belongs is `__proto__`, which is
never a property.

`entryOf` is what a line says, and `mapPath` where it belongs, both without the parser;
`after?` runs the parser up to a line. `Tracks` ties the stack to the lines before:
`entry_tracks` and `item_tracks` are its step lemmas.
-/

namespace Kovael.Workflow

open Js (isWhitespace)
open Value (Slot IsOrdinary OwnPath)

/-- A line with a key. -/
structure Entry where
  indent : Nat
  key : String
  /-- A map begins below the key. -/
  opensMap : Bool
  /-- The indent of the list that begins below the key. -/
  list : Option Nat
  /-- What the key is set to, an empty map or list if one begins. -/
  value : Value

/-- The value of a key, where a map or a list may begin. -/
def entryValue (rest : List Char) (following : List (List Char)) : Value :=
  if rest = [] then (if (listBelow? following).isSome then .list [] else .emptyMap)
  else if rest.head? = some '[' && rest.getLast? = some ']' then parseInlineList rest
  else parseScalar rest

/-- The key of the line, if it has one. -/
def entryOf (line : List Char) (following : List (List Char)) : Option Entry :=
  if isSkipped (stripComment line) || ['-', ' '].isPrefixOf (contentOf line) then none
  else
    match (contentOf line).dropWhile (· ≠ ':') with
    | [] => none
    | _ :: behind =>
      some {
        indent := indentOf (stripComment line)
        key := String.ofList (trimmed ((contentOf line).takeWhile (· ≠ ':')))
        opensMap := trimmed behind = [] && (listBelow? following).isNone
        list := if trimmed behind = [] then listBelow? following else none
        value := entryValue (trimmed behind) following }

/-- The keys of the lines, in front of `following`. -/
def entriesBefore : List (List Char) → List (List Char) → List Entry
  | [], _ => []
  | line :: lines, following =>
    (entryOf line (lines ++ following)).toList ++ entriesBefore lines following

/-- The nearest line with a smaller indent; `earlier` is in the order from the nearest. -/
def enclosing (earlier : List Entry) (indent : Nat) : Option Entry :=
  earlier.find? fun e => e.indent < indent

/-- The path of the map of the nearest line with a smaller indent and no value. -/
def mapPath : List Entry → Nat → List Slot
  | [], _ => []
  | e :: earlier, indent =>
    if e.indent < indent && e.opensMap then mapPath earlier e.indent ++ [.own e.key]
    else mapPath earlier indent

/-- The parser after `lines`, in front of `following`. -/
def after? : List (List Char) → List (List Char) → Parser → Option Parser
  | [], _, p => some p
  | line :: lines, following, p =>
    if isSkipped (stripComment line) then after? lines following p
    else
      (p.line 0 (indentOf (stripComment line)) (contentOf line)
        (lines ++ following)).toOption.bind (after? lines following)

/-- Right after its line, each key has its value in the map of the nearest line before it
with a smaller indent and no value. -/
def Placed (src : List Char) : Prop :=
  ∀ lines line following e, linesOf src = lines ++ line :: following →
    entryOf line following = some e →
      ∃ p, after? (lines ++ [line]) following .init = some p ∧
        p.root.follow? (mapPath (entriesBefore lines (line :: following)).reverse e.indent ++
          [.own e.key]) = some e.value

/-- A key is indented under a key that has a value or a list. -/
def KeyUnderValue (src : List Char) : Prop :=
  ∃ lines line following e e', linesOf src = lines ++ line :: following ∧
    entryOf line following = some e ∧
    enclosing (entriesBefore lines (line :: following)).reverse e.indent = some e' ∧
    e'.opensMap = false

/-- A line sets the key `__proto__`. -/
def ProtoKey (src : List Char) : Prop :=
  ∃ e ∈ entriesBefore (linesOf src) [], e.key = "__proto__"

/-- The contract: keys are where they belong, and a key under a value is refused. -/
def NestingKept (src : List Char) : Prop :=
  ((accepted? src).isSome → Placed src) ∧ (KeyUnderValue src → accepted? src = none)

/-! ## Runs up to a line -/

theorem entriesBefore_append (lines lines' following : List (List Char)) :
    entriesBefore (lines ++ lines') following =
      entriesBefore lines (lines' ++ following) ++ entriesBefore lines' following := by
  induction lines with
  | nil => rfl
  | cons line lines ih =>
    rw [List.cons_append, entriesBefore, entriesBefore, ih, List.append_assoc, List.append_assoc]

theorem after?_append (lines lines' following : List (List Char)) :
    ∀ p, after? (lines ++ lines') following p =
      (after? lines (lines' ++ following) p).bind (after? lines' following) := by
  induction lines with
  | nil =>
    intro p
    rfl
  | cons line lines ih =>
    intro p
    rw [List.cons_append, after?, after?]
    split
    next => exact ih p
    next =>
      rw [List.append_assoc, Option.bind_assoc]
      exact congrArg (Option.bind _) (funext ih)

theorem parseLines_append (lines following : List (List Char)) :
    ∀ (n : Nat) (p : Parser), (parseLines n (lines ++ following) p).toOption =
      (after? lines following p).bind fun p => (parseLines n following p).toOption := by
  induction lines with
  | nil =>
    intro n p
    rfl
  | cons line lines ih =>
    intro n p
    rw [List.cons_append, after?]
    cases hskip : isSkipped (stripComment line) with
    | true =>
      rw [parseLines_skip hskip, if_pos rfl, ih]
      exact congrArg (Option.bind _) (funext fun p => parseLines_number ..)
    | false =>
      rw [parseLines_line hskip, if_neg Bool.false_ne_true, Option.bind_assoc,
        line_congr p n 0 _ (fun _ => rfl)]
      refine congrArg (Option.bind _) (funext fun p => ?_)
      rw [ih]
      exact congrArg (Option.bind _) (funext fun p => parseLines_number ..)

/-! ## The stack -/

/-- The path of the topmost map, the root at the bottom. -/
def topPath (stack : List Frame) : List Slot := (stack.head?.map Frame.path).getD []

/-- The maps above which a line with the indent goes. -/
def popTo (indent : Nat) (stack : List Frame) : List Frame :=
  stack.dropWhile fun frame => indent ≤ frame.indent

/-- The stack that lines with these keys leave. -/
def frames : List Entry → List Frame
  | [] => []
  | e :: earlier =>
    let below := popTo e.indent (frames earlier)
    if e.opensMap then ⟨e.indent, topPath below ++ [.own e.key]⟩ :: below else below

/-- No key is indented under a key that has a value or a list. -/
def NoneUnderValue : List Entry → Prop
  | [] => True
  | e :: earlier =>
    (∀ e', enclosing earlier e.indent = some e' → e'.opensMap = true) ∧ NoneUnderValue earlier

theorem popTo_popTo {i j : Nat} (h : i ≤ j) (stack : List Frame) :
    popTo i (popTo j stack) = popTo i stack := by
  induction stack with
  | nil => rfl
  | cons f stack ih =>
    by_cases hj : j ≤ f.indent
    · have hi : i ≤ f.indent := Nat.le_trans h hj
      rw [popTo, popTo, List.dropWhile_cons_of_pos (by simpa using hj), popTo,
        List.dropWhile_cons_of_pos (by simpa using hi)]
      exact ih
    · rw [popTo, popTo, List.dropWhile_cons_of_neg (by simpa using hj)]
      rfl

/-- The top of the stack is the map of the nearest line with a smaller indent. -/
theorem topPath_frames {earlier : List Entry} (hearlier : NoneUnderValue earlier) :
    ∀ {indent : Nat}, (∀ e, enclosing earlier indent = some e → e.opensMap = true) →
      topPath (popTo indent (frames earlier)) = mapPath earlier indent := by
  induction earlier with
  | nil =>
    intro indent _
    rfl
  | cons e earlier ih =>
    intro indent hindent
    have ih := fun {indent : Nat} => @ih hearlier.2 indent
    rw [frames, mapPath]
    by_cases hlt : e.indent < indent
    · have hopens : e.opensMap = true :=
        hindent e (List.find?_cons_of_pos (by simpa using hlt))
      rw [if_pos hopens, if_pos (by rw [hopens, Bool.and_true]; exact decide_eq_true hlt), popTo,
        List.dropWhile_cons_of_neg (by simpa using hlt)]
      show topPath (popTo e.indent (frames earlier)) ++ _ = _
      rw [ih hearlier.1]
    · have hle : indent ≤ e.indent := Nat.le_of_not_lt hlt
      have hrest : ∀ e', enclosing earlier indent = some e' → e'.opensMap = true := by
        intro e' he'
        refine hindent e' ?_
        rw [enclosing, List.find?_cons_of_neg (by simpa using hlt)]
        exact he'
      have hnot : (decide (e.indent < indent) && e.opensMap) = false := by
        rw [decide_eq_false hlt, Bool.false_and]
      rw [hnot, if_neg Bool.false_ne_true]
      split
      next =>
        rw [popTo, List.dropWhile_cons_of_pos (by simpa using hle)]
        show topPath (popTo indent (popTo e.indent (frames earlier))) = _
        rw [popTo_popTo hle]
        exact ih hrest
      next =>
        rw [popTo_popTo hle]
        exact ih hrest

/-- The parser has read lines with these keys, none of them `__proto__`. -/
structure Tracks (p : Parser) (earlier : List Entry) : Prop where
  stack : p.stack = frames earlier
  root : IsOrdinary p.root
  maps : ∀ f ∈ p.stack, OwnPath f.path ∧ ∃ w, p.root.follow? f.path = some w ∧ IsOrdinary w
  chain : p.stack.Pairwise fun f g => g.path <+: f.path
  pending : ∀ q, p.pendingList = some q →
    OwnPath q.path ∧ ∃ xs, p.root.follow? q.path = some (.list xs)

theorem tracks_init : Tracks .init [] where
  stack := rfl
  root := Value.ordinary_emptyMap
  maps := fun _ hf => absurd hf List.not_mem_nil
  chain := List.Pairwise.nil
  pending := fun _ hq => absurd hq (by simp [Parser.init])

theorem Parser.eq_of_fields {p q : Parser} (hroot : p.root = q.root) (hstack : p.stack = q.stack)
    (hpending : p.pendingList = q.pendingList) : p = q := by
  cases p
  cases q
  exact (Parser.mk.injEq ..).mpr ⟨hroot, hstack, hpending⟩

/-- What a line with a key does: it closes maps, sets the key and begins what is below. -/
theorem line_entry (p : Parser) (n : Nat) {line : List Char} {following : List (List Char)}
    {e : Entry} (h : entryOf line following = some e) :
    isSkipped (stripComment line) = false ∧
    p.line n (indentOf (stripComment line)) (contentOf line) following = .ok (
      let r := { p with stack := popTo e.indent p.stack, pendingList := none : Parser }.assign
        (topPath (popTo e.indent p.stack)) e.key e.value
      { r.1 with
        stack := (if e.opensMap then (r.2.map fun path => ⟨e.indent, path⟩).toList else [])
          ++ r.1.stack
        pendingList := e.list.bind fun indent => r.2.map fun path => ⟨indent, path⟩ }) := by
  rw [entryOf] at h
  split at h
  next => cases h
  next hline =>
    rw [Bool.not_eq_true, Bool.or_eq_false_iff] at hline
    refine ⟨hline.1, ?_⟩
    rw [Parser.line, if_neg (by rw [hline.2]; exact Bool.false_ne_true)]
    cases hcolon : (contentOf line).dropWhile (· ≠ ':') with
    | nil =>
      rw [hcolon] at h
      cases h
    | cons c behind =>
      rw [hcolon] at h
      obtain rfl := Option.some.inj h
      by_cases hrest : trimmed behind = []
      · cases hbelow : listBelow? following with
        | none =>
          simp only [hrest, if_true, entryValue, hbelow, openKey_of_none _ _ _ _ hbelow]
          rw [assign_pendingList]
          rfl
        | some below =>
          simp only [hrest, if_true, entryValue, hbelow, openKey_of_some _ _ _ _ hbelow]
          rfl
      · have hpending := assign_pendingList { p with
          stack := popTo (indentOf (stripComment line)) p.stack, pendingList := none }
        simp only [hrest, if_false, entryValue]
        split
        next =>
          refine congrArg Except.ok ?_
          exact Parser.eq_of_fields rfl rfl (hpending ..)
        next =>
          refine congrArg Except.ok ?_
          exact Parser.eq_of_fields rfl rfl (hpending ..)

/-- What begins below a key is its value. -/
theorem entryOf_value {line : List Char} {following : List (List Char)} {e : Entry}
    (h : entryOf line following = some e) :
    (e.opensMap = true → e.value = .emptyMap) ∧ (∀ indent, e.list = some indent → e.value = .list []) := by
  rw [entryOf] at h
  split at h
  next => cases h
  next =>
    cases hcolon : (contentOf line).dropWhile (· ≠ ':') with
    | nil =>
      rw [hcolon] at h
      cases h
    | cons c behind =>
      rw [hcolon] at h
      obtain rfl := Option.some.inj h
      constructor
      · intro hopens
        rw [Bool.and_eq_true, decide_eq_true_eq] at hopens
        show entryValue (trimmed behind) following = _
        rw [entryValue, if_pos hopens.1, Option.isNone_iff_eq_none.mp hopens.2]
        rfl
      · intro indent hlist
        by_cases hrest : trimmed behind = []
        · have hbelow : listBelow? following = some indent := (if_pos hrest).symm.trans hlist
          show entryValue (trimmed behind) following = _
          rw [entryValue, if_pos hrest, hbelow]
          rfl
        · have hnone : none = some indent := (if_neg hrest).symm.trans hlist
          cases hnone

/-- The map on top, once some are closed. -/
theorem Tracks.top {p : Parser} {earlier : List Entry} (hp : Tracks p earlier) (indent : Nat) :
    OwnPath (topPath (popTo indent p.stack)) ∧
      (∃ w, p.root.follow? (topPath (popTo indent p.stack)) = some w ∧ IsOrdinary w) ∧
      ∀ f ∈ popTo indent p.stack, f.path <+: topPath (popTo indent p.stack) := by
  have hsublist : (popTo indent p.stack).Sublist p.stack :=
    (List.dropWhile_suffix (fun frame : Frame => indent ≤ frame.indent)).sublist
  have hchain := hp.chain.sublist hsublist
  have hmaps := fun f hf => hp.maps f (hsublist.mem hf)
  cases hstack : popTo indent p.stack with
  | nil => exact ⟨fun _ hs => absurd hs List.not_mem_nil, ⟨_, rfl, hp.root⟩,
      fun _ hf => absurd hf List.not_mem_nil⟩
  | cons f rest =>
    rw [hstack] at hchain hmaps
    obtain ⟨hown, hmap⟩ := hmaps f (List.mem_cons_self ..)
    refine ⟨hown, hmap, ?_⟩
    intro g hg
    rcases List.mem_cons.mp hg with rfl | hg
    · exact List.prefix_refl _
    · exact List.rel_of_pairwise_cons hchain hg

/-- In the map on top, a key other than `__proto__` is set as its own. -/
theorem Tracks.assign_top {p : Parser} {earlier : List Entry} (hp : Tracks p earlier) (indent : Nat)
    {key : String} (hkey : key ≠ "__proto__") (v : Value) :
    let parent := topPath (popTo indent p.stack)
    { p with stack := popTo indent p.stack, pendingList := none : Parser }.assign parent key v =
      ({ p with
          stack := popTo indent p.stack
          pendingList := none
          root := p.root.modifyAt (Value.place (.own key) v) parent },
        some (parent ++ [.own key])) := by
  obtain ⟨-, ⟨w, hw, hmap⟩, -⟩ := hp.top indent
  intro parent
  rw [Parser.assign]
  dsimp only
  rw [hw, Option.getD_some, Value.slotOf_ordinary hmap, if_neg hkey]

/-- In the map on top `__proto__` does not become a key. -/
theorem Tracks.assign_proto {p : Parser} {earlier : List Entry} (hp : Tracks p earlier) (indent : Nat)
    (v : Value) :
    let parent := topPath (popTo indent p.stack)
    ({ p with stack := popTo indent p.stack, pendingList := none : Parser }.assign parent
      "__proto__" v).1.root.follow? (parent ++ [.own "__proto__"]) = none := by
  obtain ⟨-, ⟨w, hw, hmap⟩, -⟩ := hp.top indent
  intro parent
  rw [Parser.assign]
  dsimp only
  rw [hw, Option.getD_some, Value.slotOf_ordinary hmap, if_pos rfl]
  cases v.isObject with
  | true =>
    show (p.root.modifyAt (Value.place .proto v) parent).follow? _ = none
    rw [Value.follow?_append, Value.follow?_modifyAt _ _ hw, Option.bind_some, Value.follow?,
      Value.read?_place_proto hmap]
    rfl
  | false =>
    show p.root.follow? _ = none
    obtain ⟨own, rfl, hown⟩ := hmap
    rw [Value.follow?_append, hw, Option.bind_some, Value.follow?]
    show (Js.getEntry "__proto__" own).bind _ = none
    rw [hown]
    rfl

/-- A key is set in the map on top, and the parser is on track. -/
theorem entry_tracks {p : Parser} {earlier : List Entry} (hp : Tracks p earlier) (n : Nat)
    {line : List Char} {following : List (List Char)} {e : Entry}
    (h : entryOf line following = some e) (hkey : e.key ≠ "__proto__") :
    ∃ p', p.line n (indentOf (stripComment line)) (contentOf line) following = .ok p' ∧
      Tracks p' (e :: earlier) ∧
      p'.root.follow? (topPath (popTo e.indent p.stack) ++ [.own e.key]) = some e.value := by
  refine ⟨_, (line_entry p n h).2, ?_⟩
  rw [hp.assign_top e.indent hkey]
  obtain ⟨hown, ⟨w, hw, hwmap⟩, hbelow⟩ := hp.top e.indent
  generalize hparent : topPath (popTo e.indent p.stack) = parent at hown hw hbelow
  have hownkey : OwnPath (parent ++ [.own e.key]) := by
    intro slot hslot
    rcases List.mem_append.mp hslot with hslot | hslot
    · exact hown slot hslot
    · exact ⟨e.key, List.mem_singleton.mp hslot, hkey⟩
  have hset : (p.root.modifyAt (Value.place (.own e.key) e.value) parent).follow?
      (parent ++ [.own e.key]) = some e.value := by
    rw [Value.follow?_append, Value.follow?_modifyAt _ _ hw, Option.bind_some, Value.follow?,
      Value.read?_place_own hwmap]
    rfl
  obtain ⟨hmapValue, hlistValue⟩ := entryOf_value h
  -- the maps that stay open lie on the way to the parent
  have hkept : ∀ f ∈ popTo e.indent p.stack, OwnPath f.path ∧
      ∃ u, (p.root.modifyAt (Value.place (.own e.key) e.value) parent).follow? f.path = some u ∧
        IsOrdinary u := by
    intro f hf
    obtain ⟨hfown, u, hu, humap⟩ :=
      hp.maps f ((List.dropWhile_suffix fun frame : Frame => e.indent ≤ frame.indent).mem hf)
    exact ⟨hfown, Value.ordinary_set hown hkey _ hw hwmap (hbelow f hf) hu humap⟩
  have hchain : (popTo e.indent p.stack).Pairwise fun f g => g.path <+: f.path :=
    hp.chain.sublist
      (List.dropWhile_suffix fun frame : Frame => e.indent ≤ frame.indent).sublist
  refine ⟨⟨?_, ?_, ?_, ?_, ?_⟩, hset⟩
  · rw [frames, ← hp.stack, hparent]
    cases e.opensMap with
    | true => rfl
    | false => rfl
  · obtain ⟨u, hu, humap⟩ := Value.ordinary_set hown hkey e.value hw hwmap List.nil_prefix
      (rfl : p.root.follow? [] = _) hp.root
    obtain rfl := Option.some.inj hu
    exact humap
  · intro f hf
    rcases List.mem_append.mp hf with hf | hf
    · cases hopens : e.opensMap with
      | false =>
        rw [hopens] at hf
        exact absurd hf List.not_mem_nil
      | true =>
        rw [hopens] at hf
        obtain rfl := List.mem_singleton.mp hf
        exact ⟨hownkey, _, hset, by rw [hmapValue hopens]; exact Value.ordinary_emptyMap⟩
    · exact hkept f hf
  · cases e.opensMap with
    | false => exact hchain
    | true =>
      refine List.pairwise_cons.mpr ⟨?_, hchain⟩
      intro f hf
      exact (hbelow f hf).trans (List.prefix_append ..)
  · intro q hq
    obtain ⟨indent, hlist, hq⟩ := Option.bind_eq_some_iff.mp hq
    obtain rfl := Option.some.inj hq
    exact ⟨hownkey, [], hset.trans (congrArg some (hlistValue indent hlist))⟩

/-- An item goes to its list, and the parser stays on track. -/
theorem item_tracks {p p' : Parser} {earlier : List Entry} (hp : Tracks p earlier) {n indent : Nat}
    {content : List Char} {following : List (List Char)}
    (hitem : ['-', ' '].isPrefixOf content = true)
    (h : p.line n indent content following = .ok p') : Tracks p' earlier := by
  rw [Parser.line, if_pos hitem] at h
  cases hpending : p.pendingList with
  | none =>
    rw [hpending] at h
    cases h
  | some q =>
    rw [hpending] at h
    dsimp only at h
    split at h
    next => cases h
    next =>
      obtain rfl := Except.ok.inj h
      obtain ⟨hown, xs, hlist⟩ := hp.pending q hpending
      have hkept : ∀ {other : List Slot} {w : Value}, p.root.follow? other = some w →
          IsOrdinary w → ∃ w', (p.root.modifyAt
            (Value.push (parseScalar (trimmed (content.drop 2)))) q.path).follow? other = some w' ∧
              IsOrdinary w' := by
        intro other w hw hmap
        exact Value.ordinary_modifyAt _ q.path hown (Value.not_prefix_of_list hlist hw hmap) hw hmap
      refine ⟨hp.stack, ?_, ?_, hp.chain, ?_⟩
      · obtain ⟨u, hu, humap⟩ := hkept (rfl : p.root.follow? [] = _) hp.root
        obtain rfl := Option.some.inj hu
        exact humap
      · intro f hf
        obtain ⟨hfown, w, hw, hmap⟩ := hp.maps f hf
        exact ⟨hfown, hkept hw hmap⟩
      · intro q' hq'
        obtain rfl := Option.some.inj hq'
        exact ⟨hown, _, Value.follow?_modifyAt _ _ hlist⟩

/-! ## Texts -/

/-- A line without a key is an item, or it is refused. -/
theorem line_of_entryOf_none {p p' : Parser} {n : Nat} {line : List Char}
    {following : List (List Char)} (hskip : isSkipped (stripComment line) = false)
    (h : entryOf line following = none)
    (hline : p.line n (indentOf (stripComment line)) (contentOf line) following = .ok p') :
    ['-', ' '].isPrefixOf (contentOf line) = true := by
  by_contra hitem
  rw [entryOf, hskip, Bool.false_or, if_neg hitem] at h
  rw [Parser.line, if_neg hitem] at hline
  cases hcolon : (contentOf line).dropWhile (· ≠ ':') with
  | nil =>
    rw [hcolon] at hline
    cases hline
  | cons c behind =>
    rw [hcolon] at h
    cases h

/-- The parser is on track after every line, while no key is `__proto__`. -/
theorem after?_tracks (lines following : List (List Char)) :
    ∀ {p p' : Parser} {earlier : List Entry}, Tracks p earlier →
      (∀ e ∈ entriesBefore lines following, e.key ≠ "__proto__") →
        after? lines following p = some p' →
          Tracks p' ((entriesBefore lines following).reverse ++ earlier) := by
  induction lines with
  | nil =>
    intro p p' earlier hp _ h
    obtain rfl := Option.some.inj h
    exact hp
  | cons line lines ih =>
    intro p p' earlier hp hkeys h
    rw [entriesBefore] at hkeys ⊢
    have hrest : ∀ e ∈ entriesBefore lines following, e.key ≠ "__proto__" :=
      fun e he => hkeys e (List.mem_append_right _ he)
    rw [List.reverse_append, List.append_assoc]
    rw [after?] at h
    split at h
    next hskip =>
      have hnone : entryOf line (lines ++ following) = none := by
        rw [entryOf, hskip, Bool.true_or, if_pos rfl]
      rw [hnone]
      exact ih hp hrest h
    next hskip =>
      obtain ⟨p₁, hline, h⟩ := Option.bind_eq_some_iff.mp h
      cases hentry : entryOf line (lines ++ following) with
      | some e =>
        have hkey : e.key ≠ "__proto__" :=
          hkeys e (List.mem_append_left _ (by rw [hentry]; exact List.mem_singleton.mpr rfl))
        obtain ⟨p₂, hp₂, htracks, -⟩ := entry_tracks hp 0 hentry hkey
        rw [hp₂] at hline
        obtain rfl := Option.some.inj hline
        exact ih htracks hrest h
      | none =>
        cases hrun : p.line 0 (indentOf (stripComment line)) (contentOf line)
            (lines ++ following) with
        | error e =>
          rw [hrun] at hline
          cases hline
        | ok p₂ =>
          rw [hrun] at hline
          obtain rfl := Option.some.inj hline
          exact ih (item_tracks hp
            (line_of_entryOf_none (Bool.not_eq_true _ |>.mp hskip) hentry hrun) hrun) hrest h

/-- The last of several lines. -/
theorem entriesBefore_concat (lines : List (List Char)) (line : List Char)
    (following : List (List Char)) :
    (entriesBefore (lines ++ [line]) following).reverse =
      (entryOf line following).toList ++ (entriesBefore lines (line :: following)).reverse := by
  rw [entriesBefore_append, entriesBefore, entriesBefore, List.append_nil, List.nil_append,
    List.reverse_append]
  refine congrArg (· ++ _) ?_
  cases entryOf line following with
  | none => rfl
  | some e => rfl

theorem noneUnderValue {src : List Char} (h : ¬ KeyUnderValue src) (lines : List (List Char)) :
    ∀ following, linesOf src = lines ++ following →
      NoneUnderValue (entriesBefore lines following).reverse := by
  induction lines using List.reverseRecOn with
  | nil =>
    intro following _
    trivial
  | append_singleton lines line ih =>
    intro following hsrc
    rw [List.append_assoc, List.singleton_append] at hsrc
    have ih := ih (line :: following) hsrc
    rw [entriesBefore_concat]
    cases hentry : entryOf line following with
    | none => exact ih
    | some e =>
      refine ⟨?_, ih⟩
      intro e' he'
      by_contra hvalue
      exact h ⟨lines, line, following, e, e', hsrc, hentry, he', Bool.not_eq_true _ |>.mp hvalue⟩

theorem NoneUnderValue.of_append (later : List Entry) {earlier : List Entry}
    (h : NoneUnderValue (later ++ earlier)) : NoneUnderValue earlier := by
  induction later with
  | nil => exact h
  | cons e later ih => exact ih h.2

/-- The condition, read off the keys of the text. -/
theorem not_keyUnderValue {src : List Char}
    (h : NoneUnderValue (entriesBefore (linesOf src) []).reverse) : ¬ KeyUnderValue src := by
  intro hgiven
  obtain ⟨lines, line, following, e, e', hsrc, hentry, henclosing, hvalue⟩ := hgiven
  rw [hsrc, ← List.singleton_append, ← List.append_assoc, entriesBefore_append,
    List.reverse_append, List.append_nil, entriesBefore_concat, hentry] at h
  have hopens := (h.of_append).1 e' henclosing
  rw [hvalue] at hopens
  cases hopens

/-- The line of the first key `__proto__`. -/
theorem first_proto (lines : List (List Char)) :
    ∀ {following : List (List Char)}, (∃ e ∈ entriesBefore lines following, e.key = "__proto__") →
      ∃ before line rest e, lines = before ++ line :: rest ∧
        entryOf line (rest ++ following) = some e ∧ e.key = "__proto__" ∧
        ∀ e' ∈ entriesBefore before (line :: (rest ++ following)), e'.key ≠ "__proto__" := by
  induction lines with
  | nil =>
    intro following hgiven
    obtain ⟨e, he, -⟩ := hgiven
    exact absurd he List.not_mem_nil
  | cons line lines ih =>
    intro following hgiven
    obtain ⟨e, he, hkey⟩ := hgiven
    by_cases hfirst : ∃ e₁, entryOf line (lines ++ following) = some e₁ ∧ e₁.key = "__proto__"
    · obtain ⟨e₁, hentry, hproto⟩ := hfirst
      exact ⟨[], line, lines, e₁, rfl, hentry, hproto,
        fun _ h => absurd h List.not_mem_nil⟩
    · have hlater : ∃ e ∈ entriesBefore lines following, e.key = "__proto__" := by
        rw [entriesBefore] at he
        rcases List.mem_append.mp he with he | he
        · exact absurd ⟨e, Option.mem_toList.mp he, hkey⟩ hfirst
        · exact ⟨e, he, hkey⟩
      obtain ⟨before, line₁, rest, e₁, rfl, hentry, hproto, hbefore⟩ := ih hlater
      refine ⟨line :: before, line₁, rest, e₁, rfl, hentry, hproto, ?_⟩
      intro e' he'
      rw [entriesBefore] at he'
      rcases List.mem_append.mp he' with he' | he'
      · intro hkey'
        refine hfirst ⟨e', ?_, hkey'⟩
        rw [List.append_assoc]
        exact Option.mem_toList.mp he'
      · exact hbefore e' he'

/-- An accepted text is read line by line. -/
theorem after?_of_accepted {src : List Char} (h : (accepted? src).isSome)
    {lines following : List (List Char)} (hsrc : linesOf src = lines ++ following) :
    ∃ p, after? lines following .init = some p := by
  rw [accepted?_eq, hsrc, parseLines_append] at h
  cases hrun : after? lines following .init with
  | none =>
    rw [hrun] at h
    cases h
  | some p => exact ⟨p, rfl⟩

/-- The step of the run over a line with a key. -/
theorem after?_entry {lines following : List (List Char)} {line : List Char} {p p' : Parser}
    {e : Entry} (hentry : entryOf line following = some e)
    (hp : after? lines (line :: following) .init = some p)
    (hline : p.line 0 (indentOf (stripComment line)) (contentOf line) following = .ok p') :
    after? (lines ++ [line]) following .init = some p' := by
  rw [after?_append]
  show (after? lines (line :: following) .init).bind _ = _
  rw [hp, Option.bind_some, after?, if_neg (by
    rw [(line_entry p 0 hentry).1]
    exact Bool.false_ne_true)]
  show (p.line 0 _ _ following).toOption.bind _ = _
  rw [hline]
  rfl

/-- The parser refuses nothing for its nesting: where a key stands under a value, and where
a key is `__proto__`, the contract is broken, and nowhere else. -/
theorem nesting_kept_iff {src : List Char} (haccepted : (accepted? src).isSome) :
    (NestingKept src ↔ ¬ KeyUnderValue src ∧ ¬ ProtoKey src) ∧
      Persona.parseYamlSubset src = parseYamlSubset src := by
  refine ⟨⟨?_, ?_⟩, rfl⟩
  · intro hgiven
    obtain ⟨hplaced, hrefused⟩ := hgiven
    have hunder : ¬ KeyUnderValue src := by
      intro h
      rw [hrefused h] at haccepted
      cases haccepted
    refine ⟨hunder, ?_⟩
    intro hproto
    obtain ⟨lines, line, following, e, hsrc, hentry, hkey, hbefore⟩ :=
      first_proto (linesOf src) hproto
    rw [List.append_nil] at hentry hbefore
    obtain ⟨p', hafter, hvalue⟩ := hplaced haccepted lines line following e hsrc hentry
    obtain ⟨p, hp⟩ := after?_of_accepted haccepted hsrc
    have htracks : Tracks p (entriesBefore lines (line :: following)).reverse := by
      have := after?_tracks lines (line :: following) tracks_init hbefore hp
      rwa [List.append_nil] at this
    have hopens : ∀ e', enclosing (entriesBefore lines (line :: following)).reverse e.indent
        = some e' → e'.opensMap = true := by
      intro e' he'
      by_contra hvalue'
      exact hunder ⟨lines, line, following, e, e', hsrc, hentry, he',
        Bool.not_eq_true _ |>.mp hvalue'⟩
    have hnone := htracks.assign_proto e.indent e.value
    rw [after?_entry hentry hp (line_entry p 0 hentry).2, Option.some.injEq] at hafter
    rw [← hafter, ← topPath_frames (noneUnderValue hunder lines _ hsrc) hopens, ← htracks.stack,
      hkey] at hvalue
    cases hnone.symm.trans hvalue
  · intro hgiven
    obtain ⟨hunder, hproto⟩ := hgiven
    refine ⟨?_, fun h => absurd h hunder⟩
    intro _ lines line following e hsrc hentry
    have hkeys : ∀ e' ∈ entriesBefore (linesOf src) [], e'.key ≠ "__proto__" :=
      fun e' he' hkey => hproto ⟨e', he', hkey⟩
    rw [hsrc, entriesBefore_append, List.append_nil, entriesBefore, List.append_nil, hentry] at hkeys
    obtain ⟨p, hp⟩ := after?_of_accepted haccepted hsrc
    have htracks := after?_tracks lines (line :: following) tracks_init
      (fun e' he' => hkeys e' (List.mem_append_left _ he')) hp
    rw [List.append_nil] at htracks
    obtain ⟨p', hline, -, hvalue⟩ := entry_tracks htracks 0 hentry
      (hkeys e (List.mem_append_right _ (List.mem_append_left _ (List.mem_singleton.mpr rfl))))
    refine ⟨p', after?_entry hentry hp hline, ?_⟩
    rw [htracks.stack, topPath_frames (noneUnderValue hunder lines _ hsrc)] at hvalue
    · exact hvalue
    · intro e' he'
      by_contra hopens
      exact hunder ⟨lines, line, following, e, e', hsrc, hentry, he',
        Bool.not_eq_true _ |>.mp hopens⟩

/-- A key in the map of the line before. -/
theorem nested_key_kept : NestingKept "gate:\n  retry: 3".toList := by
  have hkeys : entriesBefore (linesOf "gate:\n  retry: 3".toList) [] =
      [⟨0, "gate", true, none, .emptyMap⟩, ⟨2, "retry", false, none, .number (.fin 3)⟩] := rfl
  have haccepted : (accepted? "gate:\n  retry: 3".toList).isSome := by decide +kernel
  refine (nesting_kept_iff haccepted).1.mpr ⟨?_, ?_⟩
  · refine not_keyUnderValue ?_
    rw [hkeys]
    refine ⟨?_, ?_, trivial⟩
    · intro e' he'
      obtain rfl := Option.some.inj he'
      rfl
    · intro e' he'
      cases he'
  · intro hgiven
    obtain ⟨e, he, hkey⟩ := hgiven
    rw [hkeys] at he
    simp only [List.mem_cons, List.not_mem_nil, or_false] at he
    rcases he with rfl | rfl
    · exact absurd hkey (by decide)
    · exact absurd hkey (by decide)

/-- `max` is written under `retry`, which has a value; the text is accepted, and `max` is
a key of `gate`. -/
theorem key_reparented :
    (∃ root, accepted? "gate:\n  retry: 3\n    max: 5".toList = some root ∧
      root.follow? [.own "gate", .own "max"] = some (.number (.fin 5))) ∧
    ¬ ∀ src, NestingKept src := by
  refine ⟨⟨_, rfl, rfl⟩, ?_⟩
  intro h
  have hrefused := (h "gate:\n  retry: 3\n    max: 5".toList).2
    ⟨["gate:".toList, "  retry: 3".toList], "    max: 5".toList, [], _, _, by decide, rfl, rfl, rfl⟩
  have haccepted : (accepted? "gate:\n  retry: 3\n    max: 5".toList).isSome = true := by
    decide +kernel
  rw [hrefused] at haccepted
  cases haccepted

end Kovael.Workflow
