import Kovael.Workflow.Nesting

/-!
# Printed front matter

A tree of nested maps as text: a line for each key, two spaces for each level, lists inline or
as items below their key. `read` is what the parser makes of a leaf that was printed, and
`after?_lines` says that over the lines of a tree it makes of each key just that.

Mirroring notes vs the TypeScript:
- There is no printer in the source; this is the layout that its loader documents.
- Numbers are the integers that a JavaScript number holds, printed in decimal.
- Keys are identifiers, in a wide sense: what is not ASCII may be any character but white
  space.
-/

namespace Kovael.Workflow

open Js (isWhitespace)
open Value (Slot)

/-! ## Trees -/

def isIdentifierPart (c : Char) : Bool :=
  c.isAlphanum || c = '_' || c = '$' || (decide (0x80 ≤ c.toNat) && !isWhitespace c)

/-- An identifier. -/
structure Key where
  text : String
  nonempty : text.toList ≠ []
  parts : ∀ c ∈ text.toList, isIdentifierPart c = true
  head : ∀ c, text.toList.head? = some c → c.isDigit = false

/-- An integer that a number holds. -/
structure Integer where
  val : Int
  held : ∃ m e : Nat, m < 2 ^ 53 ∧ e ≤ 971 ∧ val.natAbs = m * 2 ^ e

/-- A string without quotes and newlines. -/
structure Quoted where
  text : String
  plain : ∀ c ∈ text.toList, c ≠ '\'' ∧ c ≠ '"' ∧ c ≠ '\n'

inductive Scalar where
  | int (n : Integer)
  | bool (b : Bool)
  | string (s : Quoted)

inductive Leaf where
  | scalar (x : Scalar)
  | inlineList (xs : List Scalar)
  | blockList (xs : List Scalar)

/-- The keys of a map, in order. -/
inductive Fields where
  | nil
  | leaf (key : Key) (value : Leaf) (rest : Fields)
  | map (key : Key) (inner rest : Fields)

/-! ## The text -/

/-- An integer in decimal. -/
def intText (n : Int) : List Char :=
  if n < 0 then '-' :: Nat.toDigits 10 n.natAbs else Nat.toDigits 10 n.natAbs

def Scalar.text : Scalar → List Char
  | .int n => intText n.val
  | .bool true => ['t', 'r', 'u', 'e']
  | .bool false => ['f', 'a', 'l', 's', 'e']
  | .string s => '\'' :: (s.text.toList ++ ['\''])

/-- `[a, b]`. -/
def inlineText (xs : List Scalar) : List Char :=
  '[' :: ([',', ' '].intercalate (xs.map Scalar.text) ++ [']'])

/-- `key:` with an indent. -/
def openLine (indent : Nat) (key : Key) : List Char :=
  List.replicate indent ' ' ++ (key.text.toList ++ [':'])

/-- `key: value` with an indent. -/
def valueLine (indent : Nat) (key : Key) (text : List Char) : List Char :=
  List.replicate indent ' ' ++ (key.text.toList ++ ':' :: ' ' :: text)

/-- `- item` with an indent. -/
def itemLine (indent : Nat) (text : List Char) : List Char :=
  List.replicate indent ' ' ++ '-' :: ' ' :: text

def Leaf.lines (indent : Nat) (key : Key) : Leaf → List (List Char)
  | .scalar x => [valueLine indent key x.text]
  | .inlineList xs => [valueLine indent key (inlineText xs)]
  | .blockList xs => openLine indent key :: xs.map fun x => itemLine (indent + 2) x.text

def Fields.lines (indent : Nat) : Fields → List (List Char)
  | .nil => []
  | .leaf key value rest => value.lines indent key ++ rest.lines indent
  | .map key inner rest => openLine indent key :: (inner.lines (indent + 2) ++ rest.lines indent)

/-! ## The value, and what is read -/

def Scalar.value : Scalar → Value
  | .int n => .number (.fin n.val)
  | .bool b => .bool b
  | .string s => .string s.text

def Leaf.value : Leaf → Value
  | .scalar x => x.value
  | .inlineList xs => .list (xs.map Scalar.value)
  | .blockList xs => .list (xs.map Scalar.value)

def Fields.value : Fields → List (String × Value)
  | .nil => []
  | .leaf key value rest => (key.text, value.value) :: rest.value
  | .map key inner rest => (key.text, .map inner.value .objectPrototype) :: rest.value

def Fields.keys : Fields → List String
  | .nil => []
  | .leaf key _ rest => key.text :: rest.keys
  | .map key _ rest => key.text :: rest.keys

/-- What is read behind a key. -/
def readText (text : List Char) : Value := entryValue (trimmed (stripComment text)) []

/-- What is read behind the dash of an item. -/
def readItem (text : List Char) : Value := parseScalar (trimmed (stripComment text))

def Leaf.read : Leaf → Value
  | .scalar x => readText x.text
  | .inlineList xs => readText (inlineText xs)
  | .blockList [] => .emptyMap
  | .blockList (x :: xs) => .list ((x :: xs).map fun x => readItem x.text)

def Fields.read : Fields → List (String × Value)
  | .nil => []
  | .leaf key value rest => (key.text, value.read) :: rest.read
  | .map key inner rest => (key.text, .map inner.read .objectPrototype) :: rest.read

/-- The keys of each map are distinct, and no map below a key is empty. -/
def Fields.WellFormed : Fields → Prop
  | .nil => True
  | .leaf key _ rest => key.text ∉ rest.keys ∧ rest.WellFormed
  | .map key inner rest =>
    key.text ∉ rest.keys ∧ inner ≠ .nil ∧ inner.WellFormed ∧ rest.WellFormed

/-- No key is `__proto__`. -/
def Fields.NoProto : Fields → Prop
  | .nil => True
  | .leaf key _ rest => key.text ≠ "__proto__" ∧ rest.NoProto
  | .map key inner rest => key.text ≠ "__proto__" ∧ inner.NoProto ∧ rest.NoProto

/-! ## Lines -/

/-- The text begins with neither white space nor a comment. -/
def Starts (text : List Char) : Prop :=
  ∃ c cs, text = c :: cs ∧ isWhitespace c = false ∧ c ≠ '#'

theorem stripComment_of_not_space {c : Char} (hc : isWhitespace c = false) (cs : List Char) :
    stripComment (c :: cs) = c :: stripComment cs := by
  rw [stripComment, startsComment, hc, Bool.false_and, if_neg Bool.false_ne_true]

theorem dropWhile_of_starts {text : List Char} (h : Starts text) :
    text.dropWhile isWhitespace = text := by
  obtain ⟨c, cs, rfl, hc, -⟩ := h
  exact List.dropWhile_cons_of_neg (by rw [hc]; exact Bool.false_ne_true)

theorem Starts.strip {text : List Char} (h : Starts text) : Starts (stripComment text) := by
  obtain ⟨c, cs, rfl, hc, hcomment⟩ := h
  exact ⟨c, stripComment cs, stripComment_of_not_space hc cs, hc, hcomment⟩

theorem dropWhile_spaces (n : Nat) (text : List Char) :
    (List.replicate n ' ' ++ text).dropWhile isWhitespace = text.dropWhile isWhitespace := by
  refine List.dropWhile_append_of_pos ?_
  intro c hc
  rw [List.eq_of_mem_replicate hc]
  rfl

/-- Spaces before a text stay. -/
theorem stripComment_spaces (n : Nat) {text : List Char} (h : Starts text) :
    stripComment (List.replicate n ' ' ++ text) = List.replicate n ' ' ++ stripComment text := by
  induction n with
  | zero => rfl
  | succ n ih =>
    have hdrop : (List.replicate (n + 1) ' ' ++ text).dropWhile isWhitespace = text := by
      rw [dropWhile_spaces, dropWhile_of_starts h]
    obtain ⟨c, cs, rfl, hc, hcomment⟩ := h
    rw [List.replicate_succ, List.cons_append] at hdrop ⊢
    rw [stripComment, startsComment, hdrop, if_neg, ih, List.cons_append]
    rw [Bool.and_eq_true]
    intro hgiven
    obtain ⟨-, hstarts⟩ := hgiven
    split at hstarts
    next heq => exact hcomment (List.cons.inj heq).1
    next => cases hstarts

/-- Characters other than white space stay. -/
theorem stripComment_word {word : List Char} (h : ∀ c ∈ word, isWhitespace c = false)
    (text : List Char) : stripComment (word ++ text) = word ++ stripComment text := by
  induction word with
  | nil => rfl
  | cons c word ih =>
    rw [List.cons_append, stripComment_of_not_space (h c (List.mem_cons_self ..)),
      ih fun d hd => h d (List.mem_cons_of_mem _ hd), List.cons_append]

theorem trimmed_eq_self {cs : List Char} (hhead : ∀ c, cs.head? = some c → isWhitespace c = false)
    (hlast : ∀ c, cs.getLast? = some c → isWhitespace c = false) : trimmed cs = cs := by
  have hdrop : ∀ {xs : List Char}, (∀ c, xs.head? = some c → isWhitespace c = false) →
      xs.dropWhile isWhitespace = xs := by
    intro xs hxs
    cases xs with
    | nil => rfl
    | cons c xs =>
      exact List.dropWhile_cons_of_neg (by rw [hxs c rfl]; exact Bool.false_ne_true)
  rw [trimmed, hdrop hhead, hdrop, List.reverse_reverse]
  intro c hc
  rw [List.head?_reverse] at hc
  exact hlast c hc

theorem not_space_of_part {c : Char} (h : isIdentifierPart c = true) : isWhitespace c = false := by
  rw [isIdentifierPart, Bool.or_eq_true, Bool.or_eq_true, Bool.or_eq_true, decide_eq_true_eq,
    decide_eq_true_eq, Bool.and_eq_true, Bool.not_eq_true'] at h
  rcases h with ((halnum | rfl) | rfl) | hhigh
  · have hrange := Js.isAlphanum_range halnum
    rw [← Bool.not_eq_true]
    intro hspace
    simp only [isWhitespace, Bool.or_eq_true, Bool.and_eq_true, decide_eq_true_eq] at hspace
    omega
  · decide
  · decide
  · exact hhigh.2

theorem ne_of_part {c d : Char} (h : isIdentifierPart c = true) (hd : isIdentifierPart d = false) :
    c ≠ d := by
  intro heq
  obtain rfl := heq
  rw [h] at hd
  cases hd

namespace Key

variable (key : Key)

theorem not_space : ∀ c ∈ key.text.toList, isWhitespace c = false :=
  fun c hc => not_space_of_part (key.parts c hc)

theorem not_mem {d : Char} (hd : isIdentifierPart d = false) : d ∉ key.text.toList :=
  fun hmem => ne_of_part (key.parts d hmem) hd rfl

/-- A line that begins with a key. -/
theorem starts (text : List Char) : Starts (key.text.toList ++ text) := by
  cases hkey : key.text.toList with
  | nil => exact absurd hkey key.nonempty
  | cons c cs =>
    have hpart := key.parts c (by rw [hkey]; exact List.mem_cons_self ..)
    exact ⟨c, cs ++ text, rfl, not_space_of_part hpart, ne_of_part hpart (by decide)⟩

/-- A key is no item. -/
theorem not_item (text : List Char) : ['-', ' '].isPrefixOf (key.text.toList ++ text) = false := by
  cases hkey : key.text.toList with
  | nil => exact absurd hkey key.nonempty
  | cons c cs =>
    have hpart := key.parts c (by rw [hkey]; exact List.mem_cons_self ..)
    rw [List.cons_append, List.isPrefixOf_cons_cons, beq_false_of_ne, Bool.false_and]
    exact (ne_of_part hpart (by decide)).symm

theorem trimmed_text : trimmed key.text.toList = key.text.toList :=
  trimmed_eq_self (fun c hc => key.not_space c (List.mem_of_mem_head? hc))
    (fun c hc => key.not_space c (List.mem_of_getLast? hc))

/-- Where the key of a line ends. -/
theorem takeWhile_text (text : List Char) :
    (key.text.toList ++ ':' :: text).takeWhile (· ≠ ':') = key.text.toList ∧
      (key.text.toList ++ ':' :: text).dropWhile (· ≠ ':') = ':' :: text := by
  have hall : ∀ c ∈ key.text.toList, decide (c ≠ ':') = true := by
    intro c hc
    exact decide_eq_true (ne_of_part (key.parts c hc) (by decide))
  rw [List.takeWhile_append_of_pos hall, List.dropWhile_append_of_pos hall]
  exact ⟨List.append_nil _, rfl⟩

end Key

/-! ## What a line says -/

theorem indentOf_spaces (n : Nat) {text : List Char} (h : Starts text) :
    indentOf (List.replicate n ' ' ++ text) = n := by
  obtain ⟨c, cs, rfl, hc, -⟩ := h
  have hspace : ∀ c ∈ List.replicate n ' ', decide (c = ' ') = true := by
    intro c hc
    exact decide_eq_true (List.eq_of_mem_replicate hc)
  have hne : decide (c = ' ') = false := by
    refine decide_eq_false ?_
    intro heq
    obtain rfl := heq
    exact absurd hc (by decide)
  rw [indentOf, List.takeWhile_append_of_pos hspace, List.takeWhile_cons, hne,
    if_neg Bool.false_ne_true, List.append_nil, List.length_replicate]

/-- What is read of a line with an indent. -/
theorem line_of_starts (indent : Nat) {text : List Char} (h : Starts text) :
    isSkipped (stripComment (List.replicate indent ' ' ++ text)) = false ∧
      indentOf (stripComment (List.replicate indent ' ' ++ text)) = indent ∧
      contentOf (List.replicate indent ' ' ++ text) = stripComment text := by
  have hindent : indentOf (stripComment (List.replicate indent ' ' ++ text)) = indent := by
    rw [stripComment_spaces indent h, indentOf_spaces indent h.strip]
  refine ⟨?_, hindent, ?_⟩
  · rw [isSkipped_eq, stripComment_spaces indent h, dropWhile_spaces, dropWhile_of_starts h.strip]
    obtain ⟨c, cs, hstrip, -, hcomment⟩ := h.strip
    rw [hstrip]
    simpa using hcomment
  · rw [contentOf, hindent, stripComment_spaces indent h]
    exact List.drop_left' List.length_replicate

theorem trimmed_space (text : List Char) : trimmed (' ' :: text) = trimmed text := by
  rw [trimmed, List.dropWhile_cons_of_pos (by decide), trimmed]

theorem trimmed_ne_nil {text : List Char} (h : Starts text) : trimmed (stripComment text) ≠ [] := by
  obtain ⟨c, cs, hstrip, hc, -⟩ := h.strip
  intro hnil
  have hhead := head?_trimmed (stripComment text)
  rw [hnil, dropWhile_of_starts h.strip, hstrip] at hhead
  cases hhead

/-- A line with a key. -/
theorem entryOf_key (indent : Nat) (key : Key) {behind : List Char}
    (hbehind : stripComment (':' :: behind) = ':' :: stripComment behind)
    (following : List (List Char)) :
    entryOf (List.replicate indent ' ' ++ (key.text.toList ++ ':' :: behind)) following = some {
      indent := indent
      key := key.text
      opensMap := trimmed (stripComment behind) = [] && (listBelow? following).isNone
      list := if trimmed (stripComment behind) = [] then listBelow? following else none
      value := entryValue (trimmed (stripComment behind)) following } := by
  obtain ⟨hskip, hindent, hcontent⟩ := line_of_starts indent (key.starts (':' :: behind))
  rw [stripComment_word key.not_space, hbehind] at hcontent
  obtain ⟨htake, hdrop⟩ := key.takeWhile_text (stripComment behind)
  rw [entryOf, hskip, hindent, hcontent, key.not_item, Bool.or_false, if_neg Bool.false_ne_true,
    hdrop,
    htake, key.trimmed_text, String.ofList_toList]

theorem entryOf_openLine (indent : Nat) (key : Key) (following : List (List Char)) :
    entryOf (openLine indent key) following = some {
      indent := indent
      key := key.text
      opensMap := (listBelow? following).isNone
      list := listBelow? following
      value := entryValue [] following } := by
  rw [openLine, entryOf_key indent key (by decide)]
  rfl

theorem entryOf_valueLine (indent : Nat) (key : Key) {text : List Char} (h : Starts text)
    (following : List (List Char)) :
    entryOf (valueLine indent key text) following = some {
      indent := indent
      key := key.text
      opensMap := false
      list := none
      value := readText text } := by
  have hbehind : stripComment (' ' :: text) = ' ' :: stripComment text := stripComment_spaces 1 h
  have hne := trimmed_ne_nil h
  rw [valueLine, entryOf_key indent key (stripComment_of_not_space (by decide) _), hbehind,
    trimmed_space, decide_eq_false hne, Bool.false_and, if_neg hne]
  have hvalue : ∀ {rest : List Char}, rest ≠ [] →
      entryValue rest following = entryValue rest [] := by
    intro rest hrest
    rw [entryValue, entryValue, if_neg hrest, if_neg hrest]
  rw [hvalue hne, readText]

/-! ## Runs over what was printed -/

/-- What is below a key, by the next line. -/
theorem listBelow?_spaces (n : Nat) {text : List Char} (h : Starts text)
    (following : List (List Char)) :
    listBelow? ((List.replicate n ' ' ++ text) :: following) =
      if ['-', ' '].isPrefixOf text then some n else none := by
  have hpeeked := isPeeked_of_not_isSkipped (line_of_starts n h).1
  rw [listBelow?, peekNext_cons, if_pos hpeeked, Option.bind_some, isListItem, dropWhile_spaces,
    dropWhile_of_starts h, indentOf_spaces n h]

theorem starts_item (text : List Char) : Starts ('-' :: ' ' :: text) :=
  ⟨'-', ' ' :: text, rfl, by decide, by decide⟩

/-- The parser is in a map, at the level of the indent. -/
structure At (p : Parser) (indent : Nat) (path : List Slot) (own : List (String × Value)) :
    Prop where
  top : topPath (popTo indent p.stack) = path
  map : p.root.follow? path = some (.map own .objectPrototype)
  proto : "__proto__" ∉ own.map Prod.fst

/-- The parser has changed what is in the map, and is at its level again. -/
structure Ran (p p' : Parser) (indent : Nat) (path : List Slot) (own : List (String × Value)) :
    Prop where
  root : p'.root = p.root.modifyAt (fun _ => .map own .objectPrototype) path
  stack : ∀ j ≤ indent, popTo j p'.stack = popTo j p.stack

theorem Ran.at {p p' : Parser} {indent : Nat} {path : List Slot} {own own' : List (String × Value)}
    (h : Ran p p' indent path own') (hat : At p indent path own)
    (hproto : "__proto__" ∉ own'.map Prod.fst) : At p' indent path own' := by
  refine ⟨?_, ?_, hproto⟩
  · rw [h.stack indent le_rfl]
    exact hat.top
  · rw [h.root]
    exact Value.follow?_modifyAt _ _ hat.map

theorem At.not_proto_concat {p : Parser} {indent : Nat} {path : List Slot}
    {own : List (String × Value)} (h : At p indent path own) {key : String}
    (hkey : key ≠ "__proto__") (v : Value) :
    "__proto__" ∉ (own ++ [(key, v)]).map Prod.fst := by
  rw [List.map_append, List.mem_append, not_or]
  exact ⟨h.proto, fun hmem => hkey (List.mem_singleton.mp hmem).symm⟩

/-- Keys that were not there are not the one that was added. -/
theorem fresh_concat {keys : List String} {own : List (String × Value)} {key : String}
    (hkey : key ∉ keys) (hkeys : ∀ k ∈ keys, k ∉ own.map Prod.fst) (v : Value) :
    ∀ k ∈ keys, k ∉ (own ++ [(key, v)]).map Prod.fst := by
  intro k hk hmem
  rw [List.map_append, List.mem_append] at hmem
  rcases hmem with hmem | hmem
  · exact hkeys k hk hmem
  · obtain rfl := List.mem_singleton.mp hmem
    exact hkey hk

theorem Ran.trans {p p' p'' : Parser} {indent : Nat} {path : List Slot}
    {own own' : List (String × Value)} (h : Ran p p' indent path own)
    (h' : Ran p' p'' indent path own') : Ran p p'' indent path own' := by
  refine ⟨?_, fun j hj => (h'.stack j hj).trans (h.stack j hj)⟩
  rw [h'.root, h.root, Value.modifyAt_modifyAt]

/-- A line with a key sets it in the map. -/
theorem after?_key {p : Parser} {line : List Char} {lines following : List (List Char)} {e : Entry}
    {path : List Slot} {own : List (String × Value)}
    (hentry : entryOf line (lines ++ following) = some e) (hat : At p e.indent path own)
    (hkey : e.key ≠ "__proto__") (hnew : e.key ∉ own.map Prod.fst) :
    after? (line :: lines) following p = after? lines following {
      root := p.root.modifyAt (fun _ => .map (own ++ [(e.key, e.value)]) .objectPrototype) path
      stack := (if e.opensMap then [⟨e.indent, path ++ [.own e.key]⟩] else []) ++
        popTo e.indent p.stack
      pendingList := e.list.map fun indent => ⟨indent, path ++ [.own e.key]⟩ } := by
  obtain ⟨hskip, hline⟩ := line_entry p 0 hentry
  have hordinary : Value.IsOrdinary (.map own .objectPrototype) :=
    ⟨own, rfl, Js.getEntry_eq_none_iff.mpr hat.proto⟩
  have hassign : ({ p with stack := popTo e.indent p.stack, pendingList := none : Parser }).assign
      (topPath (popTo e.indent p.stack)) e.key e.value =
      ({ root := p.root.modifyAt (fun _ => .map (own ++ [(e.key, e.value)]) .objectPrototype) path
         stack := popTo e.indent p.stack
         pendingList := none }, some (path ++ [.own e.key])) := by
    have hplace : Value.place (.own e.key) e.value (.map own .objectPrototype) =
        .map (own ++ [(e.key, e.value)]) .objectPrototype :=
      congrArg (Value.map · .objectPrototype) (Js.setEntry_of_not_mem hnew)
    have hroot : p.root.modifyAt (Value.place (.own e.key) e.value) path =
        p.root.modifyAt (fun _ => .map (own ++ [(e.key, e.value)]) .objectPrototype) path :=
      Value.modifyAt_congr path hat.map hplace
    rw [Parser.assign]
    dsimp only
    rw [hat.top, hat.map, Option.getD_some, Value.slotOf_ordinary hordinary, if_neg hkey]
    dsimp only
    rw [hroot]
  rw [after?, if_neg (by rw [hskip]; exact Bool.false_ne_true), hline, hassign]
  show after? lines following _ = _
  refine congrArg (after? lines following) ((Parser.mk.injEq ..).mpr ⟨rfl, ?_, ?_⟩)
  · cases e.opensMap with
    | true => rfl
    | false => rfl
  · cases e.list with
    | none => rfl
    | some below => rfl

/-- What is read of a line with an item. -/
theorem line_of_item (indent : Nat) {text : List Char} (h : Starts text) :
    isSkipped (stripComment (itemLine indent text)) = false ∧
      indentOf (stripComment (itemLine indent text)) = indent ∧
      contentOf (itemLine indent text) = '-' :: ' ' :: stripComment text := by
  obtain ⟨hskip, hindent, hcontent⟩ := line_of_starts indent (starts_item text)
  have hstrip : stripComment ('-' :: ' ' :: text) = '-' :: ' ' :: stripComment text :=
    (stripComment_of_not_space (by decide) _).trans
      (congrArg ('-' :: ·) (stripComment_spaces 1 h))
  rw [hstrip] at hcontent
  exact ⟨hskip, hindent, hcontent⟩

/-- An item is pushed. -/
theorem after?_item {p : Parser} {indent : Nat} {path : List Slot} {text : List Char}
    {lines following : List (List Char)} (hpending : p.pendingList = some ⟨indent, path⟩)
    (h : Starts text) :
    after? (itemLine indent text :: lines) following p =
      after? lines following
        { p with root := p.root.modifyAt (Value.push (readItem text)) path } := by
  obtain ⟨hskip, hindent, hcontent⟩ := line_of_item indent h
  rw [after?, hskip, if_neg Bool.false_ne_true, hindent, hcontent, Parser.line, if_pos (by rfl),
    hpending]
  dsimp only
  rw [if_neg (not_not_intro rfl)]
  rfl

/-- The items of a list are pushed in order. -/
theorem after?_items {indent : Nat} {path : List Slot} (texts : List (List Char))
    (htexts : ∀ text ∈ texts, Starts text) (following : List (List Char)) :
    ∀ {p : Parser} {ys : List Value}, p.pendingList = some ⟨indent, path⟩ →
      p.root.follow? path = some (.list ys) →
      ∃ p', after? (texts.map (itemLine indent)) following p = some p' ∧
        p'.root = p.root.modifyAt (fun _ => .list (ys ++ texts.map readItem)) path ∧
        p'.stack = p.stack := by
  induction texts with
  | nil =>
    intro p ys _ hlist
    refine ⟨p, rfl, ?_, rfl⟩
    rw [List.map_nil, List.append_nil, Value.modifyAt_self hlist]
  | cons text texts ih =>
    intro p ys hpending hlist
    have hpushed : p.root.modifyAt (Value.push (readItem text)) path =
        p.root.modifyAt (fun _ => .list (ys ++ [readItem text])) path :=
      Value.modifyAt_congr path hlist rfl
    obtain ⟨p', hafter, hroot, hstack⟩ := @ih (fun t ht => htexts t (List.mem_cons_of_mem _ ht))
      { p with root := p.root.modifyAt (Value.push (readItem text)) path }
      (ys ++ [readItem text]) hpending (by
        dsimp only
        rw [hpushed]
        exact Value.follow?_modifyAt _ _ hlist)
    refine ⟨p', ?_, ?_, hstack⟩
    · rw [List.map_cons, after?_item hpending (htexts text (List.mem_cons_self ..))]
      exact hafter
    · rw [hroot]
      dsimp only
      rw [hpushed, Value.modifyAt_modifyAt, List.append_assoc]
      rfl

/-! ## Leaves and trees -/

theorem isIdentifierPart_of_isDigit {c : Char} (h : c.isDigit = true) :
    isIdentifierPart c = true := by
  rw [isIdentifierPart, Char.isAlphanum, h, Bool.or_true]
  rfl

theorem starts_intText (n : Int) : Starts (intText n) := by
  have hdigits : Starts (Nat.toDigits 10 n.natAbs) := by
    cases htext : Nat.toDigits 10 n.natAbs with
    | nil => exact absurd htext Nat.toDigits_ne_nil
    | cons c cs =>
      have hdigit : c.isDigit = true :=
        Nat.isDigit_of_mem_toDigits (by decide) le_rfl (by rw [htext]; exact List.mem_cons_self ..)
      have hpart := isIdentifierPart_of_isDigit hdigit
      exact ⟨c, cs, rfl, not_space_of_part hpart, ne_of_part hpart (by decide)⟩
  rw [intText]
  split
  next => exact ⟨'-', _, rfl, by decide, by decide⟩
  next => exact hdigits

theorem Scalar.starts (x : Scalar) : Starts x.text := by
  cases x with
  | int n => exact starts_intText n.val
  | bool b =>
    cases b with
    | true => exact ⟨'t', _, rfl, by decide, by decide⟩
    | false => exact ⟨'f', _, rfl, by decide, by decide⟩
  | string s => exact ⟨'\'', _, rfl, by decide, by decide⟩

theorem starts_inlineText (xs : List Scalar) : Starts (inlineText xs) :=
  ⟨'[', _, rfl, by decide, by decide⟩

/-- A line with a key and a value. -/
theorem after?_valueLine {p : Parser} {indent : Nat} {path : List Slot}
    {own : List (String × Value)} {key : Key} {text : List Char} (following : List (List Char))
    (htext : Starts text) (hat : At p indent path own) (hkey : key.text ≠ "__proto__")
    (hnew : key.text ∉ own.map Prod.fst) :
    ∃ p', after? [valueLine indent key text] following p = some p' ∧
      Ran p p' indent path (own ++ [(key.text, readText text)]) := by
  have hentry := entryOf_valueLine indent key htext ([] ++ following)
  refine ⟨_, after?_key hentry hat hkey hnew, rfl, ?_⟩
  intro j hj
  exact popTo_popTo hj p.stack

/-- A line with a key below which a map begins. -/
theorem after?_openLine {p : Parser} {indent : Nat} {path : List Slot}
    {own : List (String × Value)} {key : Key} {lines following : List (List Char)}
    (hbelow : listBelow? (lines ++ following) = none) (hat : At p indent path own)
    (hkey : key.text ≠ "__proto__") (hnew : key.text ∉ own.map Prod.fst) :
    ∃ p', after? (openLine indent key :: lines) following p = after? lines following p' ∧
      Ran p p' indent path (own ++ [(key.text, .emptyMap)]) ∧
      At p' (indent + 2) (path ++ [.own key.text]) [] := by
  have hentry := entryOf_openLine indent key (lines ++ following)
  have hvalue : entryValue [] (lines ++ following) = .emptyMap := by
    rw [entryValue, if_pos rfl, hbelow]
    rfl
  rw [hbelow, hvalue] at hentry
  refine ⟨_, after?_key hentry hat hkey hnew, ⟨rfl, ?_⟩, ?_, ?_, List.not_mem_nil⟩
  · intro j hj
    show popTo j (⟨indent, path ++ [.own key.text]⟩ :: popTo indent p.stack) = popTo j p.stack
    rw [popTo, List.dropWhile_cons_of_pos (by simpa using hj)]
    exact popTo_popTo hj p.stack
  · show topPath (popTo (indent + 2)
      (⟨indent, path ++ [.own key.text]⟩ :: popTo indent p.stack)) = _
    rw [popTo, List.dropWhile_cons_of_neg (by simp)]
    rfl
  · dsimp only
    rw [Value.follow?_append, Value.follow?_modifyAt _ _ hat.map, Option.bind_some]
    exact Value.follow?_last hnew _ _

/-- Below the last key of the map, the map has changed with the value below. -/
theorem Ran.below {p p' p'' : Parser} {indent : Nat} {path : List Slot}
    {own own' : List (String × Value)} {key : String} {v : Value}
    (h : Ran p p' indent path (own ++ [(key, v)])) (hnew : key ∉ own.map Prod.fst)
    (h' : Ran p' p'' (indent + 2) (path ++ [.own key]) own') :
    Ran p p'' indent path (own ++ [(key, .map own' .objectPrototype)]) := by
  refine ⟨?_, fun j hj => (h'.stack j (hj.trans (Nat.le_add_right ..))).trans (h.stack j hj)⟩
  rw [h'.root, h.root, Value.modifyAt_below hnew]

/-- A list of items below its key. -/
theorem after?_blockList {p : Parser} {indent : Nat} {path : List Slot}
    {own : List (String × Value)} {key : Key} (x : Scalar) (xs : List Scalar)
    (following : List (List Char)) (hat : At p indent path own) (hkey : key.text ≠ "__proto__")
    (hnew : key.text ∉ own.map Prod.fst) :
    ∃ p', after? ((Leaf.blockList (x :: xs)).lines indent key) following p = some p' ∧
      Ran p p' indent path (own ++ [(key.text, (Leaf.blockList (x :: xs)).read)]) := by
  have hitems : ∀ ys : List Scalar, ys.map (fun y => itemLine (indent + 2) y.text) =
      (ys.map Scalar.text).map (itemLine (indent + 2)) := by
    intro ys
    rw [List.map_map]
    rfl
  have hread : ∀ ys : List Scalar, (ys.map Scalar.text).map readItem =
      ys.map fun y => readItem y.text := by
    intro ys
    rw [List.map_map]
    rfl
  have hbelow : listBelow? ((x :: xs).map (fun y => itemLine (indent + 2) y.text) ++ following) =
      some (indent + 2) := by
    rw [List.map_cons, List.cons_append, itemLine, listBelow?_spaces _ (starts_item _)]
    rfl
  have hentry := entryOf_openLine indent key
    ((x :: xs).map (fun y => itemLine (indent + 2) y.text) ++ following)
  have hvalue : entryValue []
      ((x :: xs).map (fun y => itemLine (indent + 2) y.text) ++ following) = .list [] := by
    rw [entryValue, if_pos rfl, hbelow]
    rfl
  rw [hbelow, hvalue] at hentry
  have htexts : ∀ text ∈ (x :: xs).map Scalar.text, Starts text := by
    intro text htext
    obtain ⟨y, -, rfl⟩ := List.mem_map.mp htext
    exact y.starts
  rw [Leaf.lines, after?_key hentry hat hkey hnew, hitems]
  obtain ⟨p', hafter, hroot, hstack⟩ := @after?_items (indent + 2) (path ++ [.own key.text]) _
    htexts following
    { root := p.root.modifyAt
        (fun _ => .map (own ++ [(key.text, .list [])]) .objectPrototype) path
      stack := popTo indent p.stack
      pendingList := some ⟨indent + 2, path ++ [.own key.text]⟩ } [] rfl (by
        dsimp only
        rw [Value.follow?_append, Value.follow?_modifyAt _ _ hat.map, Option.bind_some]
        exact Value.follow?_last hnew _ _)
  refine ⟨p', hafter, ?_, ?_⟩
  · rw [hroot, List.nil_append, hread, Leaf.read, Value.modifyAt_below hnew]
  · intro j hj
    rw [hstack]
    exact popTo_popTo hj p.stack

/-- Over the lines of a leaf, its key is set to what is read of it. -/
theorem after?_leaf {p : Parser} {indent : Nat} {path : List Slot} {own : List (String × Value)}
    {key : Key} (value : Leaf) {following : List (List Char)}
    (hbelow : listBelow? following = none) (hat : At p indent path own)
    (hkey : key.text ≠ "__proto__") (hnew : key.text ∉ own.map Prod.fst) :
    ∃ p', after? (value.lines indent key) following p = some p' ∧
      Ran p p' indent path (own ++ [(key.text, value.read)]) := by
  cases value with
  | scalar x => exact after?_valueLine following x.starts hat hkey hnew
  | inlineList xs => exact after?_valueLine following (starts_inlineText xs) hat hkey hnew
  | blockList xs =>
    cases xs with
    | nil =>
      obtain ⟨p', hafter, hran, -⟩ := @after?_openLine p indent path own key [] following hbelow hat
        hkey hnew
      exact ⟨p', hafter, hran⟩
    | cons x xs => exact after?_blockList x xs following hat hkey hnew

/-- No list is below the lines of a tree. -/
theorem listBelow?_lines (t : Fields) (indent : Nat) {following : List (List Char)}
    (hbelow : listBelow? following = none) : listBelow? (t.lines indent ++ following) = none := by
  have hline : ∀ (key : Key) (behind : List Char) (rest : List (List Char)),
      listBelow? ((List.replicate indent ' ' ++ (key.text.toList ++ behind)) :: rest) = none := by
    intro key behind rest
    rw [listBelow?_spaces indent (key.starts behind), key.not_item, if_neg Bool.false_ne_true]
  cases t with
  | nil => exact hbelow
  | leaf key value rest =>
    cases value with
    | scalar x => exact hline key _ _
    | inlineList xs => exact hline key _ _
    | blockList xs => exact hline key _ _
  | map key inner rest => exact hline key _ _

/-- Over the lines of a tree, each of its keys is set to what is read of it. The induction is
on the tree; the stack is back at the level of the map after every key. -/
theorem after?_lines (t : Fields) : ∀ {p : Parser} {indent : Nat} {path : List Slot}
    {own : List (String × Value)} {following : List (List Char)}, t.WellFormed → t.NoProto →
      At p indent path own → (∀ key ∈ t.keys, key ∉ own.map Prod.fst) →
      listBelow? following = none →
        ∃ p', after? (t.lines indent) following p = some p' ∧
          Ran p p' indent path (own ++ t.read) := by
  induction t with
  | nil =>
    intro p indent path own following _ _ hat _ _
    refine ⟨p, rfl, ?_, fun _ _ => rfl⟩
    rw [Fields.read, List.append_nil, Value.modifyAt_self hat.map]
  | leaf key value rest ih =>
    intro p indent path own following hwf hproto hat hnew hbelow
    obtain ⟨p₁, hleaf, hran⟩ := after?_leaf value (listBelow?_lines rest indent hbelow) hat
      hproto.1 (hnew key.text (List.mem_cons_self ..))
    have hat₁ := hran.at hat (hat.not_proto_concat hproto.1 _)
    obtain ⟨p₂, hrest, hran₂⟩ := ih hwf.2 hproto.2 hat₁
      (fresh_concat hwf.1 (fun k hk => hnew k (List.mem_cons_of_mem _ hk)) _) hbelow
    refine ⟨p₂, ?_, ?_⟩
    · rw [Fields.lines, after?_append, hleaf]
      exact hrest
    · rw [Fields.read, ← List.singleton_append, ← List.append_assoc]
      exact hran.trans hran₂
  | map key inner rest ihinner ihrest =>
    intro p indent path own following hwf hproto hat hnew hbelow
    obtain ⟨hkeys, -, hwfinner, hwfrest⟩ := hwf
    have hkey := hnew key.text (List.mem_cons_self ..)
    have hbelowrest := listBelow?_lines rest indent hbelow
    have hbelowinner := listBelow?_lines inner (indent + 2) hbelowrest
    rw [← List.append_assoc] at hbelowinner
    obtain ⟨p₁, hopen, hran₁, hat₁⟩ := after?_openLine hbelowinner hat hproto.1 hkey
    obtain ⟨p₂, hinner, hran₂⟩ := ihinner hwfinner hproto.2.1 hat₁
      (fun _ _ => List.not_mem_nil) hbelowrest
    have hran := hran₁.below hkey hran₂
    have hat₂ := hran.at hat (hat.not_proto_concat hproto.1 _)
    obtain ⟨p₃, hrest, hran₃⟩ := ihrest hwfrest hproto.2.2 hat₂
      (fresh_concat hkeys (fun k hk => hnew k (List.mem_cons_of_mem _ hk)) _) hbelow
    refine ⟨p₃, ?_, ?_⟩
    · rw [Fields.lines, hopen, after?_append, hinner]
      exact hrest
    · rw [Fields.read, ← List.singleton_append, ← List.append_assoc]
      exact hran.trans hran₃

end Kovael.Workflow
