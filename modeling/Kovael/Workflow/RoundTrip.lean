import Kovael.Workflow.Leaves

/-!
# The round trip of the front matter

A tree that is printed and read is what it was, if no key is `__proto__`, no string has a
carriage return, and each leaf is kept by its lines (`round_trip_iff`). For the other trees
the value that is read is another: carriage returns are taken out of the text before it is
read (`accepted?_text`), and no value that is read from printed lines has a property
`__proto__` (`ProtoFree`).
-/

namespace Kovael.Workflow

open Value (Slot)

/-! ## Carriage returns -/

theorem Quoted.plain_filter (s : Quoted) :
    ∀ c ∈ (String.ofList (s.text.toList.filter (· ≠ '\r'))).toList,
      c ≠ '\'' ∧ c ≠ '"' ∧ c ≠ '\n' := by
  intro c hc
  rw [String.toList_ofList] at hc
  exact s.plain c (List.mem_filter.mp hc).1

/-- The string without carriage returns. -/
def Quoted.clean (s : Quoted) : Quoted :=
  ⟨String.ofList (s.text.toList.filter (· ≠ '\r')), s.plain_filter⟩

def Scalar.clean : Scalar → Scalar
  | .int n => .int n
  | .bool b => .bool b
  | .string s => .string s.clean

def Leaf.clean : Leaf → Leaf
  | .scalar x => .scalar x.clean
  | .inlineList xs => .inlineList (xs.map Scalar.clean)
  | .blockList xs => .blockList (xs.map Scalar.clean)

def Fields.clean : Fields → Fields
  | .nil => .nil
  | .leaf key value rest => .leaf key value.clean rest.clean
  | .map key inner rest => .map key inner.clean rest.clean

theorem filter_self {cs : List Char} (h : '\r' ∉ cs) : cs.filter (· ≠ '\r') = cs := by
  rw [List.filter_eq_self]
  intro c hc
  refine decide_eq_true ?_
  intro heq
  obtain rfl := heq
  exact h hc

theorem isMark_return : IsMark '\r' := ⟨by decide, by decide, by decide⟩

theorem isMark_newline : IsMark '\n' := ⟨by decide, by decide, by decide⟩

theorem Scalar.not_mem_text {c : Char} (hc : IsMark c) {x : Scalar} (h : c ∉ x.chars) :
    c ∉ x.text := by
  rw [← List.count_eq_zero] at h ⊢
  rw [Scalar.count_text hc, h]

theorem Scalar.clean_text (x : Scalar) : x.clean.text = x.text.filter (· ≠ '\r') := by
  cases x with
  | int n => exact (filter_self (Scalar.not_mem_text isMark_return List.not_mem_nil)).symm
  | bool b => exact (filter_self (Scalar.not_mem_text isMark_return List.not_mem_nil)).symm
  | string s =>
    show '\'' :: ((String.ofList (s.text.toList.filter (· ≠ '\r'))).toList ++ ['\'']) =
      ('\'' :: (s.text.toList ++ ['\''])).filter (· ≠ '\r')
    rw [String.toList_ofList, List.filter_cons_of_pos (by decide), List.filter_append]
    rfl

/-- Without carriage returns a scalar is clean. -/
theorem Scalar.clean_self {x : Scalar} (h : '\r' ∉ x.chars) : x.clean = x := by
  cases x with
  | int n => rfl
  | bool b => rfl
  | string s =>
    have hself : s.text.toList.filter (· ≠ '\r') = s.text.toList := filter_self h
    refine congrArg Scalar.string ((Quoted.mk.injEq ..).mpr ?_)
    rw [hself, String.ofList_toList]

theorem Leaf.clean_self {value : Leaf} (h : ∀ x ∈ value.scalars, '\r' ∉ x.chars) :
    value.clean = value := by
  have hlist : ∀ xs : List Scalar, (∀ x ∈ xs, '\r' ∉ x.chars) → xs.map Scalar.clean = xs := by
    intro xs hxs
    exact (List.map_congr_left fun x hx => Scalar.clean_self (hxs x hx)).trans (List.map_id' xs)
  cases value with
  | scalar x => exact congrArg Leaf.scalar (Scalar.clean_self (h x (List.mem_singleton.mpr rfl)))
  | inlineList xs => exact congrArg Leaf.inlineList (hlist xs h)
  | blockList xs => exact congrArg Leaf.blockList (hlist xs h)

theorem filter_intercalate (p : Char → Bool) {sep : List Char} (hsep : ∀ c ∈ sep, p c = true)
    (parts : List (List Char)) :
    (sep.intercalate parts).filter p = sep.intercalate (parts.map (List.filter p)) := by
  induction parts with
  | nil => rfl
  | cons part parts ih =>
    cases parts with
    | nil => rw [List.map_singleton, List.intercalate_singleton, List.intercalate_singleton]
    | cons part' parts =>
      rw [List.intercalate_cons_cons, List.filter_append, List.filter_append, ih,
        List.filter_eq_self.mpr hsep]
      exact List.intercalate_cons_cons.symm

theorem inlineText_clean (xs : List Scalar) :
    inlineText (xs.map Scalar.clean) = (inlineText xs).filter (· ≠ '\r') := by
  have hsep : ∀ c ∈ [',', ' '], decide (c ≠ '\r') = true := List.all_eq_true.mp rfl
  have htexts : (xs.map Scalar.clean).map Scalar.text =
      (xs.map Scalar.text).map (List.filter (· ≠ '\r')) := by
    rw [List.map_map, List.map_map]
    exact List.map_congr_left fun x _ => x.clean_text
  rw [inlineText, inlineText, htexts, List.filter_cons_of_pos (by decide), List.filter_append,
    filter_intercalate _ hsep]
  rfl

/-- The lines of a clean leaf are the lines, cleaned. -/
theorem Leaf.clean_lines (value : Leaf) (indent : Nat) (key : Key) :
    value.clean.lines indent key = (value.lines indent key).map (List.filter (· ≠ '\r')) := by
  have hspaces : ∀ n : Nat, (List.replicate n ' ').filter (· ≠ '\r') = List.replicate n ' ' := by
    intro n
    refine filter_self fun hmem => ?_
    exact absurd (List.eq_of_mem_replicate hmem) (by decide)
  have hkey : key.text.toList.filter (· ≠ '\r') = key.text.toList :=
    filter_self (key.not_mem (by decide))
  have hvalue : ∀ text : List Char, valueLine indent key (text.filter (· ≠ '\r')) =
      (valueLine indent key text).filter (· ≠ '\r') := by
    intro text
    rw [valueLine, valueLine, List.filter_append, List.filter_append, hspaces, hkey]
    rfl
  have hopen : (openLine indent key).filter (· ≠ '\r') = openLine indent key := by
    rw [openLine, List.filter_append, List.filter_append, hspaces, hkey]
    rfl
  cases value with
  | scalar x =>
    refine congrArg (fun line => [line]) ?_
    rw [Scalar.clean_text, hvalue]
  | inlineList xs =>
    refine congrArg (fun line => [line]) ?_
    rw [inlineText_clean, hvalue]
  | blockList xs =>
    show openLine indent key :: (xs.map Scalar.clean).map _ =
      (openLine indent key :: xs.map _).map _
    rw [List.map_cons, hopen, List.map_map, List.map_map]
    refine congrArg (openLine indent key :: ·) (List.map_congr_left fun x _ => ?_)
    show itemLine (indent + 2) x.clean.text = (itemLine (indent + 2) x.text).filter (· ≠ '\r')
    rw [itemLine, itemLine, Scalar.clean_text, List.filter_append, hspaces]
    rfl

theorem Fields.clean_lines (t : Fields) (indent : Nat) :
    t.clean.lines indent = (t.lines indent).map (List.filter (· ≠ '\r')) := by
  induction t generalizing indent with
  | nil => rfl
  | leaf key value rest ih =>
    rw [Fields.clean, Fields.lines, Fields.lines, List.map_append, Leaf.clean_lines, ih]
  | map key inner rest ihinner ihrest =>
    -- the line that opens a map is that of an empty list
    have hopen : (openLine indent key).filter (· ≠ '\r') = openLine indent key :=
      (List.cons.inj (Leaf.clean_lines (.blockList []) indent key)).1.symm
    rw [Fields.clean, Fields.lines, Fields.lines, List.map_cons, List.map_append, hopen, ihinner,
      ihrest]

theorem Fields.clean_keys (t : Fields) : t.clean.keys = t.keys := by
  induction t with
  | nil => rfl
  | leaf key value rest ih => exact congrArg (key.text :: ·) ih
  | map key inner rest _ ih => exact congrArg (key.text :: ·) ih

theorem Fields.WellFormed.clean {t : Fields} (h : t.WellFormed) : t.clean.WellFormed := by
  induction t with
  | nil => trivial
  | leaf key value rest ih => exact ⟨by rw [Fields.clean_keys]; exact h.1, ih h.2⟩
  | map key inner rest ihinner ihrest =>
    refine ⟨by rw [Fields.clean_keys]; exact h.1, ?_, ihinner h.2.2.1, ihrest h.2.2.2⟩
    intro hnil
    cases inner with
    | nil => exact h.2.1 rfl
    | leaf key' value' rest' => cases hnil
    | map key' inner' rest' => cases hnil

theorem Fields.NoProto.clean {t : Fields} (h : t.NoProto) : t.clean.NoProto := by
  induction t with
  | nil => trivial
  | leaf key value rest ih => exact ⟨h.1, ih h.2⟩
  | map key inner rest ihinner ihrest => exact ⟨h.1, ihinner h.2.1, ihrest h.2.2⟩

/-! ## What is read of a text -/

/-- A tree that can be printed: it is not empty, and neither is a map in it. -/
structure FrontMatterTree where
  fields : Fields
  wellFormed : fields.WellFormed
  nonempty : fields ≠ .nil

/-- The tree in print. -/
def FrontMatterTree.text (tree : FrontMatterTree) : List Char :=
  ['\n'].intercalate (tree.fields.lines 0)

/-- The value that the tree is. -/
def FrontMatterTree.root (tree : FrontMatterTree) : Value := .map tree.fields.value .objectPrototype

theorem Leaf.newline_not_mem (value : Leaf) (indent : Nat) (key : Key) :
    ∀ line ∈ value.lines indent key, '\n' ∉ line := by
  have hspaces : ∀ n : Nat, '\n' ∉ List.replicate n ' ' := by
    intro n hmem
    exact absurd (List.eq_of_mem_replicate hmem) (by decide)
  have hkey : '\n' ∉ key.text.toList := key.not_mem (by decide)
  have hchars : ∀ x : Scalar, '\n' ∉ x.chars := by
    intro x hmem
    cases x with
    | int n => exact List.not_mem_nil hmem
    | bool b => exact List.not_mem_nil hmem
    | string s => exact (s.plain _ hmem).2.2 rfl
  have htext : ∀ x : Scalar, '\n' ∉ x.text := fun x => Scalar.not_mem_text isMark_newline (hchars x)
  have hinline : ∀ xs : List Scalar, '\n' ∉ inlineText xs := by
    intro xs
    rw [← List.count_eq_zero, count_inlineText isMark_newline (by decide),
      List.sum_eq_zero_iff_forall_eq_nat]
    intro n hn
    obtain ⟨x, -, rfl⟩ := List.mem_map.mp hn
    exact List.count_eq_zero.mpr (hchars x)
  have hvalue : ∀ text : List Char, '\n' ∉ text → '\n' ∉ valueLine indent key text := by
    intro text htext
    simp only [valueLine, List.mem_append, List.mem_cons, not_or]
    exact ⟨hspaces indent, hkey, by decide, by decide, htext⟩
  intro line hline
  cases value with
  | scalar x =>
    obtain rfl := List.mem_singleton.mp hline
    exact hvalue _ (htext x)
  | inlineList xs =>
    obtain rfl := List.mem_singleton.mp hline
    exact hvalue _ (hinline xs)
  | blockList xs =>
    rcases List.mem_cons.mp hline with rfl | hline
    · simp only [openLine, List.mem_append, List.mem_singleton, not_or]
      exact ⟨hspaces indent, hkey, by decide⟩
    · obtain ⟨x, -, rfl⟩ := List.mem_map.mp hline
      simp only [itemLine, List.mem_append, List.mem_cons, not_or]
      exact ⟨hspaces _, by decide, by decide, htext x⟩

theorem Fields.newline_not_mem (t : Fields) (indent : Nat) :
    ∀ line ∈ t.lines indent, '\n' ∉ line := by
  induction t generalizing indent with
  | nil => exact fun _ hline => absurd hline List.not_mem_nil
  | leaf key value rest ih =>
    intro line hline
    rcases List.mem_append.mp hline with hline | hline
    · exact value.newline_not_mem indent key line hline
    · exact ih indent line hline
  | map key inner rest ihinner ihrest =>
    intro line hline
    rcases List.mem_cons.mp hline with rfl | hline
    · exact (Leaf.blockList []).newline_not_mem indent key _ (List.mem_singleton.mpr rfl)
    · rcases List.mem_append.mp hline with hline | hline
      · exact ihinner (indent + 2) line hline
      · exact ihrest indent line hline

theorem Fields.lines_ne_nil {t : Fields} (h : t ≠ .nil) (indent : Nat) : t.lines indent ≠ [] := by
  cases t with
  | nil => exact absurd rfl h
  | leaf key value rest =>
    cases value with
    | scalar x => exact List.cons_ne_nil _ _
    | inlineList xs => exact List.cons_ne_nil _ _
    | blockList xs => exact List.cons_ne_nil _ _
  | map key inner rest => exact List.cons_ne_nil _ _

/-- The lines that the parser reads are those of the clean tree. -/
theorem linesOf_text (tree : FrontMatterTree) : linesOf tree.text = tree.fields.clean.lines 0 := by
  have hsep : ∀ c ∈ ['\n'], decide (c ≠ '\r') = true := List.all_eq_true.mp rfl
  rw [linesOf, FrontMatterTree.text, filter_intercalate _ hsep, Fields.clean_lines,
    List.splitOn_intercalate]
  · intro line hline hmem
    obtain ⟨raw, hraw, rfl⟩ := List.mem_map.mp hline
    exact tree.fields.newline_not_mem 0 raw hraw (List.mem_filter.mp hmem).1
  · intro hnil
    exact Fields.lines_ne_nil tree.nonempty 0 (List.map_eq_nil_iff.mp hnil)

theorem accepted?_eq_after? (src : List Char) :
    accepted? src = (after? (linesOf src) [] .init).map Parser.root := by
  have happend := parseLines_append (linesOf src) [] 1 .init
  rw [List.append_nil] at happend
  rw [accepted?_eq, happend]
  cases after? (linesOf src) [] .init with
  | none => rfl
  | some p => rfl

/-- Without a key `__proto__` a printed tree is accepted, each leaf with what is read of its
lines. -/
theorem accepted?_text {tree : FrontMatterTree} (hproto : tree.fields.NoProto) :
    accepted? tree.text = some (.map tree.fields.clean.read .objectPrototype) := by
  have hat : At .init 0 [] [] := ⟨rfl, rfl, List.not_mem_nil⟩
  obtain ⟨p, hafter, hran⟩ := after?_lines tree.fields.clean tree.wellFormed.clean hproto.clean hat
    (fun _ _ => List.not_mem_nil) (rfl : listBelow? [] = none)
  rw [accepted?_eq_after?, linesOf_text, hafter, Option.map_some, hran.root]
  rfl

/-! ## Leaves that come back -/

/-- The leaf is read as what it was: no string has a carriage return, and it is kept by its
lines. -/
def Leaf.RoundTrips (value : Leaf) : Prop :=
  (∀ x ∈ value.scalars, '\r' ∉ x.chars) ∧ value.Kept

/-- The leaves of a tree. -/
def Fields.leaves : Fields → List Leaf
  | .nil => []
  | .leaf _ value rest => value :: rest.leaves
  | .map _ inner rest => inner.leaves ++ rest.leaves

/-- No carriage return is read. -/
theorem occurrences_clean (value : Leaf) : occurrences '\r' value.clean.read = 0 := by
  have hfilter : ∀ text : List Char, (text.filter (· ≠ '\r')).count '\r' = 0 := by
    intro text
    refine List.count_eq_zero.mpr fun hmem => ?_
    exact absurd (List.mem_filter.mp hmem).2 (by decide)
  have hread : ∀ text : List Char, occurrences '\r' (readText (text.filter (· ≠ '\r'))) = 0 := by
    intro text
    refine Nat.eq_zero_of_le_zero ((occurrences_readText '\r' _).trans ?_)
    exact ((stripComment_sublist _).count_le '\r').trans (hfilter text).le
  cases value with
  | scalar x =>
    show occurrences '\r' (readText x.clean.text) = 0
    rw [Scalar.clean_text, hread]
  | inlineList xs =>
    show occurrences '\r' (readText (inlineText (xs.map Scalar.clean))) = 0
    rw [inlineText_clean, hread]
  | blockList xs =>
    cases xs with
    | nil => rfl
    | cons x xs =>
      show (((((x :: xs).map Scalar.clean)).map fun y => readItem y.text).map
        (inString '\r')).sum = 0
      rw [List.sum_eq_zero_iff_forall_eq_nat]
      intro n hn
      obtain ⟨v, hv, rfl⟩ := List.mem_map.mp hn
      obtain ⟨y, hy, rfl⟩ := List.mem_map.mp hv
      obtain ⟨z, -, rfl⟩ := List.mem_map.mp hy
      refine Nat.eq_zero_of_le_zero ((inString_parseScalar '\r' _).trans ?_)
      rw [Scalar.clean_text]
      exact (((trimmed_sublist _).trans (stripComment_sublist _)).count_le '\r').trans
        (hfilter z.text).le

theorem roundTrips_iff (value : Leaf) : value.clean.read = value.value ↔ value.RoundTrips := by
  constructor
  · intro h
    have hclean : ∀ x ∈ value.scalars, '\r' ∉ x.chars := by
      have hzero := occurrences_clean value
      rw [h, occurrences_leaf, List.sum_eq_zero_iff_forall_eq_nat] at hzero
      intro x hx
      exact List.count_eq_zero.mp (hzero _ (List.mem_map.mpr ⟨x, hx, rfl⟩))
    rw [Leaf.clean_self hclean, kept_iff] at h
    exact ⟨hclean, h⟩
  · intro hgiven
    obtain ⟨hclean, hkept⟩ := hgiven
    rw [Leaf.clean_self hclean, kept_iff]
    exact hkept

/-- A tree comes back if each leaf does. The induction is on the tree. -/
theorem read_eq_value_iff (t : Fields) :
    t.clean.read = t.value ↔ ∀ value ∈ t.leaves, value.RoundTrips := by
  induction t with
  | nil => exact ⟨fun _ _ h => absurd h List.not_mem_nil, fun _ => rfl⟩
  | leaf key value rest ih =>
    rw [Fields.clean, Fields.read, Fields.value, Fields.leaves, List.cons.injEq, Prod.mk.injEq,
      roundTrips_iff, ih, List.forall_mem_cons]
    exact and_congr_left fun _ => and_iff_right rfl
  | map key inner rest ihinner ihrest =>
    rw [Fields.clean, Fields.read, Fields.value, Fields.leaves, List.cons.injEq, Prod.mk.injEq,
      Value.map.injEq, ihinner, ihrest, List.forall_mem_append]
    exact and_congr_left fun _ => (and_iff_right rfl).trans (and_iff_left rfl)

/-! ## The key of the prototype -/

/-- No map has a property `__proto__`, and the prototypes of the maps have the setter. -/
inductive ProtoFree : Value → Prop
  | map {own : List (String × Value)} {proto : Value}
    (hown : Js.getEntry "__proto__" own = none)
    (hvalues : ∀ key w, Js.getEntry key own = some w → ProtoFree w)
    (hsetter : proto.inheritsSetter = true) (hproto : ProtoFree proto) :
    ProtoFree (.map own proto)
  | other {v : Value} (h : ∀ own proto, v ≠ .map own proto) : ProtoFree v

theorem protoFree_emptyMap : ProtoFree .emptyMap := by
  refine .map rfl ?_ rfl (.other ?_)
  · intro key w h
    cases h
  · intro own proto h
    cases h

theorem protoFree_list (xs : List Value) : ProtoFree (.list xs) := by
  refine .other ?_
  intro own proto h
  cases h

/-- Such a map has the setter of `__proto__`. -/
theorem ProtoFree.inheritsSetter {own : List (String × Value)} {proto : Value}
    (h : ProtoFree (.map own proto)) : (Value.map own proto).inheritsSetter = true := by
  cases h with
  | map hown hvalues hsetter hproto =>
    rw [Value.inheritsSetter, hown]
    exact hsetter
  | other h => exact absurd rfl (h own proto)

/-- The value may be put in the slot. -/
def MayPlace (slot : Slot) (x : Value) : Prop :=
  ProtoFree x ∧
    match slot with
    | .own key => key ≠ "__proto__"
    | .proto => x.inheritsSetter = true

/-- What a change of a value keeps. -/
def Keeps (v v' : Value) : Prop :=
  ProtoFree v' ∧ (v.inheritsSetter = true → v'.inheritsSetter = true)

theorem ProtoFree.place {v x : Value} {slot : Slot} (hv : ProtoFree v) (h : MayPlace slot x) :
    Keeps v (Value.place slot x v) := by
  obtain ⟨hx, hslot⟩ := h
  cases hv with
  | @map own proto hown hvalues hsetter hproto =>
    cases slot with
    | own key =>
      have hmap : ProtoFree (Value.place (.own key) x (.map own proto)) := by
        refine .map ?_ ?_ hsetter hproto
        · rw [Js.getEntry_setEntry, if_neg (Ne.symm hslot)]
          exact hown
        · intro key' w hw
          rw [Js.getEntry_setEntry] at hw
          split at hw
          next =>
            obtain rfl := Option.some.inj hw
            exact hx
          next => exact hvalues key' w hw
      exact ⟨hmap, fun _ => hmap.inheritsSetter⟩
    | proto =>
      have hmap := ProtoFree.map hown hvalues hslot hx
      exact ⟨hmap, fun _ => hmap.inheritsSetter⟩
  | other hother =>
    cases v with
    | map own proto => exact absurd rfl (hother own proto)
    | _ => exact ⟨.other hother, id⟩

/-- What is read may be put back. -/
theorem ProtoFree.mayPlace {v w : Value} {slot : Slot} (hv : ProtoFree v)
    (h : v.read? slot = some w) : MayPlace slot w := by
  cases hv with
  | map hown hvalues hsetter hproto =>
    cases slot with
    | own key =>
      refine ⟨hvalues key w h, ?_⟩
      intro heq
      obtain rfl := heq
      cases hown.symm.trans h
    | proto =>
      obtain rfl := Option.some.inj h
      exact ⟨hproto, hsetter⟩
  | other hother =>
    cases v with
    | map own proto => exact absurd rfl (hother own proto)
    | _ => cases h

theorem ProtoFree.modifyAt {f : Value → Value} (path : List Slot) :
    ∀ {v : Value}, ProtoFree v →
      (∀ w, v.follow? path = some w → ProtoFree w → Keeps w (f w)) →
        Keeps v (v.modifyAt f path) := by
  induction path with
  | nil =>
    intro v hv h
    exact h v rfl hv
  | cons slot path ih =>
    intro v hv h
    rw [Value.modifyAt]
    cases hread : v.read? slot with
    | none => exact ⟨hv, id⟩
    | some w =>
      obtain ⟨hw, hslot⟩ := hv.mayPlace hread
      have hkeeps : Keeps w (w.modifyAt f path) := by
        refine ih hw fun u hu => h u ?_
        rw [Value.follow?, hread]
        exact hu
      refine hv.place ⟨hkeeps.1, ?_⟩
      cases slot with
      | own key => exact hslot
      | proto => exact hkeeps.2 hslot

/-- A prototype that is set has the setter. -/
theorem ProtoFree.inheritsSetter_of_isObject {v : Value} (hv : ProtoFree v) (hnull : v ≠ .null)
    (hobject : v.isObject = true) : v.inheritsSetter = true := by
  cases v with
  | map own proto => exact hv.inheritsSetter
  | list xs => rfl
  | objectPrototype => rfl
  | null => exact absurd rfl hnull
  | bool b => cases hobject
  | number n => cases hobject
  | string s => cases hobject

theorem ProtoFree.assign {p : Parser} (h : ProtoFree p.root) (parent : List Slot) (key : String)
    {v : Value} (hv : ProtoFree v) (hnull : v ≠ .null) :
    ProtoFree (p.assign parent key v).1.root := by
  rw [Parser.assign]
  cases hslot : ((p.root.follow? parent).getD .null).slotOf key v with
  | none => exact h
  | some slot =>
    refine (h.modifyAt parent fun w hw hfree => ?_).1
    rw [hw, Option.getD_some] at hslot
    cases w with
    | map own proto =>
      refine hfree.place ⟨hv, ?_⟩
      rw [Value.slotOf] at hslot
      by_cases hkey : key = "__proto__"
      · rw [if_pos ⟨hkey, hfree.inheritsSetter⟩] at hslot
        split at hslot
        next hobject =>
          obtain rfl := Option.some.inj hslot
          exact hv.inheritsSetter_of_isObject hnull hobject
        next => cases hslot
      · rw [if_neg fun h => hkey h.1] at hslot
        obtain rfl := Option.some.inj hslot
        exact hkey
    | _ => exact ⟨hfree, id⟩

theorem ProtoFree.push {v : Value} (hv : ProtoFree v) (x : Value) : Keeps v (Value.push x v) := by
  cases v with
  | list xs => exact ⟨protoFree_list _, id⟩
  | _ => exact ⟨hv, id⟩

/-- If the line sets a key, then to no `null`. -/
def SetsValue (line : List Char) : Prop :=
  ∀ following e, entryOf line following = some e → ProtoFree e.value ∧ e.value ≠ .null

/-- Lines that set no key to `null` set no property `__proto__`. -/
theorem ProtoFree.after? (lines following : List (List Char)) :
    ∀ {p p' : Parser}, (∀ line ∈ lines, SetsValue line) → ProtoFree p.root →
      Workflow.after? lines following p = some p' → ProtoFree p'.root := by
  induction lines with
  | nil =>
    intro p p' _ hp h
    obtain rfl := Option.some.inj h
    exact hp
  | cons line lines ih =>
    intro p p' hlines hp h
    have hrest : ∀ l ∈ lines, SetsValue l := fun l hl => hlines l (List.mem_cons_of_mem _ hl)
    rw [Workflow.after?] at h
    split at h
    next => exact ih hrest hp h
    next hskip =>
      obtain ⟨p₁, hline, h⟩ := Option.bind_eq_some_iff.mp h
      refine ih hrest ?_ h
      cases hentry : entryOf line (lines ++ following) with
      | some e =>
        obtain ⟨hvalue, hnull⟩ := hlines line (List.mem_cons_self ..) _ e hentry
        rw [(line_entry p 0 hentry).2] at hline
        obtain rfl := Option.some.inj hline
        exact @ProtoFree.assign { p with stack := popTo e.indent p.stack, pendingList := none } hp
          (topPath (popTo e.indent p.stack)) e.key e.value hvalue hnull
      | none =>
        cases hrun : p.line 0 (indentOf (stripComment line)) (contentOf line)
            (lines ++ following) with
        | error e =>
          rw [hrun] at hline
          cases hline
        | ok p₂ =>
          rw [hrun] at hline
          obtain rfl := Option.some.inj hline
          have hitem := line_of_entryOf_none (Bool.not_eq_true _ |>.mp hskip) hentry hrun
          rw [Parser.line, if_pos hitem] at hrun
          dsimp only at hrun
          split at hrun
          next => cases hrun
          next pending _ =>
            split at hrun
            next => cases hrun
            next =>
              obtain rfl := Except.ok.inj hrun
              exact (hp.modifyAt pending.path fun w _ hw => hw.push _).1

theorem protoFree_parseScalar (cs : List Char) : ProtoFree (parseScalar cs) := by
  refine .other fun own proto hmap => ?_
  rcases parseScalar_cases cs with h | ⟨b, h⟩ | ⟨n, h⟩ | ⟨s, h, -⟩
  all_goals cases h.symm.trans hmap

theorem protoFree_entryValue (rest : List Char) (following : List (List Char)) :
    ProtoFree (entryValue rest following) := by
  rw [entryValue]
  split
  next =>
    split
    next => exact protoFree_list []
    next => exact protoFree_emptyMap
  next =>
    split
    next => exact protoFree_list _
    next => exact protoFree_parseScalar rest

/-- A text that begins as no word is not `null`. -/
theorem parseScalar_ne_null {c : Char} {cs : List Char} (hc : c ∉ ['~', 'n', 't', 'f']) :
    parseScalar (c :: cs) ≠ .null := by
  rw [parseScalar_of_head hc]
  cases numeral? (c :: cs) with
  | some n => exact fun h => by cases h
  | none =>
    rw [Option.map_none, Option.getD_none]
    split
    next => exact fun h => by cases h
    next => exact fun h => by cases h

theorem readText_ne_null {text : List Char} {c : Char} (htext : Starts text)
    (hhead : text.head? = some c) (hc : c ∉ ['~', 'n', 't', 'f']) : readText text ≠ .null := by
  have htrimmed : (trimmed (stripComment text)).head? = some c := by
    obtain ⟨d, cs, rfl, hd, -⟩ := htext
    rw [head?_trimmed, stripComment_of_not_space hd,
      List.dropWhile_cons_of_neg (by rw [hd]; exact Bool.false_ne_true)]
    exact hhead
  rw [readText, entryValue, if_neg (trimmed_ne_nil htext)]
  split
  next => exact fun h => by cases h
  next =>
    cases hrest : trimmed (stripComment text) with
    | nil => exact absurd hrest (trimmed_ne_nil htext)
    | cons d rest =>
      rw [hrest] at htrimmed
      obtain rfl := Option.some.inj htrimmed
      exact parseScalar_ne_null hc

theorem Scalar.readText_ne_null (x : Scalar) : readText x.text ≠ .null := by
  cases x with
  | int n =>
    obtain ⟨c, cs, htext, -⟩ := starts_intText n.val
    refine Workflow.readText_ne_null (starts_intText n.val) (congrArg List.head? htext) ?_
    rcases mem_intText (by rw [htext]; exact List.mem_cons_self ..) with rfl | hdigit
    · decide
    · exact not_word_of_isDigit hdigit
  | bool b =>
    cases b with
    | true => exact fun h => by cases h
    | false => exact fun h => by cases h
  | string s => exact Workflow.readText_ne_null (Scalar.string s).starts rfl (by decide)

theorem setsValue_valueLine (indent : Nat) (key : Key) {text : List Char} (htext : Starts text)
    (hnull : readText text ≠ .null) : SetsValue (valueLine indent key text) := by
  intro following e he
  rw [entryOf_valueLine indent key htext] at he
  obtain rfl := Option.some.inj he
  exact ⟨protoFree_entryValue _ _, hnull⟩

theorem setsValue_openLine (indent : Nat) (key : Key) : SetsValue (openLine indent key) := by
  intro following e he
  rw [entryOf_openLine] at he
  obtain rfl := Option.some.inj he
  refine ⟨protoFree_entryValue [] following, ?_⟩
  show entryValue [] following ≠ .null
  rw [entryValue, if_pos rfl]
  split
  next => exact fun h => by cases h
  next => exact fun h => by cases h

theorem setsValue_itemLine (indent : Nat) {text : List Char} (htext : Starts text) :
    SetsValue (itemLine indent text) := by
  intro following e he
  obtain ⟨hskip, -, hcontent⟩ := line_of_item indent htext
  rw [entryOf, hskip, hcontent, Bool.false_or, if_pos (by rfl)] at he
  cases he

theorem Leaf.setsValue (value : Leaf) (indent : Nat) (key : Key) :
    ∀ line ∈ value.lines indent key, SetsValue line := by
  intro line hline
  cases value with
  | scalar x =>
    obtain rfl := List.mem_singleton.mp hline
    exact setsValue_valueLine indent key x.starts x.readText_ne_null
  | inlineList xs =>
    obtain rfl := List.mem_singleton.mp hline
    have hstarts := starts_inlineText xs
    exact setsValue_valueLine indent key hstarts (readText_ne_null hstarts rfl (by decide))
  | blockList xs =>
    rcases List.mem_cons.mp hline with rfl | hline
    · exact setsValue_openLine indent key
    · obtain ⟨x, -, rfl⟩ := List.mem_map.mp hline
      exact setsValue_itemLine (indent + 2) x.starts

/-- No printed line sets a key to `null`. -/
theorem Fields.setsValue (t : Fields) (indent : Nat) : ∀ line ∈ t.lines indent, SetsValue line := by
  induction t generalizing indent with
  | nil => exact fun _ hline => absurd hline List.not_mem_nil
  | leaf key value rest ih =>
    intro line hline
    rcases List.mem_append.mp hline with hline | hline
    · exact value.setsValue indent key line hline
    · exact ih indent line hline
  | map key inner rest ihinner ihrest =>
    intro line hline
    rcases List.mem_cons.mp hline with rfl | hline
    · exact setsValue_openLine indent key
    · rcases List.mem_append.mp hline with hline | hline
      · exact ihinner (indent + 2) line hline
      · exact ihrest indent line hline

theorem Fields.value_keys (t : Fields) : t.value.map Prod.fst = t.keys := by
  induction t with
  | nil => rfl
  | leaf key value rest ih => exact congrArg (key.text :: ·) ih
  | map key inner rest _ ih => exact congrArg (key.text :: ·) ih

/-- The first property of such a map, and the others. -/
theorem ProtoFree.uncons {key : String} {v proto : Value} {own : List (String × Value)}
    (hkey : key ∉ own.map Prod.fst) (h : ProtoFree (.map ((key, v) :: own) proto)) :
    key ≠ "__proto__" ∧ ProtoFree v ∧ ProtoFree (.map own proto) := by
  cases h with
  | map hown hvalues hsetter hproto =>
    have hne : key ≠ "__proto__" := by
      intro heq
      obtain rfl := heq
      rw [Js.getEntry, if_pos rfl] at hown
      cases hown
    rw [Js.getEntry, if_neg hne] at hown
    refine ⟨hne, hvalues key v (if_pos rfl), .map hown ?_ hsetter hproto⟩
    intro k w hw
    have hk : key ≠ k := by
      intro heq
      obtain rfl := heq
      rw [Js.getEntry_eq_none_iff.mpr hkey] at hw
      cases hw
    exact hvalues k w ((if_neg hk).trans hw)
  | other h => exact absurd rfl (h _ _)

/-- A tree whose value has no property `__proto__` has no such key. -/
theorem Fields.noProto {t : Fields} : t.WellFormed → ∀ {proto : Value},
    ProtoFree (.map t.value proto) → t.NoProto := by
  induction t with
  | nil => exact fun _ _ _ => trivial
  | leaf key value rest ih =>
    intro hwf proto h
    obtain ⟨hkey, -, hrest⟩ := h.uncons (by rw [Fields.value_keys]; exact hwf.1)
    exact ⟨hkey, ih hwf.2 hrest⟩
  | map key inner rest ihinner ihrest =>
    intro hwf proto h
    obtain ⟨hkey, hinner, hrest⟩ := h.uncons (by rw [Fields.value_keys]; exact hwf.1)
    exact ⟨hkey, ihinner hwf.2.2.1 hinner, ihrest hwf.2.2.2 hrest⟩

/-- What is read of a printed tree has no property `__proto__`. -/
theorem protoFree_of_accepted {tree : FrontMatterTree} {v : Value}
    (h : accepted? tree.text = some v) : ProtoFree v := by
  rw [accepted?_eq_after?, linesOf_text] at h
  obtain ⟨p, hafter, rfl⟩ := Option.map_eq_some_iff.mp h
  exact ProtoFree.after? _ [] (tree.fields.clean.setsValue 0) protoFree_emptyMap hafter

/-! ## The round trip -/

theorem parseYamlSubset_eq_ok_iff (src : List Char) (v : Value) :
    parseYamlSubset src = .ok v ↔ accepted? src = some v := by
  rw [accepted?]
  cases parseYamlSubset src with
  | error e => exact iff_of_false (fun h => by cases h) (fun h => by cases h)
  | ok w =>
    exact ⟨fun h => congrArg some (Except.ok.inj h),
      fun h => congrArg Except.ok (Option.some.inj h)⟩

/-- A printed tree is read as what it was if and only if no key is `__proto__` and every leaf
comes back; the other loader reads as this one does. -/
theorem round_trip_iff (tree : FrontMatterTree) :
    (parseYamlSubset tree.text = .ok tree.root ↔
      tree.fields.NoProto ∧ ∀ value ∈ tree.fields.leaves, value.RoundTrips) ∧
    Persona.parseYamlSubset tree.text = parseYamlSubset tree.text := by
  refine ⟨?_, rfl⟩
  have hread : tree.fields.NoProto → (accepted? tree.text = some tree.root ↔
      ∀ value ∈ tree.fields.leaves, value.RoundTrips) := by
    intro hproto
    rw [accepted?_text hproto, ← read_eq_value_iff, FrontMatterTree.root, Option.some.injEq,
      Value.map.injEq]
    exact and_iff_left rfl
  rw [parseYamlSubset_eq_ok_iff]
  constructor
  · intro h
    have hproto := Fields.noProto tree.wellFormed (protoFree_of_accepted h)
    exact ⟨hproto, (hread hproto).mp h⟩
  · intro hgiven
    obtain ⟨hproto, hleaves⟩ := hgiven
    exact (hread hproto).mpr hleaves

/-- `note: 'a #b'`: the comment is cut before the quotes are seen, and the value is `'a`. -/
theorem quoted_hash_cut :
    ¬ ∀ tree : FrontMatterTree, parseYamlSubset tree.text = .ok tree.root := by
  have hparts : ("note".toList.all isIdentifierPart) = true := rfl
  have hplain : ("a #b".toList.all fun c => decide (c ≠ '\'' ∧ c ≠ '"' ∧ c ≠ '\n')) = true := rfl
  have hhead : ∀ c, "note".toList.head? = some c → c.isDigit = false := by
    intro c hc
    obtain rfl := Option.some.inj hc
    rfl
  have hread : parseYamlSubset "note: 'a #b'".toList =
      .ok (.map [("note", .string "'a")] .objectPrototype) := rfl
  have htree : ∃ tree : FrontMatterTree, tree.text = "note: 'a #b'".toList ∧
      tree.root = .map [("note", .string "a #b")] .objectPrototype := by
    refine ⟨{
      fields := .leaf ⟨"note", List.cons_ne_nil _ _, List.all_eq_true.mp hparts, hhead⟩
        (.scalar (.string ⟨"a #b",
          fun c hc => of_decide_eq_true (List.all_eq_true.mp hplain c hc)⟩))
        .nil
      wellFormed := ⟨List.not_mem_nil, trivial⟩
      nonempty := fun h => by cases h }, ?_, rfl⟩
    rw [FrontMatterTree.text, Fields.lines, Leaf.lines, Fields.lines, List.append_nil,
      List.intercalate_singleton]
    show [] ++ ("note".toList ++ ':' :: ' ' :: '\'' :: ("a #b".toList ++ ['\''])) = _
    decide
  obtain ⟨tree, htext, hroot⟩ := htree
  intro h
  have hcut := h tree
  rw [htext, hread, hroot] at hcut
  have hvalue := (Value.map.inj (Except.ok.inj hcut)).1
  exact absurd (Value.string.inj (Prod.mk.inj (List.cons.inj hvalue).1).2) (by decide)

end Kovael.Workflow
