import Kovael.Js.Url

/-!
# The round trip of a form

A list of parameters that is serialized and parsed is what it was (`parseForm_formText`). First
a component, byte by byte: a character that is encoded is read as its bytes, any other stands
for itself. Then the text is cut where it was put together, since no component has a separator.
-/

namespace Js

open Base64 (Bytes)

namespace Url

/-! ## Bytes -/

theorem hexVal_upperHex : ∀ n < 16, hexVal (upperHex n) = some n := by decide

/-- A digit is a letter or digit of ASCII. -/
theorem upperHex_ascii : ∀ n < 16, (upperHex n).toNat < 0x80 ∧ (upperHex n).isAlphanum = true := by
  decide

theorem utf8EncodeChar_ascii {c : Char} (h : c.toNat < 0x80) :
    String.utf8EncodeChar c = [UInt8.ofNat c.toNat] := by
  have hle : c.val.toNat ≤ 0x7F := Nat.le_of_lt_succ h
  rw [String.utf8EncodeChar]
  exact if_pos hle

theorem percentDecode_cons {b : UInt8} (h : b ≠ 37) (rest : Bytes) :
    percentDecode (b :: rest) = b :: percentDecode rest := by
  match rest with
  | [] => rfl
  | [_] => rfl
  | _ :: _ :: _ => rw [percentDecode, if_neg h]

/-- A byte that is encoded is decoded. -/
theorem percentDecode_percentByte (b : UInt8) (rest : Bytes) :
    percentDecode ((percentByte b).flatMap String.utf8EncodeChar ++ rest) =
      b :: percentDecode rest := by
  have hhigh : b.toNat / 16 < 16 := by
    have hlt := b.toNat_lt
    omega
  have hlow : b.toNat % 16 < 16 := Nat.mod_lt _ (by decide)
  have hback : ∀ {n : Nat}, n < 16 →
      hexVal (Char.ofNat (UInt8.ofNat (upperHex n).toNat).toNat) = some n := by
    intro n hn
    rw [Utf8.toNat_ofNat (Nat.lt_trans (upperHex_ascii n hn).1 (by decide)), Char.ofNat_toNat,
      hexVal_upperHex n hn]
  have hbyte : UInt8.ofNat (16 * (b.toNat / 16) + b.toNat % 16) = b := by
    rw [Nat.div_add_mod, UInt8.ofNat_toNat]
  rw [percentByte, List.flatMap_cons, List.flatMap_cons, List.flatMap_singleton,
    utf8EncodeChar_ascii (by decide), utf8EncodeChar_ascii (upperHex_ascii _ hhigh).1,
    utf8EncodeChar_ascii (upperHex_ascii _ hlow).1]
  show percentDecode (37 :: _ :: _ :: rest) = _
  rw [percentDecode, if_pos rfl, hback hhigh, hback hlow]
  dsimp only
  rw [hbyte]

theorem percentDecode_bytes (bytes rest : Bytes) :
    percentDecode ((bytes.flatMap percentByte).flatMap String.utf8EncodeChar ++ rest) =
      bytes ++ percentDecode rest := by
  induction bytes with
  | nil => rfl
  | cons b bytes ih =>
    rw [List.flatMap_cons, List.flatMap_append, List.append_assoc, percentDecode_percentByte, ih,
      List.cons_append]

/-! ## Components -/

/-- What is not encoded is of ASCII, and no percent sign. -/
def Plain (set : Char → Bool) : Prop := ∀ c, set c = false → c.toNat < 0x80 ∧ c ≠ '%'

/-- The bytes of a text that was encoded are those of the text. -/
theorem percentDecode_percentEncode {set : Char → Bool} (h : Plain set) (cs : List Char) :
    percentDecode ((percentEncode set cs).flatMap String.utf8EncodeChar) =
      cs.flatMap String.utf8EncodeChar := by
  induction cs with
  | nil => rfl
  | cons c cs ih =>
    rw [percentEncode, List.flatMap_cons, List.flatMap_append]
    cases hset : set c with
    | true =>
      rw [if_pos rfl, percentDecode_bytes, List.flatMap_cons]
      exact congrArg _ ih
    | false =>
      obtain ⟨hascii, hpercent⟩ := h c hset
      have hbyte : UInt8.ofNat c.toNat ≠ 37 := by
        intro heq
        refine hpercent (Char.toNat_inj.mp ?_)
        rw [← Utf8.toNat_ofNat (Nat.lt_trans hascii (by decide : 0x80 < 256)), heq]
        rfl
      rw [if_neg Bool.false_ne_true, List.flatMap_singleton, utf8EncodeChar_ascii hascii,
        List.flatMap_cons, utf8EncodeChar_ascii hascii, List.singleton_append,
        percentDecode_cons hbyte, List.singleton_append]
      exact congrArg _ ih

theorem percentDecoded_percentEncode {set : Char → Bool} (h : Plain set) (s : String) :
    percentDecoded (percentEncode set s.toList) = s := by
  rw [percentDecoded, Utf8.encode, String.toList_ofList, percentDecode_percentEncode h]
  exact Utf8.decode_encode s

/-- What has no character of the set stays as it is. -/
theorem percentEncode_self {set : Char → Bool} {cs : List Char} (h : ∀ c ∈ cs, set c = false) :
    percentEncode set cs = cs := by
  rw [percentEncode, List.flatMap_congr fun c hc => if_neg (by rw [h c hc]; decide)]
  exact List.flatMap_singleton' _

/-- Of what is a text made that was encoded. -/
theorem mem_percentEncode {set : Char → Bool} {cs : List Char} {c : Char}
    (h : c ∈ percentEncode set cs) :
    (c ∈ cs ∧ set c = false) ∨ c = '%' ∨ ∃ n < 16, c = upperHex n := by
  obtain ⟨d, hd, hc⟩ := List.mem_flatMap.mp h
  cases hset : set d with
  | false =>
    rw [hset, if_neg Bool.false_ne_true] at hc
    obtain rfl := List.mem_singleton.mp hc
    exact Or.inl ⟨hd, hset⟩
  | true =>
    rw [hset, if_pos rfl] at hc
    obtain ⟨b, -, hc⟩ := List.mem_flatMap.mp hc
    have hlt := b.toNat_lt
    rw [percentByte, List.mem_cons, List.mem_cons, List.mem_singleton] at hc
    rcases hc with rfl | rfl | rfl
    · exact Or.inr (Or.inl rfl)
    · exact Or.inr (Or.inr ⟨b.toNat / 16, by omega, rfl⟩)
    · exact Or.inr (Or.inr ⟨b.toNat % 16, by omega, rfl⟩)

/-- What `formText` encodes: a space is then written as a plus. -/
def inFormText (c : Char) : Bool := inFormSet c && c ≠ ' '

/-- A name or a value in a form. -/
def component (s : String) : List Char :=
  (percentEncode inFormText s.toList).map fun c => if c = ' ' then '+' else c

/-- How a name or a value is read. -/
def readComponent (cs : List Char) : String :=
  percentDecoded (cs.map fun c => if c = '+' then ' ' else c)

/-- A character of a component. -/
def isFormChar (c : Char) : Bool := c.isAlphanum || "*-._%+".toList.contains c

theorem not_inFormText {c : Char} (h : inFormText c = false) :
    c = ' ' ∨ c.isAlphanum = true ∨ c ∈ "*-._".toList := by
  rw [inFormText, Bool.and_eq_false_iff] at h
  rcases h with h | h
  · rw [inFormSet, Bool.not_eq_false', Bool.or_eq_true, List.contains_iff_mem] at h
    exact Or.inr h
  · exact Or.inl (not_not.mp (of_decide_eq_false h))

theorem isAlphanum_ascii {c : Char} (h : c.isAlphanum = true) : c.toNat < 0x80 := by
  have hrange := isAlphanum_range h
  omega

theorem plain_inFormText : Plain inFormText := by
  intro c hc
  rcases not_inFormText hc with rfl | halnum | hmem
  · exact ⟨by decide, by decide⟩
  · refine ⟨isAlphanum_ascii halnum, ?_⟩
    intro heq
    obtain rfl := heq
    cases halnum
  · have hall : ("*-._".toList.all fun c => decide (c.toNat < 0x80 ∧ c ≠ '%')) = true := rfl
    exact of_decide_eq_true (List.all_eq_true.mp hall c hmem)

theorem isFormChar_component (s : String) : ∀ c ∈ component s, isFormChar c = true := by
  intro c hc
  obtain ⟨d, hd, rfl⟩ := List.mem_map.mp hc
  by_cases hspace : d = ' '
  · rw [if_pos hspace]
    rfl
  · rw [if_neg hspace, isFormChar, Bool.or_eq_true, List.contains_iff_mem]
    rcases mem_percentEncode hd with ⟨-, hset⟩ | rfl | ⟨n, hn, rfl⟩
    · rcases not_inFormText hset with heq | halnum | hmem
      · exact absurd heq hspace
      · exact Or.inl halnum
      · exact Or.inr (List.mem_append_left ['%', '+'] hmem)
    · exact Or.inr (by decide)
    · exact Or.inl (upperHex_ascii n hn).2

theorem readComponent_component (s : String) : readComponent (component s) = s := by
  -- every plus was a space: one of the text is encoded
  have hplus : '+' ∉ percentEncode inFormText s.toList := by
    intro hmem
    rcases mem_percentEncode hmem with ⟨-, hset⟩ | heq | ⟨n, hn, heq⟩
    · cases hset
    · exact absurd heq (by decide)
    · have halnum := (upperHex_ascii n hn).2
      rw [← heq] at halnum
      cases halnum
  have hmap : (component s).map (fun c => if c = '+' then ' ' else c) =
      percentEncode inFormText s.toList := by
    rw [component, List.map_map]
    refine (List.map_congr_left fun c hc => ?_).trans (List.map_id _)
    show (if (if c = ' ' then '+' else c) = '+' then ' ' else _) = c
    by_cases hspace : c = ' '
    · rw [if_pos hspace, if_pos rfl, hspace]
    · have hne : c ≠ '+' := fun heq => hplus (heq ▸ hc)
      rw [if_neg hspace, if_neg hne]
  rw [readComponent, hmap, percentDecoded_percentEncode plain_inFormText]

/-! ## The text -/

/-- `name=value`. -/
def pairText (p : String × String) : List Char := component p.1 ++ '=' :: component p.2

theorem formText_toList (params : List (String × String)) :
    (formText params).toList = ['&'].intercalate (params.map pairText) := by
  have hparts : (params.map fun p => String.ofList (pairText p)).map String.toList =
      params.map pairText := by
    rw [List.map_map]
    exact List.map_congr_left fun p _ => String.toList_ofList
  show ("&".intercalate (params.map fun p => String.ofList (pairText p))).toList = _
  rw [String.toList_intercalate, hparts]
  rfl

theorem parseForm_eq (query : String) :
    parseForm query = ((query.toList.splitOn '&').filter fun part => !part.isEmpty).map fun part =>
      (readComponent (part.takeWhile (· ≠ '=')),
        readComponent ((part.dropWhile (· ≠ '=')).drop 1)) := rfl

theorem not_mem_component {c : Char} (hc : isFormChar c = false) (s : String) :
    c ∉ component s := by
  intro hmem
  rw [isFormChar_component s c hmem] at hc
  cases hc

/-- A pair is read as what it was. -/
theorem read_pairText (p : String × String) :
    (readComponent ((pairText p).takeWhile (· ≠ '=')),
      readComponent (((pairText p).dropWhile (· ≠ '=')).drop 1)) = p := by
  have hname : ∀ c ∈ component p.1, decide (c ≠ '=') = true := by
    intro c hc
    refine decide_eq_true ?_
    intro heq
    obtain rfl := heq
    exact not_mem_component rfl p.1 hc
  rw [pairText, List.takeWhile_append_of_pos hname, List.dropWhile_append_of_pos hname,
    List.takeWhile_cons_of_neg (by decide), List.dropWhile_cons_of_neg (by decide),
    List.append_nil, List.drop_succ_cons, List.drop_zero, readComponent_component,
    readComponent_component]

/-- Parameters that are serialized and parsed are what they were. -/
theorem parseForm_formText (params : List (String × String)) :
    parseForm (formText params) = params := by
  -- no pair has the separator in it, and none is empty
  have hsep : ∀ part ∈ params.map pairText, '&' ∉ part := by
    intro part hpart
    obtain ⟨p, -, rfl⟩ := List.mem_map.mp hpart
    rw [pairText, List.mem_append, List.mem_cons, not_or, not_or]
    exact ⟨not_mem_component rfl p.1, by decide, not_mem_component rfl p.2⟩
  have hkept : (params.map pairText).filter (fun part => !part.isEmpty) = params.map pairText := by
    refine List.filter_eq_self.mpr fun part hpart => ?_
    obtain ⟨p, -, rfl⟩ := List.mem_map.mp hpart
    rw [pairText]
    cases component p.1 with
    | nil => rfl
    | cons c cs => rfl
  cases params with
  | nil => rfl
  | cons p params =>
    rw [parseForm_eq, formText_toList, List.splitOn_intercalate _ hsep (List.cons_ne_nil _ _),
      hkept, List.map_map]
    exact (List.map_congr_left fun q _ => read_pairText q).trans (List.map_id _)

/-- A character of a text of parameters. -/
theorem mem_formText {params : List (String × String)} {c : Char}
    (h : c ∈ (formText params).toList) : isFormChar c = true ∨ c = '=' ∨ c = '&' := by
  rw [formText_toList] at h
  induction params with
  | nil => cases h
  | cons p params ih =>
    have hpair : c ∈ pairText p → isFormChar c = true ∨ c = '=' ∨ c = '&' := by
      intro hc
      rw [pairText, List.mem_append, List.mem_cons] at hc
      rcases hc with hname | heq | hvalue
      · exact Or.inl (isFormChar_component p.1 c hname)
      · exact Or.inr (Or.inl heq)
      · exact Or.inl (isFormChar_component p.2 c hvalue)
    cases params with
    | nil =>
      rw [List.map_singleton, List.intercalate_singleton] at h
      exact hpair h
    | cons q params =>
      rw [List.map_cons, List.map_cons, List.intercalate_cons_cons, List.append_assoc,
        List.mem_append, List.singleton_append, List.mem_cons] at h
      rcases h with hc | heq | hrest
      · exact hpair hc
      · exact Or.inr (Or.inr heq)
      · exact ih hrest

theorem formText_eq_empty_iff (params : List (String × String)) :
    formText params = "" ↔ params = [] := by
  constructor
  · intro h
    rw [← parseForm_formText params, h]
    rfl
  · intro heq
    obtain rfl := heq
    rfl

end Url

end Js
