import Kovael.Js.UrlForm
import Mathlib.Data.List.TakeWhile

/-!
# The path of a URL

What the parser leaves of a path: segments that are encoded, have no slash and are no dots
(`parsed_parseWith`, with one lemma for each state). So a path that was parsed and is parsed
again, as the path of an `http:` URL, is the same path if its text begins with one slash and
has no backslash (`parseOn_pathname`); otherwise it is another (`pathname_ne`).
-/

namespace Js

open Base64 (Bytes)

namespace Url

/-! ## Segments -/

/-- A segment that the parser has made; `special` says what a slash is. -/
structure IsSegment (special : Bool) (segment : String) : Prop where
  encoded : ∀ c ∈ segment.toList, inPathSet c = false
  slash : ∀ c ∈ segment.toList, isSlash special c = false
  single : isSingleDot segment.toList = false
  double : isDoubleDot segment.toList = false

/-- What holds of every URL that is parsed. -/
structure Parsed (url : Url) : Prop where
  segments : ∀ segments, url.path = .segments segments →
    ∀ segment ∈ segments, IsSegment (isSpecial url.scheme) segment
  special : isSpecial url.scheme = true →
    ∃ segments, segments ≠ [] ∧ url.path = .segments segments
  rootless : ∀ text, url.path = .rootless text →
    text.toList.head? ≠ some '/' ∧ ∀ c ∈ text.toList, endsPath c = false

theorem isSlash_mono {special : Bool} {c : Char} (h : isSlash true c = false) :
    isSlash special c = false := by
  rw [isSlash, Bool.true_and, Bool.or_eq_false_iff] at h
  rw [isSlash, h.1, h.2, Bool.and_false, Bool.or_false]

theorem upperHex_path : ∀ n < 16, inPathSet (upperHex n) = false ∧
    isSlash true (upperHex n) = false := by decide

/-- A segment that is encoded is so, and has no slash that it did not have. -/
theorem encoded_segment {special : Bool} {segment : List Char}
    (h : ∀ c ∈ segment, isSlash special c = false) :
    ∀ c ∈ percentEncode inPathSet segment, inPathSet c = false ∧ isSlash special c = false := by
  intro c hc
  rcases mem_percentEncode hc with ⟨hmem, hset⟩ | rfl | ⟨n, hn, rfl⟩
  · exact ⟨hset, h c hmem⟩
  · exact ⟨by decide, isSlash_mono (by decide)⟩
  · exact ⟨(upperHex_path n hn).1, isSlash_mono (upperHex_path n hn).2⟩

theorem isSegment_empty (special : Bool) : IsSegment special "" where
  encoded := fun _ hc => absurd hc List.not_mem_nil
  slash := fun _ hc => absurd hc List.not_mem_nil
  single := rfl
  double := rfl

theorem exists_of_isDriveLetter {cs : List Char} (h : isDriveLetter cs = true) :
    ∃ c d, cs = [c, d] := by
  unfold isDriveLetter at h
  split at h
  next c d => exact ⟨c, d, rfl⟩
  next => cases h

theorem ne_of_length {xs ys : List Char} {m n : Nat} (hx : xs.length = m) (hy : ys.length = n)
    (h : m ≠ n) : xs ≠ ys := by
  intro heq
  obtain rfl := heq
  exact h (hx.symm.trans hy)

/-- A drive letter is a segment. -/
theorem isSegment_drive {special : Bool} {c : Char} (hset : inPathSet c = false)
    (hslash : isSlash special c = false) : IsSegment special (String.ofList [c, ':']) where
  encoded := by
    rw [String.toList_ofList, List.forall_mem_cons, List.forall_mem_singleton]
    exact ⟨hset, by decide⟩
  slash := by
    rw [String.toList_ofList, List.forall_mem_cons, List.forall_mem_singleton]
    exact ⟨hslash, isSlash_mono (by decide)⟩
  single := by
    rw [String.toList_ofList, isSingleDot, Bool.or_eq_false_iff]
    exact ⟨decide_eq_false (ne_of_length rfl rfl (by decide : 2 ≠ 1)),
      decide_eq_false (ne_of_length rfl rfl (by decide : 2 ≠ 3))⟩
  double := by
    rw [String.toList_ofList, isDoubleDot]
    refine Bool.eq_false_iff.mpr fun h => ?_
    simp only [List.contains_iff_mem, List.mem_cons, List.not_mem_nil, or_false] at h
    rcases h with h | h | h | h
    · exact absurd (List.cons.inj (List.cons.inj h).2).1 (by decide)
    · exact absurd h (ne_of_length rfl rfl (by decide : 2 ≠ 4))
    · exact absurd h (ne_of_length rfl rfl (by decide : 2 ≠ 4))
    · exact absurd h (ne_of_length rfl rfl (by decide : 2 ≠ 6))

theorem mem_shorten {scheme : String} {path : List String} {segment : String}
    (h : segment ∈ shorten scheme path) : segment ∈ path := by
  unfold shorten at h
  split at h
  next =>
    split at h
    next => exact h
    next => exact absurd h List.not_mem_nil
  next => exact (List.dropLast_sublist _).subset h

variable {scheme : String} {special : Bool}

/-- One more segment keeps what holds of the segments. -/
theorem isSegment_addSegment {path : List String} {segment : List Char}
    (hpath : ∀ s ∈ path, IsSegment (isSpecial scheme) s)
    (hsegment : ∀ c ∈ segment, isSlash (isSpecial scheme) c = false) (slash : Bool) :
    ∀ s ∈ addSegment scheme path segment slash, IsSegment (isSpecial scheme) s := by
  have hshort : ∀ s ∈ shorten scheme path, IsSegment (isSpecial scheme) s :=
    fun s hs => hpath s (mem_shorten hs)
  have hconcat : ∀ (ss : List String) (t : String), (∀ s ∈ ss, IsSegment (isSpecial scheme) s) →
      IsSegment (isSpecial scheme) t → ∀ s ∈ ss ++ [t], IsSegment (isSpecial scheme) s := by
    intro ss t hss ht s hs
    rcases List.mem_append.mp hs with hs | hs
    · exact hss s hs
    · rw [List.mem_singleton.mp hs]
      exact ht
  have hencoded := encoded_segment hsegment
  rw [addSegment]
  split
  next =>
    split
    next => exact hshort
    next => exact hconcat _ _ hshort (isSegment_empty _)
  next hdouble =>
    split
    next =>
      split
      next => exact hpath
      next => exact hconcat _ _ hpath (isSegment_empty _)
    next hsingle =>
      split
      next hdrive =>
        obtain ⟨c, d, htext⟩ := exists_of_isDriveLetter hdrive.2.2
        obtain ⟨hset, hslash⟩ := hencoded c (htext ▸ List.mem_cons_self ..)
        rw [htext]
        exact hconcat _ _ hpath (isSegment_drive hset hslash)
      next =>
        refine hconcat _ _ hpath ⟨?_, ?_, ?_, ?_⟩
        · rw [String.toList_ofList]
          exact fun c hc => (hencoded c hc).1
        · rw [String.toList_ofList]
          exact fun c hc => (hencoded c hc).2
        · rw [String.toList_ofList]
          exact Bool.eq_false_iff.mpr hsingle
        · rw [String.toList_ofList]
          exact Bool.eq_false_iff.mpr hdouble

theorem isSegment_addSegments {path : List String} {segments : List (List Char)}
    (hpath : ∀ s ∈ path, IsSegment (isSpecial scheme) s)
    (hsegments : ∀ segment ∈ segments, ∀ c ∈ segment, isSlash (isSpecial scheme) c = false) :
    ∀ s ∈ addSegments scheme path segments, IsSegment (isSpecial scheme) s := by
  induction segments generalizing path with
  | nil => exact hpath
  | cons segment segments ih =>
    have hfirst := hsegments segment (List.mem_cons_self ..)
    cases segments with
    | nil => exact isSegment_addSegment hpath hfirst false
    | cons next rest =>
      exact ih (isSegment_addSegment hpath hfirst true)
        fun s hs => hsegments s (List.mem_cons_of_mem _ hs)

theorem addSegment_ne_nil (path : List String) (segment : List Char) :
    addSegment scheme path segment false ≠ [] := by
  rw [addSegment]
  split
  next => exact List.append_ne_nil_of_right_ne_nil _ (List.cons_ne_nil _ _)
  next =>
    split
    next => exact List.append_ne_nil_of_right_ne_nil _ (List.cons_ne_nil _ _)
    next =>
      split
      next => exact List.append_ne_nil_of_right_ne_nil _ (List.cons_ne_nil _ _)
      next => exact List.append_ne_nil_of_right_ne_nil _ (List.cons_ne_nil _ _)

theorem addSegments_ne_nil (path : List String) {segments : List (List Char)}
    (h : segments ≠ []) : addSegments scheme path segments ≠ [] := by
  induction segments generalizing path with
  | nil => exact absurd rfl h
  | cons segment segments ih =>
    cases segments with
    | nil => exact addSegment_ne_nil path segment
    | cons next rest => exact ih _ (List.cons_ne_nil _ _)

/-- The pieces of a text that is cut have none of what it is cut at. -/
theorem not_mem_splitOnP {α : Type} {p : α → Bool} {xs piece : List α}
    (h : piece ∈ xs.splitOnP p) : ∀ x ∈ piece, p x = false := by
  induction xs generalizing piece with
  | nil =>
    obtain rfl := List.mem_singleton.mp h
    exact fun x hx => absurd hx List.not_mem_nil
  | cons y ys ih =>
    rw [List.splitOnP_cons_eq_if_modifyHead] at h
    split at h
    next =>
      rcases List.mem_cons.mp h with rfl | h
      · exact fun x hx => absurd hx List.not_mem_nil
      · exact ih h
    next hy =>
      cases hpieces : ys.splitOnP p with
      | nil => exact absurd hpieces (List.splitOnP_ne_nil _ _)
      | cons first pieces =>
        rw [hpieces] at ih h
        rcases List.mem_cons.mp h with rfl | h
        · intro x hx
          rcases List.mem_cons.mp hx with rfl | hx
          · exact Bool.eq_false_iff.mpr hy
          · exact ih (List.mem_cons_self ..) x hx
        · exact ih (List.mem_cons_of_mem _ h)

/-! ## What the parser returns -/

/-- What is behind a scheme and begins with no slash, as a path. -/
def rootlessText (cs : List Char) : String :=
  String.ofList (percentEncode isC0Control (cs.takeWhile fun c => !endsPath c))

/-- What the parser returns: a path that it reads, behind one of the base or none; no path;
the base; or a text behind a scheme. -/
inductive Made (base : Option Url) (behind : Option (List Char)) : Url → Prop
  | path (scheme : String) (host : Option String) (path : List String) (cs : List Char)
    (h : ∀ s ∈ path, ∃ b, base = some b ∧ b.scheme = scheme ∧ s ∈ b.pathSegments) :
    Made base behind (withPath scheme host path cs)
  | noPath (scheme : String) (host query : Option String) (h : isSpecial scheme = false) :
    Made base behind { scheme, host, path := .segments [], query }
  | base (b : Url) (query : Option String) (h : base = some b) :
    Made base behind { b with query }
  | rootless (scheme : String) (cs : List Char) (query : Option String)
    (hspecial : isSpecial scheme = false) (hslash : ∀ rest, cs ≠ '/' :: rest)
    (h : behind = some cs) :
    Made base behind { scheme, host := none, path := .rootless (rootlessText cs), query }

section

variable {toAscii : String → Option String} {base : Option Url} {behind : Option (List Char)}
  {url : Url} {cs : List Char}

theorem made_rooted (host : Option String) (cs : List Char) :
    Made base behind (withPath scheme host [] cs) :=
  .path scheme host [] cs fun _ hs => absurd hs List.not_mem_nil

theorem made_pathStart (host : String) (cs : List Char) :
    Made base behind (pathStart scheme host cs) := by
  unfold pathStart
  split
  next =>
    split
    next => exact made_rooted _ _
    next h => exact .noPath _ _ _ (Bool.eq_false_iff.mpr h)
  next =>
    split
    next => exact made_rooted _ _
    next =>
      split
      next h =>
        rw [Bool.and_eq_true, Bool.not_eq_true'] at h
        exact .noPath _ _ _ h.1
      next => exact made_rooted _ _

theorem made_authority (h : authority toAscii scheme cs = some url) : Made base behind url := by
  obtain ⟨host, -, rfl⟩ := Option.map_eq_some_iff.mp h
  exact made_pathStart host _

theorem made_relativeSlash {b : Url} (h : relativeSlash toAscii scheme b cs = some url) :
    Made base behind url := by
  unfold relativeSlash at h
  split at h
  next =>
    obtain rfl := Option.some.inj h
    exact made_rooted _ _
  next =>
    split at h
    next => exact made_authority h
    next =>
      split at h
      next => exact made_authority h
      next =>
        obtain rfl := Option.some.inj h
        exact made_rooted _ _

theorem made_relative {b : Url} (hbase : base = some b)
    (h : relative toAscii b.scheme b cs = some url) : Made base behind url := by
  unfold relative at h
  split at h
  next =>
    obtain rfl := Option.some.inj h
    exact .base b b.query hbase
  next =>
    split at h
    next => exact made_relativeSlash h
    next =>
      split at h
      next =>
        obtain rfl := Option.some.inj h
        exact .base b _ hbase
      next =>
        split at h
        next =>
          obtain rfl := Option.some.inj h
          exact .base b b.query hbase
        next =>
          obtain rfl := Option.some.inj h
          exact .path _ _ _ _ fun s hs => ⟨b, hbase, rfl, mem_shorten hs⟩

theorem made_fileHost (h : fileHost toAscii cs = some url) : Made base behind url := by
  unfold fileHost at h
  dsimp only at h
  split at h
  next =>
    obtain rfl := Option.some.inj h
    exact made_rooted _ _
  next =>
    split at h
    next =>
      obtain rfl := Option.some.inj h
      exact made_pathStart _ _
    next =>
      obtain ⟨host, -, rfl⟩ := Option.map_eq_some_iff.mp h
      exact made_pathStart _ _

/-- A base that is a file. -/
def FileOf (base base' : Option Url) : Prop :=
  ∀ b, base' = some b → base = some b ∧ b.scheme = "file"

theorem made_fileSlash {base' : Option Url} (hbase : FileOf base base')
    (h : fileSlash toAscii base' cs = some url) : Made base behind url := by
  unfold fileSlash at h
  split at h
  next => exact made_fileHost h
  next =>
    obtain rfl := Option.some.inj h
    refine .path _ _ _ _ ?_
    split
    next first rest hsegments =>
      split
      next =>
        obtain ⟨b, hb, hpath⟩ := Option.map_eq_some_iff.mp hsegments
        obtain ⟨hsome, hscheme⟩ := hbase b hb
        intro s hs
        rw [List.mem_singleton.mp hs]
        exact ⟨b, hsome, hscheme, hpath ▸ List.mem_cons_self ..⟩
      next => exact fun _ hs => absurd hs List.not_mem_nil
    next => exact fun _ hs => absurd hs List.not_mem_nil

theorem made_file {base' : Option Url} (hbase : FileOf base base')
    (h : file toAscii base' cs = some url) : Made base behind url := by
  unfold file at h
  split at h
  next => exact made_fileSlash hbase h
  next =>
    split at h
    next =>
      obtain rfl := Option.some.inj h
      exact made_rooted _ _
    next b =>
      obtain ⟨hsome, hscheme⟩ := hbase b rfl
      split at h
      next =>
        obtain rfl := Option.some.inj h
        exact .base b b.query hsome
      next =>
        split at h
        next =>
          obtain rfl := Option.some.inj h
          exact .base b _ hsome
        next =>
          split at h
          next =>
            obtain rfl := Option.some.inj h
            exact .base b b.query hsome
          next =>
            obtain rfl := Option.some.inj h
            refine .path _ _ _ _ ?_
            split
            next => exact fun _ hs => absurd hs List.not_mem_nil
            next => exact fun s hs => ⟨b, hsome, hscheme, mem_shorten hs⟩

theorem made_withScheme (h : withScheme toAscii scheme base cs = some url) :
    Made base (some cs) url := by
  have hfilter : ∀ {s : String} {b : Url}, base.filter (fun b => decide (b.scheme = s)) = some b →
      base = some b ∧ b.scheme = s := by
    intro s b hb
    obtain ⟨hsome, hscheme⟩ := Option.filter_eq_some_iff.mp hb
    exact ⟨hsome, of_decide_eq_true hscheme⟩
  unfold withScheme at h
  split at h
  next => exact made_file (fun b hb => hfilter hb) h
  next =>
    split at h
    next =>
      split at h
      next b hb =>
        obtain ⟨hsome, rfl⟩ := hfilter hb
        split at h
        next => exact made_authority h
        next => exact made_relative hsome h
      next => exact made_authority h
    next hspecial =>
      split at h
      next => exact made_authority h
      next =>
        obtain rfl := Option.some.inj h
        exact made_rooted _ _
      next hslash =>
        obtain rfl := Option.some.inj h
        exact .rootless _ _ _ (Bool.eq_false_iff.mpr hspecial)
          (fun rest hrest => hslash rest hrest) rfl

theorem made_withoutScheme (h : withoutScheme toAscii base cs = some url) :
    Made base none url := by
  obtain ⟨b, hb, h⟩ := Option.bind_eq_some_iff.mp h
  split at h
  next =>
    split at h
    next =>
      obtain rfl := Option.some.inj h
      exact .base b b.query hb
    next => cases h
  next =>
    split at h
    next hfile =>
      refine made_file ?_ h
      intro b' hb'
      obtain rfl := Option.some.inj hb'
      exact ⟨hb, hfile⟩
    next => exact made_relative hb h

/-- What the parser returns, by what is behind the scheme. -/
theorem made_parseWith {input : String} (h : parseWith toAscii base input = some url) :
    Made base ((scheme? (clean input.toList)).map Prod.snd) url := by
  rw [parseWith] at h
  split at h
  next hscheme =>
    rw [hscheme]
    exact made_withScheme h
  next hscheme =>
    rw [hscheme]
    exact made_withoutScheme h

end

/-! ## What holds of it -/

/-- Encoding puts no end of a path into a text. -/
theorem ends_percentEncode (set : Char → Bool) {cs : List Char}
    (h : ∀ c ∈ cs, endsPath c = false) : ∀ c ∈ percentEncode set cs, endsPath c = false := by
  have hhex : ∀ n < 16, endsPath (upperHex n) = false := by decide
  intro c hc
  rcases mem_percentEncode hc with ⟨hmem, -⟩ | rfl | ⟨n, hn, rfl⟩
  · exact h c hmem
  · rfl
  · exact hhex n hn

/-- Nor a slash at its start. -/
theorem starts_percentEncode {set : Char → Bool} {cs : List Char}
    (h : (percentEncode set cs).head? = some '/') : ∃ rest, cs = '/' :: rest := by
  cases cs with
  | nil => cases h
  | cons c rest =>
    rw [percentEncode, List.flatMap_cons] at h
    cases hc : set c with
    | false =>
      rw [hc, if_neg Bool.false_ne_true, List.singleton_append, List.head?_cons,
        Option.some.injEq] at h
      exact ⟨rest, by rw [h]⟩
    | true =>
      -- a character that is encoded is some bytes, and the first begins with `%`
      rw [hc, if_pos rfl] at h
      cases hbytes : String.utf8EncodeChar c with
      | nil =>
        have hlength := String.length_utf8EncodeChar c
        rw [hbytes] at hlength
        exact absurd hlength (Nat.ne_of_lt c.utf8Size_pos)
      | cons b bytes =>
        rw [hbytes] at h
        exact absurd (Option.some.inj h) (by decide)

theorem starts_takeWhile {p : Char → Bool} {c : Char} {cs rest : List Char}
    (h : cs.takeWhile p = c :: rest) : ∃ rest', cs = c :: rest' := by
  cases cs with
  | nil => cases h
  | cons d cs =>
    rw [List.takeWhile_cons] at h
    split at h
    next => exact ⟨cs, by rw [(List.cons.inj h).1]⟩
    next => cases h

theorem Parsed.pathSegments {url : Url} (h : Parsed url) :
    ∀ s ∈ url.pathSegments, IsSegment (isSpecial url.scheme) s := by
  rw [Url.pathSegments]
  cases hpath : url.path with
  | rootless text => exact fun _ hs => absurd hs List.not_mem_nil
  | segments segments => exact h.segments segments hpath

theorem parsed_withPath (host : Option String) {path : List String}
    (hpath : ∀ s ∈ path, IsSegment (isSpecial scheme) s) (cs : List Char) :
    Parsed (withPath scheme host path cs) where
  segments := by
    intro segments heq
    obtain rfl := Path.segments.inj heq
    exact isSegment_addSegments hpath fun segment hmem => not_mem_splitOnP hmem
  special := fun _ => ⟨_, addSegments_ne_nil path (List.splitOnP_ne_nil _ _), rfl⟩
  rootless := fun text heq => by cases heq

theorem parsed_rootless (h : isSpecial scheme = false) {cs : List Char}
    (hslash : ∀ rest, cs ≠ '/' :: rest) (query : Option String) :
    Parsed { scheme, host := none, path := .rootless (rootlessText cs), query } where
  segments := fun segments heq => by cases heq
  special := fun hspecial => absurd (hspecial.symm.trans h) (by decide)
  rootless := by
    intro text heq
    obtain rfl := Path.rootless.inj heq
    rw [rootlessText, String.toList_ofList]
    refine ⟨?_, ends_percentEncode _ fun c hc => ?_⟩
    · intro hhead
      obtain ⟨rest, hrest⟩ := starts_percentEncode hhead
      obtain ⟨rest', hrest'⟩ := starts_takeWhile hrest
      exact hslash rest' hrest'
    · have hkept := List.mem_takeWhile_imp hc
      exact (Bool.not_eq_true' _).mp hkept

theorem Made.parsed {base : Option Url} {behind : Option (List Char)} {url : Url}
    (h : Made base behind url) (hbase : ∀ b, base = some b → Parsed b) : Parsed url := by
  cases h with
  | path scheme host path cs hpath =>
    refine parsed_withPath host ?_ cs
    intro s hs
    obtain ⟨b, hb, rfl, hmem⟩ := hpath s hs
    exact (hbase b hb).pathSegments s hmem
  | noPath scheme host query hspecial =>
    refine { segments := ?_, special := ?_, rootless := fun text heq => by cases heq }
    · intro segments heq
      obtain rfl := Path.segments.inj heq
      exact fun _ hs => absurd hs List.not_mem_nil
    · exact fun h => absurd (h.symm.trans hspecial) (by decide)
  | base b query hb =>
    have hparsed := hbase b hb
    exact ⟨hparsed.segments, hparsed.special, hparsed.rootless⟩
  | rootless scheme cs query hspecial hslash hbehind => exact parsed_rootless hspecial hslash query

/-- What is parsed on a base. -/
theorem parsed_parseOn {toAscii : String → Option String} {input base : String} {url : Url}
    (h : parseOn toAscii input base = some url) : Parsed url := by
  obtain ⟨b, hb, h⟩ := Option.bind_eq_some_iff.mp h
  refine (made_parseWith h).parsed ?_
  intro b' hb'
  obtain rfl := Option.some.inj hb'
  exact (made_parseWith hb).parsed fun _ hnone => by cases hnone

/-! ## A path that is parsed again -/

/-- The text of a path, after its first slash. -/
def segmentsText (segments : List String) : List Char :=
  ['/'].intercalate (segments.map String.toList)

theorem segmentsText_cons (s t : String) (segments : List String) :
    segmentsText (s :: t :: segments) = s.toList ++ '/' :: segmentsText (t :: segments) := by
  rw [segmentsText, List.map_cons, List.map_cons, List.intercalate_cons_cons, List.append_assoc]
  rfl

theorem toList_join_segments {segments : List String} (hne : segments ≠ []) :
    (String.join (segments.map fun s => "/" ++ s)).toList = '/' :: segmentsText segments := by
  have hslash : ∀ s : String, ("/" ++ s).toList = '/' :: s.toList := fun s => String.toList_append
  rw [String.toList_join]
  induction segments with
  | nil => exact absurd rfl hne
  | cons s segments ih =>
    rw [List.map_cons, List.flatMap_cons, hslash]
    cases segments with
    | nil =>
      rw [List.map_nil, List.flatMap_nil, List.append_nil, segmentsText, List.map_singleton,
        List.intercalate_singleton]
    | cons t segments => rw [ih (List.cons_ne_nil _ _), segmentsText_cons, List.cons_append]

theorem pathname_segments {url : Url} {segments : List String} (hne : segments ≠ [])
    (h : url.path = .segments segments) : url.pathname.toList = '/' :: segmentsText segments := by
  rw [pathname, h]
  exact toList_join_segments hne

/-- What has no control characters and spaces stays as it is. -/
theorem clean_eq_self {cs : List Char} (h : ∀ c ∈ cs, 0x20 < c.toNat) : clean cs = cs := by
  have hdrop : ∀ {xs : List Char}, (∀ c ∈ xs, 0x20 < c.toNat) →
      xs.dropWhile (fun c => decide (c.toNat ≤ 0x20)) = xs := by
    intro xs hxs
    cases xs with
    | nil => rfl
    | cons c xs =>
      have hc := hxs c (List.mem_cons_self ..)
      exact List.dropWhile_cons_of_neg (by rw [decide_eq_true_eq]; omega)
  have hreverse : ∀ c ∈ cs.reverse, 0x20 < c.toNat := fun c hc => h c (List.mem_reverse.mp hc)
  unfold clean
  dsimp only
  rw [hdrop h, hdrop hreverse, List.reverse_reverse, List.filter_eq_self]
  intro c hc
  have hlt := h c hc
  have hne : ∀ d : Char, d.toNat ≤ 0x20 → c ≠ d := by
    intro d hd heq
    obtain rfl := heq
    omega
  rw [decide_eq_true (hne '\t' (by decide)), decide_eq_true (hne '\n' (by decide)),
    decide_eq_true (hne '\r' (by decide))]
  rfl

theorem mem_segmentsText {segments : List String} {p : Char → Prop} (hslash : p '/')
    (h : ∀ s ∈ segments, ∀ c ∈ s.toList, p c) : ∀ c ∈ segmentsText segments, p c := by
  induction segments with
  | nil => exact fun c hc => absurd hc List.not_mem_nil
  | cons s segments ih =>
    have hs := h s (List.mem_cons_self ..)
    cases segments with
    | nil =>
      rw [segmentsText, List.map_singleton, List.intercalate_singleton]
      exact hs
    | cons t segments =>
      rw [segmentsText_cons, List.forall_mem_append, List.forall_mem_cons]
      exact ⟨hs, hslash, ih fun s' hs' => h s' (List.mem_cons_of_mem _ hs')⟩

theorem subset_segmentsText {segments : List String} {s : String} (hs : s ∈ segments) :
    ∀ {c : Char}, c ∈ s.toList → c ∈ segmentsText segments := by
  intro c hc
  induction segments with
  | nil => exact absurd hs List.not_mem_nil
  | cons t segments ih =>
    cases segments with
    | nil =>
      obtain rfl := List.mem_singleton.mp hs
      rw [segmentsText, List.map_singleton, List.intercalate_singleton]
      exact hc
    | cons t' segments =>
      rw [segmentsText_cons]
      rcases List.mem_cons.mp hs with rfl | hs
      · exact List.mem_append_left _ hc
      · exact List.mem_append_right _ (List.mem_cons_of_mem _ (ih hs))

/-- The text of a path is cut where it was put together. -/
theorem splitOnP_segmentsText {segments : List String} (hne : segments ≠ [])
    (h : ∀ s ∈ segments, IsSegment true s) :
    (segmentsText segments).splitOnP (isSlash true) = segments.map String.toList := by
  induction segments with
  | nil => exact absurd rfl hne
  | cons s segments ih =>
    have hs := (h s (List.mem_cons_self ..)).slash
    cases segments with
    | nil =>
      rw [segmentsText, List.map_singleton, List.intercalate_singleton,
        List.splitOnP_eq_singleton hs]
    | cons t segments =>
      rw [segmentsText_cons, List.splitOnP_append_cons_of_forall_mem hs '/' rfl,
        ih (List.cons_ne_nil _ _) fun s' hs' => h s' (List.mem_cons_of_mem _ hs')]
      rfl

/-- A segment that the parser has made is made of itself. -/
theorem addSegment_self {scheme : String} (hfile : scheme ≠ "file") {special : Bool} {s : String}
    (h : IsSegment special s) (path : List String) (slash : Bool) :
    addSegment scheme path s.toList slash = path ++ [s] := by
  rw [addSegment, percentEncode_self h.encoded, h.double, h.single, if_neg Bool.false_ne_true,
    if_neg Bool.false_ne_true, if_neg fun hdrive => hfile hdrive.1, String.ofList_toList]

theorem addSegments_self {scheme : String} (hfile : scheme ≠ "file") {special : Bool}
    (path : List String) {segments : List String} (h : ∀ s ∈ segments, IsSegment special s) :
    addSegments scheme path (segments.map String.toList) = path ++ segments := by
  induction segments generalizing path with
  | nil => exact (List.append_nil path).symm
  | cons s segments ih =>
    have hs := h s (List.mem_cons_self ..)
    cases segments with
    | nil => exact addSegment_self hfile hs path false
    | cons t segments =>
      have hrest := ih (path ++ [s]) fun s' hs' => h s' (List.mem_cons_of_mem _ hs')
      rw [List.map_cons, List.map_cons, addSegments, addSegment_self hfile hs path true,
        ← List.map_cons, hrest, List.append_assoc]
      rfl

/-- The text of a search: nothing, or a question mark and what stays as it is. -/
structure IsSearch (search : List Char) (query : Option String) : Prop where
  query : queryOf true search = query
  begins : search = [] ∨ ∃ cs, search = '?' :: cs
  visible : ∀ c ∈ search, 0x20 < c.toNat

/-- A character that a path keeps. -/
theorem kept_of_not_inPathSet {c : Char} (h : inPathSet c = false) :
    0x20 < c.toNat ∧ endsPath c = false := by
  constructor
  · rw [inPathSet, Bool.or_eq_false_iff, inQuerySet, Bool.or_eq_false_iff, isC0Control,
      Bool.or_eq_false_iff] at h
    have hge := of_decide_eq_false h.1.1.1
    have hne : c.toNat ≠ 0x20 := by
      intro heq
      have hspace : c = ' ' := Char.toNat_inj.mp heq
      rw [hspace] at h
      exact absurd h.1.2 (by decide)
    omega
  · rw [← Bool.not_eq_true, endsPath, Bool.or_eq_true, decide_eq_true_eq, decide_eq_true_eq]
    intro hcases
    rcases hcases with rfl | rfl
    · exact absurd h (by decide)
    · exact absurd h (by decide)

/-- The path of segments and a search behind it. -/
theorem withPath_segments (host : Option String) {segments : List String} (hne : segments ≠ [])
    (h : ∀ s ∈ segments, IsSegment true s) {search : List Char} {query : Option String}
    (hsearch : IsSearch search query) :
    withPath "http" host [] (segmentsText segments ++ search) =
      { scheme := "http", host, path := .segments segments, query } := by
  have hends : ∀ c ∈ segmentsText segments, (!endsPath c) = true := by
    refine mem_segmentsText rfl fun s hs c hc => ?_
    rw [(kept_of_not_inPathSet ((h s hs).encoded c hc)).2]
    rfl
  -- no segment ends the path, and the search does
  have htake : (segmentsText segments ++ search).takeWhile (fun c => !endsPath c) =
      segmentsText segments := by
    rw [List.takeWhile_append_of_pos hends]
    rcases hsearch.begins with rfl | ⟨cs, rfl⟩
    · exact List.append_nil _
    · exact List.append_nil _
  have hdrop : (segmentsText segments ++ search).dropWhile (fun c => !endsPath c) = search := by
    rw [List.dropWhile_append_of_pos hends]
    rcases hsearch.begins with rfl | ⟨cs, rfl⟩
    · rfl
    · rfl
  have hspecial : isSpecial "http" = true := rfl
  rw [withPath, htake, hdrop, hspecial, splitOnP_segmentsText hne h,
    addSegments_self (by decide) [] h, hsearch.query]
  rfl

/-- After its first slash the path has no other at once. -/
theorem not_slash_of_first {segments : List String} (hne : segments ≠ [])
    (h : ∀ s ∈ segments, IsSegment true s) (hfirst : ∀ s ss, segments ≠ "" :: s :: ss)
    {search : List Char} {query : Option String} (hsearch : IsSearch search query) {c : Char}
    {rest : List Char} (heq : segmentsText segments ++ search = c :: rest) :
    isSlash true c = false := by
  cases segments with
  | nil => exact absurd rfl hne
  | cons s segments =>
    have hs := (h s (List.mem_cons_self ..)).slash
    have htext : ∃ behind, segmentsText (s :: segments) ++ search = s.toList ++ behind ∧
        (segments = [] → behind = search) := by
      cases segments with
      | nil => exact ⟨search, by rw [segmentsText, List.map_singleton, List.intercalate_singleton],
          fun _ => rfl⟩
      | cons t segments =>
        refine ⟨'/' :: (segmentsText (t :: segments) ++ search), ?_, fun hnil => by cases hnil⟩
        rw [segmentsText_cons, List.append_assoc, List.cons_append]
    obtain ⟨behind, htext, hlast⟩ := htext
    rw [htext] at heq
    cases hchars : s.toList with
    | nil =>
      -- an empty segment comes first only where it is the only one
      have hempty : s = "" := String.toList_eq_nil_iff.mp hchars
      have hnil : segments = [] := by
        cases segments with
        | nil => rfl
        | cons t segments => exact absurd (by rw [hempty]) (hfirst t segments)
      rw [hchars, List.nil_append, hlast hnil] at heq
      rcases hsearch.begins with hsearch | ⟨cs, hsearch⟩
      · rw [hsearch] at heq
        cases heq
      · rw [hsearch] at heq
        rw [← (List.cons.inj heq).1]
        rfl
    | cons d ds =>
      rw [hchars, List.cons_append] at heq
      rw [← (List.cons.inj heq).1]
      exact hs d (hchars ▸ List.mem_cons_self ..)

/-- A path that begins with one slash, on a base `http://…`. -/
theorem parseOn_segments {toAscii : String → Option String} {host : String}
    (hbase : (parse toAscii ("http://" ++ host)).isSome = true) {segments : List String}
    (hne : segments ≠ []) (h : ∀ s ∈ segments, IsSegment true s)
    (hfirst : ∀ s ss, segments ≠ "" :: s :: ss) {search : List Char} {query : Option String}
    (hsearch : IsSearch search query) :
    ∃ host', parseOn toAscii (String.ofList ('/' :: (segmentsText segments ++ search)))
      ("http://" ++ host) =
        some { scheme := "http", host := host', path := .segments segments, query } := by
  obtain ⟨base, hsome⟩ := Option.isSome_iff_exists.mp hbase
  obtain ⟨hscheme, path, hpath⟩ := parse_http hsome
  have hclean : clean ('/' :: (segmentsText segments ++ search)) =
      '/' :: (segmentsText segments ++ search) := by
    refine clean_eq_self ?_
    rw [List.forall_mem_cons, List.forall_mem_append]
    exact ⟨by decide, mem_segmentsText (by decide) fun s hs c hc =>
      (kept_of_not_inPathSet ((h s hs).encoded c hc)).1, hsearch.visible⟩
  have hrest : ∀ c rest, segmentsText segments ++ search = c :: rest → isSlash true c = false :=
    fun c rest heq => not_slash_of_first hne h hfirst hsearch heq
  refine ⟨base.host, ?_⟩
  have hnone : scheme? ('/' :: (segmentsText segments ++ search)) = none := rfl
  rw [parseOn, hsome, Option.bind_some, parseWith, String.toList_ofList, hclean, hnone]
  dsimp only
  rw [withoutScheme, Option.bind_some, hpath]
  dsimp only
  rw [hscheme, if_neg (by decide), relative, if_pos (by decide),
    ← withPath_segments _ hne h hsearch]
  cases htext : segmentsText segments ++ search with
  | nil => rfl
  | cons c rest =>
    have hslash := hrest c rest htext
    have hc : c ≠ '/' := by
      intro heq
      obtain rfl := heq
      cases hslash
    rw [relativeSlash, if_neg fun hand => absurd (hslash.symm.trans hand.2) (by decide), if_neg hc]

/-! ## A path that is another when it is parsed again -/

theorem length_splitOnP {α : Type} (p : α → Bool) (xs : List α) :
    (xs.splitOnP p).length = xs.countP p + 1 := by
  induction xs with
  | nil => rfl
  | cons x xs ih =>
    rw [List.splitOnP_cons_eq_if_modifyHead, List.countP_cons]
    split
    next => rw [List.length_cons, ih]
    next => rw [List.length_modifyHead, ih, Nat.add_zero]

theorem length_addSegment (path : List String) (segment : List Char) (slash : Bool) :
    (addSegment scheme path segment slash).length ≤ path.length + 1 := by
  have hshort : (shorten scheme path).length ≤ path.length := by
    unfold shorten
    split
    next =>
      split
      next => exact le_rfl
      next => exact Nat.zero_le _
    next => exact (List.dropLast_sublist _).length_le
  have hconcat : ∀ (ss : List String) (s : String), ss.length ≤ path.length →
      (ss ++ [s]).length ≤ path.length + 1 := by
    intro ss s hss
    rw [List.length_append]
    exact Nat.add_le_add_right hss 1
  rw [addSegment]
  split
  next =>
    split
    next => exact hshort.trans (Nat.le_succ _)
    next => exact hconcat _ _ hshort
  next =>
    split
    next =>
      split
      next => exact Nat.le_succ _
      next => exact hconcat _ _ le_rfl
    next =>
      split
      next => exact hconcat _ _ le_rfl
      next => exact hconcat _ _ le_rfl

theorem length_addSegments (path : List String) (segments : List (List Char)) :
    (addSegments scheme path segments).length ≤ path.length + segments.length := by
  induction segments generalizing path with
  | nil => exact le_rfl
  | cons segment segments ih =>
    cases segments with
    | nil => exact length_addSegment path segment false
    | cons next rest =>
      have hone := @length_addSegment scheme path segment true
      have hmore := ih (addSegment scheme path segment true)
      rw [addSegments, List.length_cons (a := segment)]
      omega

/-- A path from the root has at most one segment more than there are slashes. -/
theorem length_withPath (host : Option String) (cs : List Char) :
    (withPath scheme host [] cs).pathSegments.length ≤
      (cs.takeWhile fun c => !endsPath c).countP (isSlash (isSpecial scheme)) + 1 := by
  have h := @length_addSegments scheme []
    ((cs.takeWhile fun c => !endsPath c).splitOnP (isSlash (isSpecial scheme)))
  rw [length_splitOnP, List.length_nil, Nat.zero_add] at h
  exact h

theorem length_pathStart (host : String) (cs : List Char) :
    (pathStart scheme host cs).pathSegments.length ≤
      (cs.takeWhile fun c => !endsPath c).countP (isSlash (isSpecial scheme)) + 1 := by
  unfold pathStart
  split
  next =>
    split
    next => exact length_withPath _ _
    next => exact Nat.zero_le _
  next c rest =>
    split
    next hslash =>
      have hends : (!endsPath c) = true := by
        rw [Bool.not_eq_true', ← Bool.not_eq_true, endsPath, Bool.or_eq_true, decide_eq_true_eq,
          decide_eq_true_eq]
        intro hcases
        rcases hcases with rfl | rfl
        · cases hs : isSpecial scheme <;> rw [hs] at hslash <;> cases hslash
        · cases hs : isSpecial scheme <;> rw [hs] at hslash <;> cases hslash
      refine (length_withPath _ _).trans (Nat.add_le_add_right ?_ 1)
      rw [List.takeWhile_cons_of_pos (p := fun c => !endsPath c) hends, List.countP_cons]
      exact Nat.le_add_right _ _
    next =>
      split
      next => exact Nat.zero_le _
      next => exact length_withPath _ _

/-- A text begins with as many slashes as it has segments. -/
theorem count_slash_pathname {segments : List String} (hne : segments ≠ [])
    (h : ∀ s ∈ segments, IsSegment special s) :
    ('/' :: segmentsText segments).count '/' = segments.length := by
  have hzero : ∀ {s : String}, IsSegment special s → s.toList.count '/' = 0 := by
    intro s hs
    refine List.count_eq_zero.mpr fun hmem => ?_
    have hslash := hs.slash '/' hmem
    cases hslash
  rw [List.count_cons_self]
  induction segments with
  | nil => exact absurd rfl hne
  | cons s segments ih =>
    have hs := hzero (h s (List.mem_cons_self ..))
    cases segments with
    | nil =>
      rw [segmentsText, List.map_singleton, List.intercalate_singleton, hs, List.length_singleton]
    | cons t segments =>
      rw [segmentsText_cons, List.count_append, hs, List.count_cons_self,
        ih (List.cons_ne_nil _ _) fun s' hs' => h s' (List.mem_cons_of_mem _ hs'), Nat.zero_add,
        List.length_cons (a := s)]

/-- Dropping what is in the path leaves an end of the path. -/
theorem takeWhile_dropWhile {p q : Char → Bool} (hqp : ∀ c, q c = true → p c = true)
    (xs : List Char) : ((xs.dropWhile q).takeWhile p).Sublist (xs.takeWhile p) := by
  induction xs with
  | nil => exact List.Sublist.refl _
  | cons x xs ih =>
    by_cases hq : q x = true
    · rw [List.dropWhile_cons_of_pos hq, List.takeWhile_cons_of_pos (hqp x hq)]
      exact ih.cons x
    · rw [List.dropWhile_cons_of_neg hq]

theorem takeWhile_filter {p q : Char → Bool} (hqp : ∀ c, q c = false → p c = true)
    (xs : List Char) : ((xs.filter q).takeWhile p).Sublist (xs.takeWhile p) := by
  induction xs with
  | nil => exact List.Sublist.refl _
  | cons x xs ih =>
    by_cases hq : q x = true
    · rw [List.filter_cons_of_pos hq]
      by_cases hp : p x = true
      · rw [List.takeWhile_cons_of_pos hp, List.takeWhile_cons_of_pos hp]
        exact ih.cons_cons x
      · rw [List.takeWhile_cons_of_neg hp]
        exact List.nil_sublist _
    · rw [List.filter_cons_of_neg hq, List.takeWhile_cons_of_pos (hqp x (Bool.eq_false_iff.mpr hq))]
      exact ih.cons x

theorem takeWhile_prefix_mono {p : Char → Bool} {xs ys : List Char} (h : xs <+: ys) :
    (xs.takeWhile p).Sublist (ys.takeWhile p) := by
  obtain ⟨zs, rfl⟩ := h
  rw [List.takeWhile_append]
  split
  next hlength =>
    rw [(List.takeWhile_prefix p).eq_of_length hlength]
    exact List.sublist_append_left _ _
  next => exact List.Sublist.refl _

/-- What is cleaned away is in no end of a path. -/
theorem takeWhile_clean (cs : List Char) :
    ((clean cs).takeWhile fun c => !endsPath c).Sublist (cs.takeWhile fun c => !endsPath c) := by
  have hkept : ∀ c : Char, c.toNat ≤ 0x20 → (!endsPath c) = true := by
    intro c hc
    rw [Bool.not_eq_true', ← Bool.not_eq_true, endsPath, Bool.or_eq_true, decide_eq_true_eq,
      decide_eq_true_eq]
    intro hcases
    rcases hcases with rfl | rfl
    · exact absurd hc (by decide)
    · exact absurd hc (by decide)
  unfold clean
  dsimp only
  refine (takeWhile_filter ?_ _).trans ((takeWhile_prefix_mono ?_).trans
    (takeWhile_dropWhile (fun c hc => hkept c (of_decide_eq_true hc)) cs))
  · intro c hc
    rw [Bool.and_eq_false_iff, Bool.and_eq_false_iff] at hc
    rcases hc with (hc | hc) | hc
    · obtain rfl := not_not.mp (of_decide_eq_false hc)
      rfl
    · obtain rfl := not_not.mp (of_decide_eq_false hc)
      rfl
    · obtain rfl := not_not.mp (of_decide_eq_false hc)
      rfl
  · rw [← List.reverse_suffix, List.reverse_reverse]
    exact List.dropWhile_suffix _

theorem count_colon_percentEncode {set : Char → Bool} (h : set ':' = false) (cs : List Char) :
    (percentEncode set cs).count ':' = cs.count ':' := by
  have hbytes : ∀ bytes : Bytes, (bytes.flatMap percentByte).count ':' = 0 := by
    intro bytes
    refine List.count_eq_zero.mpr fun hmem => ?_
    have hhex : ∀ n < 16, upperHex n ≠ ':' := by decide
    obtain ⟨b, -, hb⟩ := List.mem_flatMap.mp hmem
    have hlt := b.toNat_lt
    rw [percentByte, List.mem_cons, List.mem_cons, List.mem_singleton] at hb
    rcases hb with hb | hb | hb
    · exact absurd hb (by decide)
    · exact hhex _ (by omega) hb.symm
    · exact hhex _ (by omega) hb.symm
  induction cs with
  | nil => rfl
  | cons c cs ih =>
    rw [percentEncode, List.flatMap_cons, List.count_append]
    show _ + (percentEncode set cs).count ':' = _
    rw [ih, List.count_cons]
    cases hset : set c with
    | true =>
      have hc : c ≠ ':' := by
        intro heq
        obtain rfl := heq
        rw [h] at hset
        cases hset
      rw [if_pos rfl, hbytes, Nat.zero_add, beq_false_of_ne hc, if_neg Bool.false_ne_true,
        Nat.add_zero]
    | false =>
      rw [if_neg Bool.false_ne_true, List.count_cons, List.count_nil, Nat.zero_add, Nat.add_comm]

/-- What is before the colon of a scheme ends no path. -/
theorem exists_of_scheme? {cs rest : List Char} {s : String} (h : scheme? cs = some (s, rest)) :
    ∃ word, cs = word ++ ':' :: rest ∧ ∀ c ∈ word, (!endsPath c) = true := by
  unfold scheme? at h
  dsimp only at h
  split at h
  next => cases h
  next c cs =>
    split at h
    next =>
      split at h
      next hrest =>
        obtain ⟨-, rfl⟩ := Prod.mk.inj (Option.some.inj h)
        refine ⟨_, (hrest ▸ List.takeWhile_append_dropWhile).symm, fun d hd => ?_⟩
        have hword := List.mem_takeWhile_imp hd
        rw [Bool.not_eq_true', ← Bool.not_eq_true, endsPath, Bool.or_eq_true, decide_eq_true_eq,
          decide_eq_true_eq]
        intro hcases
        rcases hcases with rfl | rfl
        · exact absurd hword (by decide)
        · exact absurd hword (by decide)
      next => cases h
    next => cases h

/-- A path with a colon before it has another as its text. -/
theorem count_colon_rootless {out rest : List Char} {s : String}
    (h : scheme? (clean out) = some (s, rest)) :
    (rootlessText rest).toList.count ':' < (out.takeWhile fun c => !endsPath c).count ':' := by
  obtain ⟨word, hword, hends⟩ := exists_of_scheme? h
  have hle := (takeWhile_clean out).count_le ':'
  rw [hword, List.takeWhile_append_of_pos hends,
    List.takeWhile_cons_of_pos (p := fun c => !endsPath c) rfl, List.count_append,
    List.count_cons_self] at hle
  rw [rootlessText, String.toList_ofList, count_colon_percentEncode (by decide)]
  omega

theorem Made.rootless_eq {base : Option Url} {behind : Option (List Char)} {url : Url}
    (h : Made base behind url)
    (hbase : ∀ b, base = some b → ∃ segments, b.path = .segments segments)
    {text : String} (hpath : url.path = .rootless text) :
    ∃ cs, behind = some cs ∧ text = rootlessText cs := by
  cases h with
  | path scheme host path cs h => cases hpath
  | noPath scheme host query h => cases hpath
  | base b query hb =>
    obtain ⟨segments, hsegments⟩ := hbase b hb
    exact absurd (hsegments.symm.trans hpath) (by intro heq; cases heq)
  | rootless scheme cs query hspecial hslash hbehind =>
    exact ⟨cs, hbehind, (Path.rootless.inj hpath).symm⟩

/-- A path that is the same when it is parsed on an `http:` URL. -/
def IsPlainPath (pathname : String) : Prop :=
  ∃ rest, pathname.toList = '/' :: rest ∧ rest.head? ≠ some '/' ∧ '\\' ∉ rest

theorem relativeSlash_scheme {toAscii : String → Option String} {base url : Url} {cs : List Char}
    (h : relativeSlash toAscii scheme base cs = some url) : url.scheme = scheme := by
  have hauthority : ∀ {ds : List Char}, authority toAscii scheme ds = some url →
      url.scheme = scheme := by
    intro ds hds
    obtain ⟨host, -, rfl⟩ := Option.map_eq_some_iff.mp hds
    exact pathStart_scheme _ _ _
  unfold relativeSlash at h
  split at h
  next =>
    obtain rfl := Option.some.inj h
    rfl
  next =>
    split at h
    next => exact hauthority h
    next =>
      split at h
      next => exact hauthority h
      next =>
        obtain rfl := Option.some.inj h
        rfl

/-- A path from the root is parsed on the base. -/
theorem parseOn_slash {toAscii : String → Option String} {host : String} {v : Url} {cs : List Char}
    (h : parseOn toAscii (String.ofList ('/' :: cs)) ("http://" ++ host) = some v) :
    ∃ base rest, clean ('/' :: cs) = '/' :: rest ∧
      relativeSlash toAscii "http" base rest = some v := by
  obtain ⟨base, hbase, h⟩ := Option.bind_eq_some_iff.mp h
  obtain ⟨hscheme, path, hpath⟩ := parse_http hbase
  obtain ⟨rest, hclean⟩ := clean_append ['/'] (List.cons_ne_nil _ _) (by simp) cs
  rw [List.singleton_append, List.singleton_append] at hclean
  have hnone : scheme? ('/' :: rest) = none := rfl
  rw [parseWith, String.toList_ofList, hclean, hnone] at h
  dsimp only at h
  rw [withoutScheme, Option.bind_some, hpath] at h
  dsimp only at h
  rw [hscheme, if_neg (by decide), relative, if_pos (by decide)] at h
  exact ⟨base, rest, hclean, h⟩

/-- A path that begins with two slashes has fewer segments when it is parsed again. -/
theorem not_two_slashes {toAscii : String → Option String} {base v : Url} {rest : List Char}
    {segments : List String} (h : relativeSlash toAscii "http" base ('/' :: rest) = some v)
    (hpath : v.path = .segments segments) :
    segments.length ≤ (rest.takeWhile fun c => !endsPath c).countP (isSlash true) + 1 := by
  rw [relativeSlash, if_pos (by decide)] at h
  obtain ⟨host, -, rfl⟩ := Option.map_eq_some_iff.mp h
  have hskip : ∀ c, isSlash true c = true → (!endsPath c) = true := by
    intro c hc
    rw [Bool.not_eq_true', ← Bool.not_eq_true, endsPath, Bool.or_eq_true, decide_eq_true_eq,
      decide_eq_true_eq]
    intro hcases
    rcases hcases with rfl | rfl
    · exact absurd hc (by decide)
    · exact absurd hc (by decide)
  have hregion : ∀ c, (!endsAuthority (isSpecial "http") c) = true → (!endsPath c) = true := by
    intro c hc
    rw [Bool.not_eq_true', endsAuthority, Bool.or_eq_false_iff] at hc
    rw [hc.2]
    rfl
  have hlength := @length_pathStart "http" host
    ((skipSlashes rest).dropWhile fun c => !endsAuthority (isSpecial "http") c)
  rw [Url.pathSegments, hpath] at hlength
  have hsub := ((takeWhile_dropWhile hregion (skipSlashes rest)).trans
    (takeWhile_dropWhile hskip rest)).countP_le (p := isSlash true)
  exact hlength.trans (Nat.add_le_add_right hsub 1)

section

variable {toAscii : String → Option String} {host : String} {u : Url} {search : List Char}
  {query : Option String} {v : Url}

theorem takeWhile_search {text : List Char} (h : ∀ c ∈ text, endsPath c = false)
    (hsearch : IsSearch search query) :
    (text ++ search).takeWhile (fun c => !endsPath c) = text := by
  have hkept : ∀ c ∈ text, (!endsPath c) = true := by
    intro c hc
    rw [h c hc]
    rfl
  rw [List.takeWhile_append_of_pos hkept]
  rcases hsearch.begins with rfl | ⟨cs, rfl⟩
  · exact List.append_nil _
  · exact List.append_nil _

theorem ends_segmentsText {segments : List String} (h : ∀ s ∈ segments, IsSegment special s) :
    ∀ c ∈ segmentsText segments, endsPath c = false :=
  mem_segmentsText rfl fun s hs c hc => (kept_of_not_inPathSet ((h s hs).encoded c hc)).2

/-- A path from the root that is the same again is plain. -/
theorem plain_of_rooted {rest : List Char} (hu : u.pathname.toList = '/' :: rest)
    (hsearch : IsSearch search query)
    (hv : parseOn toAscii (String.ofList (u.pathname.toList ++ search))
      ("http://" ++ host) = some v)
    (heq : v.pathname = u.pathname) : IsPlainPath u.pathname := by
  rw [hu] at hv
  obtain ⟨base, rest', hclean, hrelative⟩ := parseOn_slash hv
  have hscheme := relativeSlash_scheme hrelative
  have hparsed := parsed_parseOn hv
  obtain ⟨segments, hne, hpath⟩ := hparsed.special (by rw [hscheme]; rfl)
  have hsegments : ∀ s ∈ segments, IsSegment true s := by
    have h := hparsed.segments segments hpath
    rw [hscheme] at h
    exact h
  have hrest : rest = segmentsText segments := by
    have h := pathname_segments hne hpath
    rw [heq, hu] at h
    exact (List.cons.inj h).2
  have hslash : ∀ c ∈ rest, isSlash true c = true → c = '/' := by
    rw [hrest]
    refine mem_segmentsText (fun _ => rfl) fun s hs c hc htrue => ?_
    rw [(hsegments s hs).slash c hc] at htrue
    cases htrue
  refine ⟨rest, hu, ?_, fun hmem => absurd (hslash '\\' hmem rfl) (by decide)⟩
  intro hhead
  obtain ⟨after, rfl⟩ : ∃ after, rest = '/' :: after := by
    cases rest with
    | nil => cases hhead
    | cons c after => exact ⟨after, by rw [Option.some.inj hhead]⟩
  -- the second slash begins an authority, and both are not in the path any more
  obtain ⟨rest'', hclean'⟩ := clean_append ['/', '/'] (List.cons_ne_nil _ _) (by simp)
    (after ++ search)
  have htwice : rest' = '/' :: rest'' := (List.cons.inj (hclean.symm.trans hclean')).2
  rw [htwice] at hrelative
  have hlength := not_two_slashes hrelative hpath
  have hends : ∀ c ∈ '/' :: '/' :: after, endsPath c = false := by
    rw [hrest, List.forall_mem_cons]
    exact ⟨rfl, ends_segmentsText hsegments⟩
  have hsub := takeWhile_clean (('/' :: '/' :: after) ++ search)
  rw [takeWhile_search hends hsearch,
    show clean ('/' :: '/' :: after ++ search) = '/' :: '/' :: rest'' from hclean',
    List.takeWhile_cons_of_pos (p := fun c => !endsPath c) rfl,
    List.takeWhile_cons_of_pos (p := fun c => !endsPath c) rfl] at hsub
  have hcount := hsub.countP_le (p := isSlash true)
  have htotal : segments.length = ('/' :: '/' :: after).countP (isSlash true) := by
    rw [← count_slash_pathname hne hsegments, ← hrest, List.count]
    refine List.countP_congr fun c hc => ?_
    rw [beq_iff_eq]
    refine ⟨fun h => h ▸ rfl, fun htrue => ?_⟩
    rcases List.mem_cons.mp hc with h | h
    · exact h
    · exact hslash c h htrue
  have hone : isSlash true '/' = true := rfl
  simp only [List.countP_cons_of_pos hone] at hcount htotal
  omega

/-- A path that is no path from the root is not the same again. -/
theorem rooted_of_reparsed (hu : Parsed u) (hsearch : IsSearch search query)
    (hv : parseOn toAscii (String.ofList (u.pathname.toList ++ search))
      ("http://" ++ host) = some v)
    (heq : v.pathname = u.pathname) : ∃ rest, u.pathname.toList = '/' :: rest := by
  have hvparsed := parsed_parseOn hv
  obtain ⟨base, hbase, h⟩ := Option.bind_eq_some_iff.mp hv
  obtain ⟨hscheme, path, hpath⟩ := parse_http hbase
  by_contra hroot
  -- so `v` has no segments and no special scheme
  have hnoSegments : ∀ {w : Url} {segments : List String}, w.pathname = u.pathname →
      w.path = .segments segments → segments = [] := by
    intro w segments hw hsegments
    by_contra hne
    exact hroot ⟨_, hw ▸ pathname_segments hne hsegments⟩
  have hnotSpecial : isSpecial v.scheme ≠ true := by
    intro hspecial
    obtain ⟨segments, hne, hsegments⟩ := hvparsed.special hspecial
    exact hne (hnoSegments heq hsegments)
  cases hpathname : u.pathname.toList with
  | nil =>
    -- then all there is is a search, and `v` has the scheme of the base
    refine hnotSpecial ?_
    rw [hpathname, List.nil_append, parseWith, String.toList_ofList,
      clean_eq_self hsearch.visible] at h
    rcases hsearch.begins with rfl | ⟨cs, rfl⟩
    · rw [show scheme? [] = none from rfl] at h
      dsimp only at h
      rw [withoutScheme, Option.bind_some, hpath] at h
      dsimp only at h
      rw [hscheme, if_neg (by decide), relative] at h
      rw [← Option.some.inj h]
      rfl
    · rw [show scheme? ('?' :: cs) = none from rfl] at h
      dsimp only at h
      rw [withoutScheme, Option.bind_some, hpath] at h
      dsimp only at h
      rw [hscheme, if_neg (by decide), relative, if_neg (by decide), if_pos rfl] at h
      rw [← Option.some.inj h]
      rfl
  | cons c cs =>
    -- then both have the text, but `v` has it behind a colon
    have hrootless : ∀ {w : Url}, w.pathname = u.pathname → w.path = .rootless u.pathname := by
      intro w hw
      cases hwpath : w.path with
      | rootless text =>
        rw [← hw, pathname, hwpath]
      | segments segments =>
        obtain rfl := hnoSegments hw hwpath
        rw [← hw, pathname, hwpath] at hpathname
        cases hpathname
    obtain ⟨rest, hbehind, htext⟩ := (made_parseWith h).rootless_eq
      (fun b hb => ⟨path, by rw [← Option.some.inj hb, hpath]⟩) (hrootless heq)
    obtain ⟨⟨s, rest'⟩, hs, rfl⟩ := Option.map_eq_some_iff.mp hbehind
    have hcount := count_colon_rootless hs
    have hends := (hu.rootless u.pathname (hrootless rfl)).2
    rw [String.toList_ofList, takeWhile_search hends hsearch, ← htext] at hcount
    exact absurd hcount (lt_irrefl _)

/-- A path that is the same when it is parsed again is plain. -/
theorem plain_of_reparsed (hu : Parsed u) (hsearch : IsSearch search query)
    (hv : parseOn toAscii (String.ofList (u.pathname.toList ++ search))
      ("http://" ++ host) = some v)
    (heq : v.pathname = u.pathname) : IsPlainPath u.pathname := by
  obtain ⟨rest, hrest⟩ := rooted_of_reparsed hu hsearch hv heq
  exact plain_of_rooted hrest hsearch hv heq

/-- A plain path is the same when it is parsed again, and the query is what the search says. -/
theorem reparsed_of_plain (hu : Parsed u) (hsearch : IsSearch search query)
    (hbase : (parse toAscii ("http://" ++ host)).isSome = true) (hplain : IsPlainPath u.pathname) :
    ∃ v, parseOn toAscii (String.ofList (u.pathname.toList ++ search))
      ("http://" ++ host) = some v ∧ v.pathname = u.pathname ∧ v.query = query := by
  obtain ⟨rest, hrest, hhead, hback⟩ := hplain
  obtain ⟨segments, hne, hpath⟩ : ∃ segments, segments ≠ [] ∧ u.path = .segments segments := by
    cases hpath : u.path with
    | rootless text =>
      have htext : u.pathname = text := by rw [pathname, hpath]
      refine absurd ?_ (hu.rootless text hpath).1
      rw [← htext, hrest]
      rfl
    | segments segments =>
      refine ⟨segments, ?_, rfl⟩
      intro heq
      obtain rfl := heq
      rw [pathname, hpath] at hrest
      cases hrest
  have htext : rest = segmentsText segments :=
    (List.cons.inj (hrest.symm.trans (pathname_segments hne hpath))).2
  have hsegments : ∀ s ∈ segments, IsSegment true s := by
    intro s hs
    have h := hu.segments segments hpath s hs
    refine ⟨h.encoded, fun c hc => ?_, h.single, h.double⟩
    have hslash := h.slash c hc
    rw [isSlash, Bool.or_eq_false_iff] at hslash
    rw [isSlash, hslash.1, Bool.true_and, Bool.false_or, decide_eq_false_iff_not]
    intro heq
    obtain rfl := heq
    exact hback (htext ▸ subset_segmentsText hs hc)
  have hfirst : ∀ s ss, segments ≠ "" :: s :: ss := by
    intro s ss heq
    obtain rfl := heq
    rw [htext, segmentsText_cons] at hhead
    exact hhead rfl
  obtain ⟨host', hv⟩ := parseOn_segments hbase hne hsegments hfirst hsearch
  rw [hrest, htext]
  refine ⟨_, hv, ?_, rfl⟩
  rw [pathname, pathname, hpath]

end

end Url

end Js
