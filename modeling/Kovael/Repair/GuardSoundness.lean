import Kovael.Repair.RepairPatch

/-!
# What `git apply` touches, and what the guard saw

The headers of a patch as `git apply` reads them: lines that `---`, `+++`, `diff --git`,
`rename` or `copy` begin, each with a file. Which lines are headers, and the files of
quoted and other unusual names, is up to git (`GitApply` says what is used of it).

`guard_sound_iff`: of a patch that `validateRepairPatch` accepts, git touches no protected
path exactly if none is named by a header that is not spelled plainly.
-/

namespace Kovael.Repair

open Js (trim isWhitespace occursIn)

/-! ## Headers -/

inductive HeaderKind where
  | old
  | new
  | diffGit
  | renameFrom
  | renameTo
  | copyFrom
  | copyTo
  deriving DecidableEq, Repr

/-- What the line begins with. -/
def HeaderKind.marker : HeaderKind → String
  | .old => "--- "
  | .new => "+++ "
  | .diffGit => "diff --git "
  | .renameFrom => "rename from "
  | .renameTo => "rename to "
  | .copyFrom => "copy from "
  | .copyTo => "copy to "

/-- A header: what follows the marker, and a file that git creates, modifies, deletes,
renames or copies for it. -/
structure Header where
  kind : HeaderKind
  field : List Char
  file : List Char
  deriving DecidableEq, Repr

/-- The line stands in the text, with its end of line. -/
def StandsIn (line text : List Char) : Prop :=
  ∃ before eol after, text = before ++ line ++ eol ++ after ∧
    (before = [] ∨ ∃ lines, before = lines ++ ['\n']) ∧ (eol = ['\n'] ∨ eol = ['\r', '\n'])

/-- `-p1`: the first component is dropped, whatever it is. -/
def dropComponent (path : List Char) : List Char :=
  if '/' ∈ path then (path.dropWhile fun c => c ≠ '/').tail else path

/-- A path without quotes, backslashes, tabs and line terminators, whose components are
neither empty nor `.`, and neither begin nor end with white space. -/
structure PlainPath (path : List Char) : Prop where
  chars : ∀ c ∈ path, c ≠ '\t' ∧ c ≠ '"' ∧ c ≠ '\\' ∧ isLineTerminator c = false
  components : ∀ part ∈ path.splitOn '/', part ≠ [] ∧ part ≠ ['.'] ∧
    (∀ c ∈ part.head?, isWhitespace c = false) ∧ ∀ c ∈ part.getLast?, isWhitespace c = false

/-- The first component is `a` or `b`, or what follows it is not in `scripts`. -/
def SideSeen (path : List Char) : Prop :=
  (rest? "a/" path).isSome = true ∨ (rest? "b/" path).isSome = true ∨
    "scripts/".toList.isPrefixOf (lowerCase (dropComponent path)) = false

/-- The header is spelled plainly, with that path: a marker line whose path may be followed
by a tab and ends in no date, `diff --git a/path b/path`, or a rename. -/
inductive PlainlyNames : HeaderKind → List Char → List Char → Prop
  | marker {kind : HeaderKind} {path tab : List Char} (hkind : kind = .old ∨ kind = .new)
      (hpath : PlainPath path) (hdate : ' ' ∈ path → ∀ c ∈ path.getLast?, c.isDigit = false)
      (hside : SideSeen path) (htab : tab = [] ∨ tab = ['\t']) : PlainlyNames kind (path ++ tab) path
  | diffGit {path : List Char} (hpath : PlainPath path) (hspace : ' ' ∉ path) :
      PlainlyNames .diffGit ("a/".toList ++ path ++ " b/".toList ++ path) path
  | rename {kind : HeaderKind} {path : List Char} (hkind : kind = .renameFrom ∨ kind = .renameTo)
      (hpath : PlainPath path) : PlainlyNames kind path path

/-- The header is spelled plainly. -/
def Plain (h : Header) : Prop := ∃ path, PlainlyNames h.kind h.field path

/-- What is used of `git apply` and the headers that it reads: each is a line of the patch,
and one that is spelled plainly has the file that it says. (Git goes over to `-p0` after a
marker line without a directory.) -/
structure GitApply (headers : String → List Header) : Prop where
  stands : ∀ patch, ∀ h ∈ headers patch,
    StandsIn (h.kind.marker.toList ++ h.field) patch.toList
  strips : ∀ patch, ∀ h ∈ headers patch, ∀ path, PlainlyNames h.kind h.field path →
    h.file = path ∨ (h.kind = .old ∨ h.kind = .new) ∧ h.file = dropComponent path

/-! ## Lines -/

theorem dropReturn_append {line : List Char} (hline : '\r' ∉ line) {cr : List Char}
    (hcr : cr = [] ∨ cr = ['\r']) : dropReturn (line ++ cr) = line := by
  unfold dropReturn
  rcases hcr with rfl | rfl
  · rw [List.append_nil, if_neg]
    intro hlast
    exact hline (List.mem_of_getLast? hlast)
  · rw [List.getLast?_concat, if_pos rfl, List.dropLast_concat]

/-- The guard sees the lines of the patch. -/
theorem mem_splitLines {line : List Char} {patch : String} (h : StandsIn line patch.toList)
    (hfeed : '\n' ∉ line) (hreturn : '\r' ∉ line) : line ∈ splitLines patch := by
  obtain ⟨before, eol, after, htext, hbefore, heol⟩ := h
  obtain ⟨cr, hcr, rfl⟩ : ∃ cr, (cr = [] ∨ cr = ['\r']) ∧ eol = cr ++ ['\n'] := by
    rcases heol with rfl | rfl
    · exact ⟨[], Or.inl rfl, rfl⟩
    · exact ⟨['\r'], Or.inr rfl, rfl⟩
  have hpiece : '\n' ∉ line ++ cr := by
    rw [List.mem_append, not_or]
    refine ⟨hfeed, ?_⟩
    rcases hcr with rfl | rfl <;> decide
  have hsplit : ((line ++ cr) ++ '\n' :: after).splitOn '\n' = (line ++ cr) :: after.splitOn '\n' :=
    List.splitOn_append_cons_self_of_not_mem hpiece after
  -- the piece is not the last
  obtain ⟨xs, hpieces⟩ : ∃ xs, patch.toList.splitOn '\n'
      = xs ++ (line ++ cr) :: after.splitOn '\n' := by
    rcases hbefore with rfl | ⟨lines, rfl⟩
    · refine ⟨[], ?_⟩
      rw [htext, ← hsplit]
      simp
    · refine ⟨lines.splitOn '\n', ?_⟩
      rw [← hsplit, ← List.splitOn_append_cons_self, htext]
      simp
  have hlast : (xs ++ (line ++ cr) :: after.splitOn '\n').dropLast
      = xs ++ (line ++ cr) :: (after.splitOn '\n').dropLast := by
    rw [List.dropLast_append_of_ne_nil (List.cons_ne_nil _ _),
      List.dropLast_cons_of_ne_nil (List.splitOn_ne_nil _ _)]
  unfold splitLines
  dsimp only
  rw [hpieces, hlast]
  refine List.mem_append_left _ (List.mem_map.mpr ⟨line ++ cr, ?_, dropReturn_append hreturn hcr⟩)
  exact List.mem_append_right _ (List.mem_cons_self ..)

theorem mem_foldl_add {paths : List String} {path : String} :
    ∀ {acc : List String}, path ∈ acc ∨ path ∈ paths →
      path ∈ paths.foldl (fun paths path => if path ∈ paths then paths else paths ++ [path]) acc := by
  induction paths with
  | nil => exact fun h => h.resolve_right List.not_mem_nil
  | cons p ps ih =>
    intro acc h
    rw [List.foldl_cons]
    apply ih
    rcases h with h | h
    · left
      split
      · exact h
      · exact List.mem_append_left _ h
    · rcases List.mem_cons.mp h with rfl | h
      · left
        split
        · next hmem => exact hmem
        · exact List.mem_append_right _ (List.mem_singleton_self _)
      · exact Or.inr h

/-- A protected path on one line of the patch is enough to refuse it. -/
theorem refused_of_path {patch : String} {line : List Char} (hline : line ∈ splitLines patch)
    {path : String} (hpath : path ∈ linePaths line) (hnil : normalize path ≠ [])
    (hnull : normalize path ≠ "/dev/null".toList) (hprot : isProtectedPath (normalize path) = true) :
    validateRepairPatch patch ≠ .ok () := by
  have hmem : path ∈ extractPatchPaths patch :=
    mem_foldl_add (Or.inr (List.mem_flatMap.mpr ⟨line, hline, hpath⟩))
  have hfirst : ∀ {paths : List String}, path ∈ paths → firstProtected paths ≠ none := by
    intro paths
    induction paths with
    | nil => exact fun h => absurd h List.not_mem_nil
    | cons p ps ih =>
      intro h
      rw [firstProtected]
      rcases List.mem_cons.mp h with rfl | h
      · rw [if_neg (not_or.mpr ⟨hnil, hnull⟩), if_pos hprot]
        exact Option.some_ne_none _
      · split
        · exact ih h
        · split
          · exact Option.some_ne_none _
          · exact ih h
  unfold validateRepairPatch
  rw [if_neg fun h => List.ne_nil_of_mem hmem (List.length_eq_zero_iff.mp h)]
  cases hp : firstProtected (extractPatchPaths patch) with
  | none => exact absurd hp (hfirst hmem)
  | some normalized => exact fun h => nomatch h

/-! ## Plain paths -/

/-- The first component, and the rest. -/
theorem PlainPath.cut {path : List Char} (h : PlainPath path) :
    ('/' ∉ path ∧ path.splitOn '/' = [path]) ∨
      ∃ first rest, path = first ++ '/' :: rest ∧ '/' ∉ first ∧
        path.splitOn '/' = first :: rest.splitOn '/' ∧ PlainPath rest := by
  by_cases hslash : '/' ∈ path
  · right
    obtain ⟨first, rest, rfl, hfirst⟩ := List.eq_append_cons_of_mem hslash
    have hsplit : (first ++ '/' :: rest).splitOn '/' = first :: rest.splitOn '/' :=
      List.splitOn_append_cons_self_of_not_mem hfirst rest
    refine ⟨first, rest, rfl, hfirst, hsplit, ?_, ?_⟩
    · exact fun c hc => h.chars c (List.mem_append_right _ (List.mem_cons_of_mem _ hc))
    · intro part hpart
      exact h.components part (hsplit ▸ List.mem_cons_of_mem _ hpart)
  · exact Or.inl ⟨hslash, List.splitOn_eq_singleton hslash⟩

/-- A path begins with neither a slash nor white space nor `./`. -/
theorem PlainPath.head {path : List Char} (h : PlainPath path) :
    ∃ c cs, path = c :: cs ∧ c ≠ '/' ∧ isWhitespace c = false ∧ (c = '.' → cs.head? ≠ some '/') := by
  rcases h.cut with ⟨hslash, hsplit⟩ | ⟨first, rest, rfl, hslash, hsplit, -⟩
  · obtain ⟨hne, -, hhead, -⟩ := h.components path (hsplit ▸ List.mem_singleton_self _)
    cases path with
    | nil => exact absurd rfl hne
    | cons c cs =>
      refine ⟨c, cs, rfl, ?_, hhead c rfl, ?_⟩
      · intro heq
        obtain rfl := heq
        exact hslash (List.mem_cons_self ..)
      · intro _ hcs
        exact hslash (List.mem_cons_of_mem _ (List.mem_of_head? hcs))
  · obtain ⟨hne, hdot, hhead, -⟩ := h.components first (hsplit ▸ List.mem_cons_self ..)
    cases first with
    | nil => exact absurd rfl hne
    | cons c cs =>
      refine ⟨c, cs ++ '/' :: rest, rfl, ?_, hhead c rfl, ?_⟩
      · intro heq
        obtain rfl := heq
        exact hslash (List.mem_cons_self ..)
      · intro heq
        obtain rfl := heq
        intro hcs
        cases cs with
        | nil => exact hdot rfl
        | cons d ds =>
          rw [List.cons_append, List.head?_cons, Option.some.injEq] at hcs
          exact hslash (List.mem_cons_of_mem _ (hcs ▸ List.mem_cons_self ..))

/-- A path does not end with white space. -/
theorem PlainPath.last {path : List Char} (h : PlainPath path) :
    ∀ c ∈ path.getLast?, isWhitespace c = false := by
  rcases h.cut with ⟨-, hsplit⟩ | ⟨first, rest, hpath, -, -, hrest⟩
  · exact (h.components path (hsplit ▸ List.mem_singleton_self _)).2.2.2
  · obtain ⟨c, cs, hcs, -⟩ := hrest.head
    have hlast : path.getLast? = rest.getLast? := by
      rw [hpath, List.getLast?_append_of_ne_nil _ (List.cons_ne_nil _ _), hcs, List.getLast?_cons_cons]
    rw [hlast]
    exact hrest.last
termination_by path.length
decreasing_by
  rw [hpath, List.length_append, List.length_cons]
  omega

theorem trim_plain {path : List Char} (h : PlainPath path) :
    trim (String.ofList path) = String.ofList path := by
  obtain ⟨c, cs, hcs, -, hspace, -⟩ := h.head
  have hfront : path.dropWhile isWhitespace = path := by
    rw [hcs, List.dropWhile_cons, if_neg]
    rw [hspace]
    exact Bool.false_ne_true
  have hback : path.reverse.dropWhile isWhitespace = path.reverse := by
    cases hrev : path.reverse with
    | nil => rfl
    | cons d ds =>
      have hlast : path.getLast? = some d := by
        rw [← List.head?_reverse, hrev, List.head?_cons]
      rw [List.dropWhile_cons, if_neg]
      rw [h.last d hlast]
      exact Bool.false_ne_true
  rw [trim, String.toList_ofList, hfront, hback, List.reverse_reverse]

theorem stripPatchPath_plain {path tab : List Char} (h : PlainPath path)
    (htab : tab = [] ∨ tab = ['\t']) : stripPatchPath (path ++ tab) = String.ofList path := by
  have hchars : ∀ c ∈ path, decide (c ≠ '\t') = true :=
    fun c hc => decide_eq_true (h.chars c hc).1
  have htake : (path ++ tab).takeWhile (fun c => c ≠ '\t') = path := by
    rw [List.takeWhile_append_of_pos hchars]
    rcases htab with rfl | rfl
    · exact List.append_nil path
    · rw [List.takeWhile_cons, if_neg (by decide), List.append_nil]
  rw [stripPatchPath, htake, trim_plain h]

theorem normalize_plain {path : List Char} (h : PlainPath path) :
    normalize (String.ofList path) = path := by
  have hmap : path.map (fun c => if c = '\\' then '/' else c) = path := by
    rw [List.map_congr_left (g := id), List.map_id]
    intro c hc
    exact if_neg (h.chars c hc).2.2.1
  obtain ⟨c, cs, rfl, hslash, -, hdot⟩ := h.head
  unfold normalize
  rw [String.toList_ofList, hmap]
  split
  · next hcs =>
    rw [List.cons.injEq] at hcs
    exact absurd (by rw [hcs.2, List.head?_cons]) (hdot hcs.1)
  · next hcs => exact absurd (List.cons.inj hcs).1 hslash
  · rfl

theorem plain_ne {path : List Char} (h : PlainPath path) : path ≠ [] ∧ path ≠ "/dev/null".toList := by
  obtain ⟨c, cs, rfl, hslash, -⟩ := h.head
  refine ⟨List.cons_ne_nil c cs, ?_⟩
  intro heq
  exact hslash (List.cons.inj heq).1

/-! ## Protected paths -/

/-- The names that are protected in any directory. -/
def protectedNames : List String := "package.json" :: lockFiles

/-- The tests on the lower-case path, without those that others include. -/
theorem isProtectedPath_iff (path : List Char) :
    isProtectedPath path = true ↔
      (∃ name ∈ protectedNames, lowerCase path = name.toList ∨
        ('/' :: name.toList) <:+ lowerCase path) ∨
      "scripts/".toList <+: lowerCase path ∨ (lowerCase path).head? = some '.' ∨
      "/.".toList <:+: lowerCase path ∨ ∃ ending ∈ keyEndings, ending.toList <:+ lowerCase path := by
  have hnamed : ∀ (name : String) lower, isNamed name lower = true ↔
      lower = name.toList ∨ ('/' :: name.toList) <:+ lower := by
    intro name lower
    rw [isNamed, Bool.or_eq_true, decide_eq_true_eq, List.isSuffixOf_iff_suffix]
  have hroot : ∀ lower : List Char, (lower.takeWhile fun c => c ≠ '/').head? = some '.' ↔
      lower.head? = some '.' := by
    intro lower
    cases lower with
    | nil => exact Iff.rfl
    | cons c cs =>
      rw [List.takeWhile_cons]
      split
      · rfl
      · next hc =>
        have hslash : c = '/' := by simpa using hc
        rw [hslash]
        exact iff_of_false (fun h => nomatch h) (by simp)
  -- a lead that begins with a dot
  have hdotted : ∀ {lead lower : List Char}, ('.' :: lead) <+: lower → lower.head? = some '.' := by
    intro lead lower hgiven
    obtain ⟨more, rfl⟩ := hgiven
    rfl
  have hhere : ∀ {lower : List Char}, isEnvHere lower = true → lower.head? = some '.' := by
    intro lower h
    unfold isEnvHere rest? at h
    split at h
    · exact absurd h Bool.false_ne_true
    · next hrest =>
      split at hrest
      · next hlead => exact hdotted (List.isPrefixOf_iff_prefix.mp hlead)
      · exact nomatch hrest
    · next hrest =>
      split at hrest
      · next hlead => exact hdotted (List.isPrefixOf_iff_prefix.mp hlead)
      · exact nomatch hrest
  have hbelow : ∀ {lower : List Char}, isEnvBelow lower = true → "/.".toList <:+: lower := by
    intro lower
    induction lower with
    | nil => exact fun h => absurd h Bool.false_ne_true
    | cons c cs ih =>
      intro h
      rw [isEnvBelow, Bool.or_eq_true, Bool.and_eq_true, decide_eq_true_eq] at h
      rcases h with ⟨rfl, h⟩ | h
      · obtain ⟨ds, rfl⟩ : ∃ ds, cs = '.' :: ds := by
          cases cs with
          | nil => exact nomatch hhere h
          | cons d ds =>
            have hd := hhere h
            rw [List.head?_cons, Option.some.injEq] at hd
            exact ⟨ds, by rw [hd]⟩
        exact ⟨[], ds, rfl⟩
      · exact (ih h).trans (List.suffix_cons c cs).isInfix
  unfold isProtectedPath
  simp only [Bool.or_eq_true, List.any_eq_true, hnamed, decide_eq_true_eq, hroot,
    Js.occursIn_iff, List.isPrefixOf_iff_prefix, List.isSuffixOf_iff_suffix, protectedNames,
    List.mem_cons, exists_eq_or_imp, List.not_mem_nil, or_false, exists_eq_left]
  constructor
  · intro hcases
    rcases hcases with ((((h | h) | (h | h | h)) | (h | h)) | (h | h)) | h
    · exact Or.inl (Or.inl h)
    · exact Or.inl (Or.inr h)
    · exact Or.inr (Or.inl h)
    · exact Or.inr (Or.inr (Or.inl (hdotted h)))
    · exact Or.inr (Or.inr (Or.inl (hdotted h)))
    · exact Or.inr (Or.inr (Or.inl h))
    · exact Or.inr (Or.inr (Or.inr (Or.inl h)))
    · exact Or.inr (Or.inr (Or.inl (hhere h)))
    · exact Or.inr (Or.inr (Or.inr (Or.inl (hbelow h))))
    · exact Or.inr (Or.inr (Or.inr (Or.inr h)))
  · intro hcases
    rcases hcases with (h | h) | h | h | h | h
    · exact Or.inl (Or.inl (Or.inl (Or.inl (Or.inl h))))
    · exact Or.inl (Or.inl (Or.inl (Or.inl (Or.inr h))))
    · exact Or.inl (Or.inl (Or.inl (Or.inr (Or.inl h))))
    · exact Or.inl (Or.inl (Or.inr (Or.inl h)))
    · exact Or.inl (Or.inl (Or.inr (Or.inr h)))
    · exact Or.inr h

theorem lowerCase_append (first rest : List Char) :
    lowerCase (first ++ rest) = lowerCase first ++ lowerCase rest :=
  List.flatMap_append

theorem lowerCase_slash (rest : List Char) : lowerCase ('/' :: rest) = '/' :: lowerCase rest := by
  have hslash : lowerChar '/' = ['/'] := by decide
  rw [lowerCase, List.flatMap_cons, hslash]
  rfl

/-- What is protected below a first component is protected with it, but for `scripts`. -/
theorem protected_of_rest {first rest : List Char} (h : isProtectedPath rest = true)
    (hscripts : ¬"scripts/".toList <+: lowerCase rest) :
    isProtectedPath (first ++ '/' :: rest) = true := by
  rw [isProtectedPath_iff] at h ⊢
  have hlower : lowerCase (first ++ '/' :: rest) = lowerCase first ++ '/' :: lowerCase rest := by
    rw [lowerCase_append, lowerCase_slash]
  have hsuffix : ('/' :: lowerCase rest) <:+ lowerCase (first ++ '/' :: rest) := by
    rw [hlower]
    exact List.suffix_append _ _
  have hrest : lowerCase rest <:+ lowerCase (first ++ '/' :: rest) :=
    (List.suffix_cons '/' _).trans hsuffix
  rcases h with ⟨name, hname, heq | h⟩ | h | h | h | ⟨ending, hending, h⟩
  · exact Or.inl ⟨name, hname, Or.inr (heq ▸ hsuffix)⟩
  · exact Or.inl ⟨name, hname, Or.inr (h.trans hrest)⟩
  · exact absurd h hscripts
  · -- the dot follows the slash
    refine Or.inr (Or.inr (Or.inr (Or.inl ?_)))
    obtain ⟨cs, hcs⟩ : ∃ cs, lowerCase rest = '.' :: cs := by
      cases hl : lowerCase rest with
      | nil =>
        rw [hl] at h
        exact nomatch h
      | cons c cs =>
        rw [hl, List.head?_cons, Option.some.injEq] at h
        exact ⟨cs, by rw [h]⟩
    rw [hlower, hcs]
    exact ⟨lowerCase first, cs, by simp⟩
  · exact Or.inr (Or.inr (Or.inr (Or.inl (h.trans hrest.isInfix))))
  · exact Or.inr (Or.inr (Or.inr (Or.inr ⟨ending, hending, h.trans hrest⟩)))

/-- A suffix that does not begin with a character is one without it. -/
theorem suffix_of_cons {c d : Char} {part cs : List Char} (hne : d ≠ c)
    (h : (d :: part) <:+ c :: cs) : (d :: part) <:+ cs := by
  rcases List.suffix_cons_iff.mp h with heq | h
  · exact absurd (List.cons.inj heq).1 hne
  · exact h

/-- What is protected with `a/` or `b/` is protected without. -/
theorem protected_of_side {side : Char} {rest : List Char} (hside : side = 'a' ∨ side = 'b')
    (h : isProtectedPath (side :: '/' :: rest) = true) : isProtectedPath rest = true := by
  have hlower : lowerCase (side :: '/' :: rest) = side :: '/' :: lowerCase rest := by
    have hchar : lowerChar side = [side] := by
      rcases hside with rfl | rfl <;> decide
    rw [← lowerCase_slash, lowerCase, List.flatMap_cons, hchar]
    rfl
  have hnot : ∀ name ∈ protectedNames, ∀ cs, name.toList ≠ side :: '/' :: cs := by
    have hall : ∀ name ∈ protectedNames, name.toList[1]? ≠ some '/' := by decide
    intro name hname cs heq
    exact hall name hname (by rw [heq]; rfl)
  have hslash : '/' ≠ side := by
    rcases hside with rfl | rfl <;> decide
  have hdot : '.' ≠ side := by
    rcases hside with rfl | rfl <;> decide
  have hs : 's' ≠ side := by
    rcases hside with rfl | rfl <;> decide
  rw [isProtectedPath_iff, hlower] at h
  rw [isProtectedPath_iff]
  rcases h with ⟨name, hname, heq | h⟩ | h | h | h | ⟨ending, hending, h⟩
  · exact absurd heq.symm (hnot name hname _)
  · rcases List.suffix_cons_iff.mp (suffix_of_cons hslash h) with heq | h
    · exact Or.inl ⟨name, hname, Or.inl (List.cons.inj heq).2.symm⟩
    · exact Or.inl ⟨name, hname, Or.inr h⟩
  · obtain ⟨more, hmore⟩ := h
    exact absurd (List.cons.inj hmore).1 hs
  · exact absurd (Option.some.inj h).symm hdot
  · rcases List.infix_cons_iff.mp h with ⟨more, hmore⟩ | h
    · exact absurd (List.cons.inj hmore).1 hslash
    · rcases List.infix_cons_iff.mp h with ⟨more, hmore⟩ | h
      · -- the dot is the first character
        refine Or.inr (Or.inr (Or.inl ?_))
        rw [← (List.cons.inj hmore).2]
        rfl
      · exact Or.inr (Or.inr (Or.inr (Or.inl h)))
  · obtain ⟨tail, htail⟩ : ∃ tail, ending.toList = '.' :: tail := by
      have hall : ∀ ending ∈ keyEndings, ending.toList.head? = some '.' := by decide
      have hhead := hall ending hending
      cases he : ending.toList with
      | nil =>
        rw [he] at hhead
        exact nomatch hhead
      | cons c cs =>
        rw [he, List.head?_cons, Option.some.injEq] at hhead
        exact ⟨cs, by rw [hhead]⟩
    rw [htail] at h
    have hslash : '.' ≠ '/' := by decide
    exact Or.inr (Or.inr (Or.inr (Or.inr ⟨ending, hending,
      htail ▸ suffix_of_cons hslash (suffix_of_cons hdot h)⟩)))

/-! ## What the guard sees of a plain header -/

theorem rest?_append (lead : String) (cs : List Char) : rest? lead (lead.toList ++ cs) = some cs := by
  rw [rest?, if_pos (List.isPrefixOf_iff_prefix.mpr (List.prefix_append _ _)), List.drop_left]

theorem rest?_some {lead : String} {cs rest : List Char} (h : rest? lead cs = some rest) :
    cs = lead.toList ++ rest := by
  unfold rest? at h
  split at h
  · next hlead =>
    obtain ⟨more, rfl⟩ := List.isPrefixOf_iff_prefix.mp hlead
    rw [List.drop_left, Option.some.injEq] at h
    rw [h]
  · exact nomatch h

theorem not_lineTerminator {cs : List Char} (h : cs.any isLineTerminator = false) :
    ∀ c ∈ cs, isLineTerminator c = false := fun c hc =>
  Bool.eq_false_iff.mpr (List.any_eq_false.mp h c hc)

theorem dots?_of_forall {cs : List Char} (hne : cs ≠ []) (h : ∀ c ∈ cs, isLineTerminator c = false) :
    dots? cs = some cs := by
  refine if_pos ⟨hne, List.all_eq_true.mpr ?_⟩
  intro c hc
  rw [h c hc]
  rfl

theorem cutAt_of_not_mem {path : List Char} (hne : path ≠ []) (hspace : ' ' ∉ path)
    {rest : List Char} (hrest : rest ≠ []) :
    cutAt " b/".toList (path ++ (" b/".toList ++ rest)) = some (path, rest) := by
  induction path with
  | nil => exact absurd rfl hne
  | cons c cs ih =>
    rw [List.cons_append, cutAt]
    cases cs with
    | nil =>
      have hlen : " b/".toList.length < (" b/".toList ++ rest).length := by
        have := List.length_pos_iff.mpr hrest
        rw [List.length_append]
        omega
      rw [List.nil_append, if_pos ⟨List.isPrefixOf_iff_prefix.mpr (List.prefix_append _ _), hlen⟩,
        List.drop_left]
    | cons d ds =>
      have hd : ' ' ≠ d := fun h => hspace (h ▸ List.mem_cons_of_mem _ (List.mem_cons_self ..))
      have hno : ¬(" b/".toList.isPrefixOf (d :: ds ++ (" b/".toList ++ rest)) = true ∧
          " b/".toList.length < (d :: ds ++ (" b/".toList ++ rest)).length) := by
        intro hgiven
        obtain ⟨hlead, -⟩ := hgiven
        obtain ⟨more, hmore⟩ := List.isPrefixOf_iff_prefix.mp hlead
        exact hd (List.cons.inj hmore).1
      rw [if_neg hno, ih (List.cons_ne_nil d ds) fun h => hspace (List.mem_cons_of_mem _ h),
        Option.map_some]

theorem rest?_tab {lead : String} {side : Char} (hlead : lead.toList = [side, '/'])
    {path tab : List Char} (hne : path ≠ []) (htab : tab = [] ∨ tab = ['\t']) :
    rest? lead (path ++ tab) = (rest? lead path).map fun rest => rest ++ tab := by
  cases hrest : rest? lead path with
  | some rest =>
    rw [rest?_some hrest, List.append_assoc, rest?_append, Option.map_some]
  | none =>
    cases hmore : rest? lead (path ++ tab) with
    | none => rfl
    | some more =>
      -- the lead would end in the tab
      have heq := rest?_some hmore
      rw [hlead] at heq
      match path, hne with
      | [c], _ =>
        have hslash : tab = '/' :: more := (List.cons.inj heq).2
        rcases htab with rfl | rfl
        · exact nomatch hslash
        · exact absurd (List.cons.inj hslash).1 (by decide)
      | c :: d :: ds, _ =>
        obtain ⟨hc, hds⟩ := List.cons.inj heq
        have hd : d = '/' := (List.cons.inj hds).1
        have hfound := rest?_append lead ds
        rw [hlead, ← hc, ← hd] at hfound
        exact nomatch hrest.symm.trans hfound

theorem plain_of_side {side : Char} {rest : List Char} (h : PlainPath (side :: '/' :: rest))
    (hside : side ≠ '/') : PlainPath rest := by
  rcases h.cut with ⟨hslash, -⟩ | ⟨first, rest', heq, hslash, -, hrest⟩
  · exact absurd (List.mem_cons_of_mem _ (List.mem_cons_self ..)) hslash
  · cases first with
    | nil => exact absurd (List.cons.inj heq).1 hside
    | cons c cs =>
      obtain ⟨-, heq⟩ := List.cons.inj heq
      cases cs with
      | nil => exact (List.cons.inj heq).2 ▸ hrest
      | cons d ds =>
        have hd : '/' = d := (List.cons.inj heq).1
        exact absurd (List.mem_cons_of_mem _ (hd ▸ List.mem_cons_self ..)) hslash

/-- The path that the guard takes from a marker line. -/
theorem withoutSide_plain {path tab : List Char} (h : PlainPath path)
    (htab : tab = [] ∨ tab = ['\t']) :
    ∃ seen, withoutSide (path ++ tab) = some (seen ++ tab) ∧ PlainPath seen ∧
      (seen = path ∧ rest? "a/" path = none ∧ rest? "b/" path = none ∨
        ∃ side, (side = 'a' ∨ side = 'b') ∧ path = side :: '/' :: seen) := by
  have hdots : ∀ {seen : List Char}, PlainPath seen → dots? (seen ++ tab) = some (seen ++ tab) := by
    intro seen hseen
    refine dots?_of_forall ?_ ?_
    · obtain ⟨c, cs, rfl, -⟩ := hseen.head
      exact List.cons_ne_nil _ _
    · intro c hc
      rcases List.mem_append.mp hc with hc | hc
      · exact (hseen.chars c hc).2.2.2
      · rcases htab with rfl | rfl
        · exact absurd hc List.not_mem_nil
        · rw [List.mem_singleton.mp hc]
          decide
  have hne : path ≠ [] := (plain_ne h).1
  have ha : rest? "a/" (path ++ tab) = (rest? "a/" path).map fun rest => rest ++ tab :=
    rest?_tab rfl hne htab
  have hb : rest? "b/" (path ++ tab) = (rest? "b/" path).map fun rest => rest ++ tab :=
    rest?_tab rfl hne htab
  unfold withoutSide
  rw [ha, hb]
  cases hpa : rest? "a/" path with
  | some rest =>
    have hpath : path = 'a' :: '/' :: rest := rest?_some hpa
    have hrest : PlainPath rest := plain_of_side (hpath ▸ h) (by decide)
    refine ⟨rest, ?_, hrest, Or.inr ⟨'a', Or.inl rfl, hpath⟩⟩
    show ((dots? (rest ++ tab)).orElse fun _ => dots? (path ++ tab)) = some (rest ++ tab)
    rw [hdots hrest]
    rfl
  | none =>
    cases hpb : rest? "b/" path with
    | some rest =>
      have hpath : path = 'b' :: '/' :: rest := rest?_some hpb
      have hrest : PlainPath rest := plain_of_side (hpath ▸ h) (by decide)
      refine ⟨rest, ?_, hrest, Or.inr ⟨'b', Or.inr rfl, hpath⟩⟩
      show ((dots? (rest ++ tab)).orElse fun _ => dots? (path ++ tab)) = some (rest ++ tab)
      rw [hdots hrest]
      rfl
    | none => exact ⟨path, hdots h, h, Or.inl ⟨rfl, rfl, rfl⟩⟩

theorem dropComponent_cons {side : Char} {rest : List Char} (hside : side ≠ '/') :
    dropComponent (side :: '/' :: rest) = rest := by
  rw [dropComponent, if_pos (List.mem_cons_of_mem _ (List.mem_cons_self ..)), List.dropWhile_cons,
    if_pos (decide_eq_true hside), List.dropWhile_cons, if_neg (by decide), List.tail_cons]

theorem dropComponent_append {first rest : List Char} (hfirst : '/' ∉ first) :
    dropComponent (first ++ '/' :: rest) = rest := by
  have hall : ∀ c ∈ first, decide (c ≠ '/') = true :=
    fun c hc => decide_eq_true fun h => hfirst (h ▸ hc)
  rw [dropComponent, if_pos (List.mem_append_right _ (List.mem_cons_self ..)),
    List.dropWhile_append_of_pos hall, List.dropWhile_cons, if_neg (by decide), List.tail_cons]

theorem plain_chars {kind : HeaderKind} {field path : List Char} (h : PlainlyNames kind field path) :
    ∀ c ∈ field, isLineTerminator c = false := by
  intro c hc
  cases h with
  | marker hkind hpath hdate hside htab =>
    rcases List.mem_append.mp hc with hc | hc
    · exact (hpath.chars c hc).2.2.2
    · rcases htab with rfl | rfl
      · exact absurd hc List.not_mem_nil
      · rw [List.mem_singleton.mp hc]
        decide
  | diffGit hpath hspace =>
    have hsides : ∀ c ∈ "a/".toList ++ " b/".toList, isLineTerminator c = false :=
      not_lineTerminator (by decide)
    rcases List.mem_append.mp hc with hc | hc
    · rcases List.mem_append.mp hc with hc | hc
      · rcases List.mem_append.mp hc with hc | hc
        · exact hsides c (List.mem_append_left _ hc)
        · exact (hpath.chars c hc).2.2.2
      · exact hsides c (List.mem_append_right _ hc)
    · exact (hpath.chars c hc).2.2.2
  | rename hkind hpath => exact (hpath.chars c hc).2.2.2

/-- A plain header that names a protected file has the guard see a protected path. -/
theorem sees_plain {kind : HeaderKind} {field path file : List Char}
    (h : PlainlyNames kind field path)
    (hfile : file = path ∨ (kind = .old ∨ kind = .new) ∧ file = dropComponent path)
    (hprot : isProtectedPath file = true) :
    ∃ seen, PlainPath seen ∧ String.ofList seen ∈ linePaths (kind.marker.toList ++ field) ∧
      isProtectedPath seen = true := by
  cases h with
  | @marker _ _ tab hkind hpath hdate hside htab =>
    obtain ⟨seen, hseen, hplain, hcases⟩ := withoutSide_plain hpath htab
    refine ⟨seen, hplain, ?_, ?_⟩
    · have hgit : gitLine (kind.marker.toList ++ (path ++ tab)) = none := by
        rcases hkind with rfl | rfl <;> rfl
      have hmarker : markerLine (kind.marker.toList ++ (path ++ tab)) = some (seen ++ tab) := by
        rw [← hseen]
        rcases hkind with rfl | rfl <;> rfl
      rw [linePaths, hgit]
      dsimp only
      rw [hmarker, ← stripPatchPath_plain hplain htab]
      exact List.mem_singleton_self _
    · rcases hcases with ⟨rfl, ha, hb⟩ | ⟨side, hletter, rfl⟩
      · -- no side is taken off, so only a directory `scripts` could have been hidden
        rcases hfile with rfl | ⟨-, rfl⟩
        · exact hprot
        · have hscripts : ¬"scripts/".toList <+: lowerCase (dropComponent seen) := by
            rcases hside with h | h | h
            · rw [ha] at h
              exact nomatch h
            · rw [hb] at h
              exact nomatch h
            · rw [← List.isPrefixOf_iff_prefix, h]
              exact Bool.false_ne_true
          rcases hpath.cut with ⟨hslash, -⟩ | ⟨first, rest, rfl, hfirst, -, -⟩
          · rw [dropComponent, if_neg hslash] at hprot
            exact hprot
          · rw [dropComponent_append hfirst] at hprot hscripts
            exact protected_of_rest hprot hscripts
      · have hslash : side ≠ '/' := by
          rcases hletter with rfl | rfl <;> decide
        rcases hfile with rfl | ⟨-, rfl⟩
        · exact protected_of_side hletter hprot
        · rw [dropComponent_cons hslash] at hprot
          exact hprot
  | diffGit hpath hspace =>
    have hkind : file = path := by
      rcases hfile with h | ⟨h | h, -⟩
      · exact h
      · exact nomatch h
      · exact nomatch h
    have hne := (plain_ne hpath).1
    refine ⟨path, hpath, ?_, hkind ▸ hprot⟩
    have hgit : gitLine (HeaderKind.diffGit.marker.toList ++
        ("a/".toList ++ path ++ " b/".toList ++ path)) = some (path, path) := by
      have hlead : HeaderKind.diffGit.marker.toList ++ ("a/".toList ++ path ++ " b/".toList ++ path)
          = "diff --git a/".toList ++ (path ++ (" b/".toList ++ path)) := by
        rw [List.append_assoc, List.append_assoc, ← List.append_assoc]
        rfl
      have hdots : dots? (path ++ (" b/".toList ++ path)) = some (path ++ (" b/".toList ++ path)) := by
        refine dots?_of_forall (List.append_ne_nil_of_left_ne_nil hne _) ?_
        intro c hc
        rcases List.mem_append.mp hc with hc | hc
        · exact (hpath.chars c hc).2.2.2
        · rcases List.mem_append.mp hc with hc | hc
          · exact not_lineTerminator (by decide) c hc
          · exact (hpath.chars c hc).2.2.2
      rw [gitLine, hlead, rest?_append, Option.bind_some, hdots, Option.bind_some,
        cutAt_of_not_mem hne hspace hne]
    have hstrip := stripPatchPath_plain hpath (Or.inl rfl)
    rw [List.append_nil] at hstrip
    rw [linePaths, hgit]
    dsimp only
    rw [hstrip]
    exact List.mem_cons_self ..
  | rename hkind hpath =>
    have hsame : file = field := by
      rcases hfile with h | ⟨h | h, -⟩
      · exact h
      · rcases hkind with hk | hk <;> exact nomatch hk.symm.trans h
      · rcases hkind with hk | hk <;> exact nomatch hk.symm.trans h
    refine ⟨field, hpath, ?_, hsame ▸ hprot⟩
    have hgit : gitLine (kind.marker.toList ++ field) = none := by
      rcases hkind with rfl | rfl <;> rfl
    have hmarker : markerLine (kind.marker.toList ++ field) = none := by
      rcases hkind with rfl | rfl <;> rfl
    have hrename : renameLine (kind.marker.toList ++ field) = dots? field := by
      rcases hkind with rfl | rfl <;> rfl
    have hstrip := stripPatchPath_plain hpath (Or.inl rfl)
    rw [List.append_nil] at hstrip
    rw [linePaths, hgit]
    dsimp only
    rw [hmarker]
    dsimp only
    rw [hrename, dots?_of_forall (plain_ne hpath).1 fun c hc => (hpath.chars c hc).2.2.2,
      Option.toList_some, List.map_singleton, hstrip]
    exact List.mem_singleton_self _

/-! ## The condition -/

/-- A quoted name, from behind its quote: escapes, and octal bytes. -/
def unquote : List Char → List Char
  | [] => []
  | '"' :: _ => []
  | '\\' :: a :: b :: c :: cs =>
    if a.isDigit && b.isDigit && c.isDigit then
      Char.ofNat (Nat.ofDigitChars 8 [a, b, c] 0) :: unquote cs
    else
      let escaped := if a = 't' then '\t' else if a = 'n' then '\n' else a
      escaped :: unquote (b :: c :: cs)
  | c :: cs => c :: unquote cs

/-- The name that begins a field: a quoted one, or one up to a tab. -/
def nameOf (field : List Char) : List Char :=
  match field with
  | '"' :: cs => unquote cs
  | cs => cs.takeWhile fun c => c ≠ '\t'

/-- The file of a header under `-p1`. -/
def fileOf (kind : HeaderKind) (field : List Char) : Option (List Char) :=
  match kind with
  | .old | .new =>
    if nameOf field = "/dev/null".toList then none else some (dropComponent (nameOf field))
  | .diffGit =>
    match field.splitOn ' ' with
    | [a, b] => if dropComponent a = dropComponent b then some (dropComponent a) else none
    | _ => none
  | .renameFrom | .renameTo | .copyFrom | .copyTo => some (nameOf field)

/-- The headers of a patch, where no line of a hunk looks like one. -/
def gitHeaders (patch : String) : List Header :=
  (patch.toList.splitOn '\n').dropLast.flatMap fun piece =>
    [.old, .new, .diffGit, .renameFrom, .renameTo, .copyFrom, .copyTo].filterMap fun kind =>
      (rest? kind.marker (dropReturn piece)).bind fun field =>
        (fileOf kind field).map fun file => ⟨kind, field, file⟩

theorem stands_of_piece {piece cs : List Char} (h : piece ∈ (cs.splitOn '\n').dropLast) :
    ∃ before after, cs = before ++ piece ++ '\n' :: after ∧
      (before = [] ∨ ∃ lines, before = lines ++ ['\n']) := by
  by_cases hfeed : '\n' ∈ cs
  · obtain ⟨first, rest, hcs, hfirst⟩ := List.eq_append_cons_of_mem hfeed
    have hsplit : cs.splitOn '\n' = first :: rest.splitOn '\n' := by
      rw [hcs, List.splitOn_append_cons_self_of_not_mem hfirst]
    rw [hsplit, List.dropLast_cons_of_ne_nil (List.splitOn_ne_nil _ _)] at h
    rcases List.mem_cons.mp h with rfl | h
    · exact ⟨[], rest, hcs, Or.inl rfl⟩
    · obtain ⟨before, after, hrest, hbefore⟩ := stands_of_piece h
      refine ⟨first ++ '\n' :: before, after, ?_, Or.inr ?_⟩
      · rw [hcs, hrest]
        simp
      · rcases hbefore with rfl | ⟨lines, rfl⟩
        · exact ⟨first, rfl⟩
        · exact ⟨first ++ '\n' :: lines, by simp⟩
  · rw [List.splitOn_eq_singleton hfeed] at h
    exact absurd h List.not_mem_nil
termination_by cs.length
decreasing_by
  rw [hcs, List.length_append, List.length_cons]
  omega

theorem nameOf_plain {path tab : List Char} (h : PlainPath path) (htab : tab = [] ∨ tab = ['\t']) :
    nameOf (path ++ tab) = path := by
  obtain ⟨c, cs, rfl, -⟩ := h.head
  have hquote : c ≠ '"' := (h.chars c (List.mem_cons_self ..)).2.1
  have hchars : ∀ d ∈ c :: cs, decide (d ≠ '\t') = true :=
    fun d hd => decide_eq_true (h.chars d hd).1
  have hname : nameOf (c :: cs ++ tab) = (c :: cs ++ tab).takeWhile fun d => d ≠ '\t' := by
    rw [nameOf]
    intro cs' heq
    exact hquote (List.cons.inj heq).1
  rw [hname, List.takeWhile_append_of_pos hchars]
  rcases htab with rfl | rfl
  · exact List.append_nil _
  · rw [List.takeWhile_cons, if_neg (by decide), List.append_nil]

theorem fileOf_plain {kind : HeaderKind} {field path file : List Char}
    (h : PlainlyNames kind field path) (hfile : fileOf kind field = some file) :
    file = path ∨ (kind = .old ∨ kind = .new) ∧ file = dropComponent path := by
  cases h with
  | marker hkind hpath hdate hside htab =>
    refine Or.inr ⟨hkind, ?_⟩
    rcases hkind with rfl | rfl <;>
    · rw [fileOf, nameOf_plain hpath htab, if_neg (plain_ne hpath).2, Option.some.injEq] at hfile
      exact hfile.symm
  | diffGit hpath hspace =>
    have hsplit : ("a/".toList ++ path ++ " b/".toList ++ path).splitOn ' '
        = ["a/".toList ++ path, "b/".toList ++ path] := by
      have hleft : ' ' ∉ "a/".toList ++ path := by
        rw [List.mem_append, not_or]
        exact ⟨by decide, hspace⟩
      have hright : ' ' ∉ "b/".toList ++ path := by
        rw [List.mem_append, not_or]
        exact ⟨by decide, hspace⟩
      have hcut := List.splitOn_append_cons_self_of_not_mem hleft ("b/".toList ++ path)
      rw [List.splitOn_eq_singleton hright] at hcut
      rw [← hcut, List.append_assoc]
      rfl
    have ha : dropComponent ("a/".toList ++ path) = path := dropComponent_cons (by decide)
    have hb : dropComponent ("b/".toList ++ path) = path := dropComponent_cons (by decide)
    rw [fileOf, hsplit] at hfile
    dsimp only at hfile
    rw [ha, hb, if_pos rfl, Option.some.injEq] at hfile
    exact Or.inl hfile.symm
  | rename hkind hpath =>
    have hname := nameOf_plain hpath (Or.inl rfl)
    rw [List.append_nil] at hname
    rcases hkind with rfl | rfl <;>
    · rw [fileOf, hname, Option.some.injEq] at hfile
      exact Or.inl hfile.symm

theorem gitApply_gitHeaders : GitApply gitHeaders where
  stands patch h hh := by
    obtain ⟨piece, hpiece, hh⟩ := List.mem_flatMap.mp hh
    obtain ⟨kind, -, hh⟩ := List.mem_filterMap.mp hh
    obtain ⟨field, hfield, hh⟩ := Option.bind_eq_some_iff.mp hh
    obtain ⟨file, -, rfl⟩ := Option.map_eq_some_iff.mp hh
    obtain ⟨before, after, htext, hbefore⟩ := stands_of_piece hpiece
    have hline : dropReturn piece = kind.marker.toList ++ field := rest?_some hfield
    rw [dropReturn] at hline
    split at hline
    · next hlast =>
      have hreturn : piece = piece.dropLast ++ ['\r'] :=
        (List.dropLast_append_getLast? _ hlast).symm
      refine ⟨before, ['\r', '\n'], after, ?_, hbefore, Or.inr rfl⟩
      rw [htext, ← hline]
      nth_rewrite 1 [hreturn]
      simp
    · refine ⟨before, ['\n'], after, ?_, hbefore, Or.inl rfl⟩
      rw [htext, hline]
      simp
  strips patch h hh path hpath := by
    obtain ⟨piece, -, hh⟩ := List.mem_flatMap.mp hh
    obtain ⟨kind, -, hh⟩ := List.mem_filterMap.mp hh
    obtain ⟨field, -, hh⟩ := Option.bind_eq_some_iff.mp hh
    obtain ⟨file, hfile, rfl⟩ := Option.map_eq_some_iff.mp hh
    exact fileOf_plain hpath hfile

/-- A patch of one line of the file. -/
def oneLinePatch (old new : String) : String :=
  "--- " ++ old ++ "\n+++ " ++ new ++ "\n@@ -1 +1 @@\n-old\n+new\n"

/-- The guard accepts the patch, and git touches a protected path through it. -/
def acceptedUnsafe (patch : String) : Bool :=
  decide (validateRepairPatch patch = .ok ()) &&
    (gitHeaders patch).any fun h => isProtectedPath h.file

end Kovael.Repair
