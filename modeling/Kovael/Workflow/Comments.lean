import Kovael.Workflow.FrontMatter

/-!
# Comments and blank lines of the front matter

The loop of `parseYamlSubset` skips a line that is blank or a comment. Besides the
loop only `peekNext` looks at such a line, when a `key:` with nothing behind it decides
between a map and a list, and its own notion of a line to skip is narrower: a comment
without an indent is none. So a line that the loop skips can be inserted anywhere
except between a key and the list below it, unless `peekNext` skips the line as well
(`Misread`); there the list is read as a map and its first item is refused.

Mirroring notes vs the TS:
- What is compared is the value, or that there is none: the number in an error is that
  of its line.
-/

namespace Kovael.Workflow

open Js (isWhitespace)

/-- The lines of a text. -/
def linesOf (src : List Char) : List (List Char) := (src.filter (· ≠ '\r')).splitOn '\n'

/-- The value of a text, if it is accepted. -/
def accepted? (src : List Char) : Option Value := (parseYamlSubset src).toOption

/-- The line is not blank to `peekNext`. -/
def isPeeked (line : List Char) : Bool := !(trimmed (stripComment line)).isEmpty

/-- The indent of the list that begins below a key, if one does. -/
def listBelow? (following : List (List Char)) : Option Nat :=
  (peekNext following).bind fun next => if isListItem next then some (indentOf next) else none

/-- `key:` with nothing behind it. -/
def isOpenKey (content : List Char) : Bool :=
  !(['-', ' '].isPrefixOf content) &&
    match content.dropWhile (· ≠ ':') with
    | [] => false
    | _ :: behind => trimmed behind = []

/-- The line, without its comment and its indent. -/
def contentOf (line : List Char) : List Char :=
  (stripComment line).drop (indentOf (stripComment line))

/-- The line is one of the loop's that opens a map or a list. -/
def opensBelow (line : List Char) : Bool := !isSkipped (stripComment line) && isOpenKey (contentOf line)

/-- Inserted between `pre` and `post`, the line comes between a key and the list below
it, and `peekNext` does not skip it. -/
def Misread (pre : List (List Char)) (line : List Char) (post : List (List Char)) : Prop :=
  isPeeked line = true ∧ (listBelow? post).isSome = true ∧
    ∃ before key blanks, pre = before ++ key :: blanks ∧ opensBelow key = true ∧
      ∀ l ∈ blanks, isPeeked l = false

/-- The list below begins with an item that the loop takes for one, too. -/
def itemBelow (post : List (List Char)) : Prop :=
  ∃ next, peekNext post = some next ∧ ['-', ' '].isPrefixOf (contentOf next) = true

/-! ## Skipped lines -/

theorem dropWhile_reverse_head {cs : List Char} {c : Char} (hc : isWhitespace c = false) :
    ((c :: cs).reverse.dropWhile isWhitespace).reverse.head? = some c := by
  rw [List.reverse_cons, List.dropWhile_append]
  split
  next =>
    rw [List.dropWhile_cons_of_neg (by rw [hc]; exact Bool.false_ne_true)]
    rfl
  next => rw [List.reverse_append, List.reverse_singleton, List.singleton_append, List.head?_cons]

/-- Trimming leaves the first character that is no white space. -/
theorem head?_trimmed (cs : List Char) : (trimmed cs).head? = (cs.dropWhile isWhitespace).head? := by
  rw [trimmed]
  cases h : cs.dropWhile isWhitespace with
  | nil => rfl
  | cons c rest =>
    have hc : isWhitespace c = false := by
      have hhead := List.head?_dropWhile_not isWhitespace cs
      rw [h] at hhead
      simpa using hhead
    exact dropWhile_reverse_head hc

theorem isEmpty_trimmed (cs : List Char) :
    (trimmed cs).isEmpty = (cs.dropWhile isWhitespace).isEmpty := by
  have hhead : ∀ xs : List Char, xs.isEmpty = xs.head?.isNone := by
    intro xs
    cases xs <;> rfl
  rw [hhead, hhead, head?_trimmed]

theorem isSkipped_eq (cs : List Char) :
    isSkipped cs = ((cs.dropWhile isWhitespace).isEmpty ||
      (cs.dropWhile isWhitespace).head? = some '#') := by
  rw [isSkipped, isEmpty_trimmed, head?_trimmed]

/-- A line that is blank or a comment is skipped. -/
theorem isSkipped_stripComment {line : List Char} (h : isSkipped line = true) :
    isSkipped (stripComment line) = true := by
  induction line with
  | nil => rfl
  | cons c cs ih =>
    rw [stripComment]
    split
    next => rfl
    next =>
      rw [isSkipped_eq] at h ⊢
      cases hc : isWhitespace c with
      | true =>
        rw [List.dropWhile_cons_of_pos hc] at h ⊢
        rw [← isSkipped_eq] at h ⊢
        exact ih h
      | false =>
        rw [List.dropWhile_cons_of_neg (by rw [hc]; exact Bool.false_ne_true)] at h ⊢
        exact h

theorem isSkipped_of_not_isPeeked {line : List Char} (h : isPeeked line = false) :
    isSkipped (stripComment line) = true := by
  rw [isPeeked, Bool.not_eq_false'] at h
  rw [isSkipped, h, Bool.true_or]

/-- A line that is blank or a comment is no list item. -/
theorem isListItem_of_isSkipped {line : List Char} (h : isSkipped line = true) :
    isListItem line = false := by
  rw [isSkipped_eq] at h
  rw [isListItem]
  cases hline : line.dropWhile isWhitespace with
  | nil => rfl
  | cons c cs =>
    rw [hline] at h
    have hc : c = '#' := by simpa using h
    rw [hc]
    rfl

/-! ## What a line of the loop looks at -/

theorem peekNext_append (pre post : List (List Char)) :
    peekNext (pre ++ post) = (peekNext pre).or (peekNext post) := List.find?_append

theorem peekNext_eq_none_iff (lines : List (List Char)) :
    peekNext lines = none ↔ ∀ l ∈ lines, isPeeked l = false := by
  rw [peekNext, List.find?_eq_none]
  exact forall_congr' fun l => forall_congr' fun _ => iff_of_eq (Bool.not_eq_true _)

theorem peekNext_cons (line : List Char) (post : List (List Char)) :
    peekNext (line :: post) = if isPeeked line = true then some line else peekNext post := by
  rw [peekNext, List.find?_cons]
  rw [isPeeked]
  cases (trimmed (stripComment line)).isEmpty with
  | true => rfl
  | false => rfl

/-- A skipped line does not change what is below a key, unless it is misread. -/
theorem listBelow?_insert {pre post : List (List Char)} {line : List Char}
    (hline : isSkipped line = true)
    (h : isPeeked line = true → (listBelow? post).isSome = true →
      ∃ l ∈ pre, isPeeked l = true) :
    listBelow? (pre ++ line :: post) = listBelow? (pre ++ post) := by
  rw [listBelow?, listBelow?, peekNext_append, peekNext_append]
  cases hpre : peekNext pre with
  | some next => rfl
  | none =>
    rw [Option.none_or, Option.none_or, peekNext_cons]
    by_cases hpeeked : isPeeked line = true
    · rw [if_pos hpeeked, Option.bind_some, if_neg]
      · by_cases hsome : (listBelow? post).isSome = true
        · obtain ⟨l, hl, hlpeeked⟩ := h hpeeked hsome
          rw [(peekNext_eq_none_iff pre).mp hpre l hl] at hlpeeked
          cases hlpeeked
        · rw [Bool.not_eq_true, Option.isSome_eq_false_iff, Option.isNone_iff_eq_none] at hsome
          exact hsome.symm
      · rw [isListItem_of_isSkipped hline]
        exact Bool.false_ne_true
    · rw [if_neg hpeeked]

theorem assign_pendingList (p : Parser) (parent : List Value.Slot) (key : String) (v : Value) :
    (p.assign parent key v).1.pendingList = p.pendingList := by
  rw [Parser.assign]
  cases ((p.root.follow? parent).getD .null).slotOf key v with
  | none => rfl
  | some slot => rfl

/-- A key without a list below it. -/
theorem openKey_of_none (p : Parser) (indent : Nat) (parent : List Value.Slot) (key : String)
    {following : List (List Char)} (h : listBelow? following = none) :
    p.openKey indent parent key following =
      { (p.assign parent key .emptyMap).1 with
        stack := ((p.assign parent key .emptyMap).2.map fun path => ⟨indent, path⟩).toList ++
          (p.assign parent key .emptyMap).1.stack } := by
  rw [Parser.openKey]
  rw [listBelow?] at h
  cases hnext : peekNext following with
  | none => rfl
  | some next =>
    rw [hnext, Option.bind_some] at h
    by_cases hitem : isListItem next = true
    · rw [if_pos hitem] at h
      cases h
    · dsimp only
      rw [if_neg hitem]

/-- A key with a list below it. -/
theorem openKey_of_some (p : Parser) (indent : Nat) (parent : List Value.Slot) (key : String)
    {following : List (List Char)} {below : Nat} (h : listBelow? following = some below) :
    p.openKey indent parent key following =
      { (p.assign parent key (.list [])).1 with
        pendingList := (p.assign parent key (.list [])).2.map fun path => ⟨below, path⟩ } := by
  rw [Parser.openKey]
  rw [listBelow?] at h
  cases hnext : peekNext following with
  | none =>
    rw [hnext] at h
    cases h
  | some next =>
    rw [hnext, Option.bind_some] at h
    by_cases hitem : isListItem next = true
    · rw [if_pos hitem, Option.some.injEq] at h
      dsimp only
      rw [if_pos hitem, h]
    · rw [if_neg hitem] at h
      cases h

theorem openKey_congr (p : Parser) (indent : Nat) (parent : List Value.Slot) (key : String)
    {following following' : List (List Char)} (h : listBelow? following = listBelow? following') :
    p.openKey indent parent key following = p.openKey indent parent key following' := by
  cases hbelow : listBelow? following' with
  | none => rw [openKey_of_none _ _ _ _ (h.trans hbelow), openKey_of_none _ _ _ _ hbelow]
  | some below =>
    rw [openKey_of_some _ _ _ _ (h.trans hbelow), openKey_of_some _ _ _ _ hbelow]

/-- A line depends on its number for its error only, and on the lines after it for what
is below an open key. -/
theorem line_congr (p : Parser) (n n' indent : Nat) {content : List Char}
    {following following' : List (List Char)}
    (h : isOpenKey content = true → listBelow? following = listBelow? following') :
    (p.line n indent content following).toOption = (p.line n' indent content following').toOption := by
  unfold Parser.line
  by_cases hitem : ['-', ' '].isPrefixOf content = true
  · rw [if_pos hitem, if_pos hitem]
    dsimp only
    cases p.pendingList with
    | none => rfl
    | some pending =>
      dsimp only
      split
      next => rfl
      next => rfl
  · rw [if_neg hitem, if_neg hitem]
    rw [isOpenKey, Bool.not_eq_true _ |>.mp hitem, Bool.not_false, Bool.true_and] at h
    cases hcolon : content.dropWhile (· ≠ ':') with
    | nil => rfl
    | cons c behind =>
      rw [hcolon] at h
      dsimp only at h ⊢
      by_cases hrest : trimmed behind = []
      · rw [if_pos hrest, if_pos hrest, openKey_congr _ _ _ _ (h (decide_eq_true hrest))]
      · rw [if_neg hrest, if_neg hrest]

/-! ## Runs of the loop -/

theorem parseLines_skip {line : List Char} (h : isSkipped (stripComment line) = true) (n : Nat)
    (following : List (List Char)) (p : Parser) :
    parseLines n (line :: following) p = parseLines (n + 1) following p := by
  rw [parseLines, if_pos h]

/-- A line of the loop, and what follows it. -/
theorem parseLines_line {line : List Char} (h : isSkipped (stripComment line) = false) (n : Nat)
    (following : List (List Char)) (p : Parser) :
    (parseLines n (line :: following) p).toOption =
      (p.line n (indentOf (stripComment line)) (contentOf line) following).toOption.bind
        fun p => (parseLines (n + 1) following p).toOption := by
  rw [parseLines, if_neg (by rw [h]; exact Bool.false_ne_true)]
  rw [contentOf]
  cases p.line n (indentOf (stripComment line))
      ((stripComment line).drop (indentOf (stripComment line))) following with
  | error e => rfl
  | ok p => rfl

/-- The numbers of the lines are in the errors only. -/
theorem parseLines_number (lines : List (List Char)) :
    ∀ (n n' : Nat) (p : Parser),
      (parseLines n lines p).toOption = (parseLines n' lines p).toOption := by
  induction lines with
  | nil =>
    intro n n' p
    rfl
  | cons line following ih =>
    intro n n' p
    cases hskip : isSkipped (stripComment line) with
    | true =>
      rw [parseLines_skip hskip, parseLines_skip hskip]
      exact ih ..
    | false =>
      rw [parseLines_line hskip, parseLines_line hskip, line_congr p n n' _ (fun _ => rfl)]
      exact congrArg (Option.bind _) (funext fun p => ih ..)

theorem Misread.cons {pre post : List (List Char)} {line l : List Char}
    (h : Misread pre line post) : Misread (l :: pre) line post := by
  obtain ⟨hpeeked, hbelow, before, key, blanks, rfl, hkey⟩ := h
  exact ⟨hpeeked, hbelow, l :: before, key, blanks, rfl, hkey⟩

/-- A skipped line that is not misread can be left out. The induction is on the lines
before it. -/
theorem parseLines_insert {line : List Char} {post : List (List Char)}
    (hline : isSkipped line = true) (pre : List (List Char)) :
    ¬ Misread pre line post → ∀ (n n' : Nat) (p : Parser),
      (parseLines n (pre ++ line :: post) p).toOption
        = (parseLines n' (pre ++ post) p).toOption := by
  induction pre with
  | nil =>
    intro _ n n' p
    rw [List.nil_append, List.nil_append, parseLines_skip (isSkipped_stripComment hline)]
    exact parseLines_number ..
  | cons l pre ih =>
    intro hread n n' p
    have ih := ih fun h => hread h.cons
    rw [List.cons_append, List.cons_append]
    cases hskip : isSkipped (stripComment l) with
    | true =>
      rw [parseLines_skip hskip, parseLines_skip hskip]
      exact ih ..
    | false =>
      have hbelow : isOpenKey (contentOf l) = true →
          listBelow? (pre ++ line :: post) = listBelow? (pre ++ post) := by
        intro hopen
        refine listBelow?_insert hline ?_
        intro hpeeked hsome
        by_contra hnone
        refine hread ⟨hpeeked, hsome, [], l, pre, rfl, ?_, ?_⟩
        · rw [opensBelow, hskip, hopen]
          rfl
        · intro b hb
          by_contra hb'
          exact hnone ⟨b, hb, Bool.not_eq_false _ |>.mp hb'⟩
      rw [parseLines_line hskip, parseLines_line hskip, line_congr p n n' _ hbelow]
      exact congrArg (Option.bind _) (funext fun p => ih ..)

theorem contentOf_eq (line : List Char) :
    contentOf line = (stripComment line).dropWhile fun c => c = ' ' := by
  rw [contentOf, indentOf]
  induction stripComment line with
  | nil => rfl
  | cons c cs ih =>
    by_cases hc : c = ' '
    · rw [List.takeWhile_cons_of_pos (by simpa using hc), List.dropWhile_cons_of_pos
        (by simpa using hc), List.length_cons, List.drop_succ_cons]
      exact ih
    · rw [List.takeWhile_cons_of_neg (by simpa using hc), List.dropWhile_cons_of_neg
        (by simpa using hc)]
      rfl

theorem dropWhile_isWhitespace (cs : List Char) :
    (cs.dropWhile fun c => c = ' ').dropWhile isWhitespace = cs.dropWhile isWhitespace := by
  induction cs with
  | nil => rfl
  | cons c cs ih =>
    by_cases hc : c = ' '
    · subst hc
      rw [List.dropWhile_cons_of_pos (by decide), List.dropWhile_cons_of_pos (by decide)]
      exact ih
    · rw [List.dropWhile_cons_of_neg (by simpa using hc)]

/-- The loop does not skip what it takes for an item. -/
theorem isSkipped_of_item {line : List Char} (h : ['-', ' '].isPrefixOf (contentOf line) = true) :
    isSkipped (stripComment line) = false := by
  obtain ⟨rest, hrest⟩ := List.isPrefixOf_iff_prefix.mp h
  have hdrop : (stripComment line).dropWhile isWhitespace = '-' :: ' ' :: rest := by
    rw [← dropWhile_isWhitespace, ← contentOf_eq, ← hrest]
    rfl
  rw [isSkipped_eq, hdrop]
  rfl

theorem isPeeked_of_not_isSkipped {line : List Char} (h : isSkipped (stripComment line) = false) :
    isPeeked line = true := by
  rw [isSkipped, Bool.or_eq_false_iff] at h
  rw [isPeeked, h.1]
  rfl

/-- The first item of a list that was not begun. -/
theorem parseLines_item {post : List (List Char)} (hitem : itemBelow post) :
    ∀ (n : Nat) (p : Parser), p.pendingList = none → (parseLines n post p).toOption = none := by
  obtain ⟨next, hnext, hitem⟩ := hitem
  induction post with
  | nil => cases hnext
  | cons l post ih =>
    intro n p hpending
    rw [peekNext_cons] at hnext
    by_cases hpeeked : isPeeked l = true
    · rw [if_pos hpeeked, Option.some.injEq] at hnext
      subst hnext
      rw [parseLines_line (isSkipped_of_item hitem), Parser.line, if_pos hitem, hpending]
      rfl
    · rw [if_neg hpeeked] at hnext
      rw [parseLines_skip (isSkipped_of_not_isPeeked (Bool.not_eq_true _ |>.mp hpeeked))]
      exact ih hnext (n + 1) p hpending

/-- After an open key without a list below it no list may go on. -/
theorem line_pendingList {p p' : Parser} {n indent : Nat} {content : List Char}
    {following : List (List Char)} (hopen : isOpenKey content = true)
    (hbelow : listBelow? following = none)
    (h : p.line n indent content following = .ok p') : p'.pendingList = none := by
  rw [isOpenKey, Bool.and_eq_true, Bool.not_eq_true'] at hopen
  rw [Parser.line, if_neg (by rw [hopen.1]; exact Bool.false_ne_true)] at h
  cases hcolon : content.dropWhile (· ≠ ':') with
  | nil =>
    rw [hcolon] at hopen
    exact absurd hopen.2 Bool.false_ne_true
  | cons c behind =>
    rw [hcolon] at hopen h
    dsimp only at h
    rw [if_pos (of_decide_eq_true hopen.2), Except.ok.injEq] at h
    rw [← h, openKey_of_none _ _ _ _ hbelow]
    exact assign_pendingList ..

theorem parseLines_blanks (blanks : List (List Char)) (post : List (List Char))
    (hblanks : ∀ l ∈ blanks, isSkipped (stripComment l) = true) :
    ∀ (n : Nat) (p : Parser),
      (parseLines n (blanks ++ post) p).toOption = (parseLines n post p).toOption := by
  induction blanks with
  | nil =>
    intro n p
    rfl
  | cons l blanks ih =>
    intro n p
    rw [List.cons_append, parseLines_skip (hblanks l (List.mem_cons_self ..)),
      ih (fun b hb => hblanks b (List.mem_cons_of_mem _ hb))]
    exact parseLines_number ..

/-- With a misread line the list below a key is refused. -/
theorem parseLines_misread {pre post : List (List Char)} {line : List Char}
    (hline : isSkipped line = true) (hread : Misread pre line post) (hitem : itemBelow post) :
    ∀ (n : Nat) (p : Parser), (parseLines n (pre ++ line :: post) p).toOption = none := by
  obtain ⟨hpeeked, -, before, key, blanks, rfl, hkey, hblanks⟩ := hread
  rw [opensBelow, Bool.and_eq_true, Bool.not_eq_true'] at hkey
  induction before with
  | nil =>
    intro n p
    -- below the key the line is seen, and it is no item
    have hbelow : listBelow? (blanks ++ line :: post) = none := by
      rw [listBelow?, peekNext_append, (peekNext_eq_none_iff blanks).mpr hblanks, Option.none_or,
        peekNext_cons, if_pos hpeeked, Option.bind_some, if_neg]
      rw [isListItem_of_isSkipped hline]
      exact Bool.false_ne_true
    have hskipped : ∀ l ∈ blanks, isSkipped (stripComment l) = true :=
      fun l hl => isSkipped_of_not_isPeeked (hblanks l hl)
    rw [List.nil_append, List.cons_append, parseLines_line hkey.1]
    cases hrun : p.line n (indentOf (stripComment key)) (contentOf key) (blanks ++ line :: post) with
    | error e => rfl
    | ok p' =>
      show (parseLines (n + 1) (blanks ++ line :: post) p').toOption = none
      rw [parseLines_blanks blanks _ hskipped, parseLines_skip (isSkipped_stripComment hline)]
      exact parseLines_item hitem _ _ (line_pendingList hkey.2 hbelow hrun)
  | cons l before ih =>
    intro n p
    rw [List.cons_append, List.cons_append]
    cases hskip : isSkipped (stripComment l) with
    | true =>
      rw [parseLines_skip hskip]
      exact ih ..
    | false =>
      rw [parseLines_line hskip]
      cases p.line n (indentOf (stripComment l)) (contentOf l) ((before ++ key :: blanks) ++
          line :: post) with
      | error e => rfl
      | ok p' => exact ih ..

/-! ## Texts -/

theorem accepted?_eq (src : List Char) :
    accepted? src = (parseLines 1 (linesOf src) .init).toOption.map Parser.root := by
  rw [accepted?, parseYamlSubset, linesOf]
  cases parseLines 1 ((src.filter (· ≠ '\r')).splitOn '\n') .init with
  | error e => rfl
  | ok p => rfl

/-- A blank line or a comment can be inserted and deleted, unless it is misread; where it
is, the text with it is refused. `src'` has the line between `pre` and `post`, `src` has
not. -/
theorem comment_insignificant_iff {src src' : List Char} {pre post : List (List Char)}
    {line : List Char} (hsrc : linesOf src = pre ++ post) (hsrc' : linesOf src' = pre ++ line :: post)
    (hline : isSkipped line = true) :
    (¬ Misread pre line post → accepted? src' = accepted? src) ∧
      (itemBelow post → (accepted? src' = accepted? src ↔
        ¬ Misread pre line post ∨ accepted? src = none)) ∧
      Persona.parseYamlSubset src = parseYamlSubset src := by
  have hequal : ¬ Misread pre line post → accepted? src' = accepted? src := by
    intro hread
    rw [accepted?_eq, accepted?_eq, hsrc, hsrc', parseLines_insert hline pre hread 1 1]
  refine ⟨hequal, ?_, rfl⟩
  intro hitem
  constructor
  · intro h
    by_cases hread : Misread pre line post
    · rw [accepted?_eq src', hsrc', parseLines_misread hline hread hitem, Option.map_none] at h
      exact Or.inr h.symm
    · exact Or.inl hread
  · intro hcases
    rcases hcases with hread | hnone
    · exact hequal hread
    · by_cases hread : Misread pre line post
      · rw [hnone, accepted?_eq, hsrc', parseLines_misread hline hread hitem, Option.map_none]
      · exact hequal hread

/-- A comment with an indent, between a key and its list. -/
theorem indented_comment_insignificant :
    accepted? "a:\n  # c\n  - x".toList = accepted? "a:\n  - x".toList := by
  have hpeeked : isPeeked "  # c".toList = false := by decide
  refine (@comment_insignificant_iff _ _ ["a:".toList] ["  - x".toList] "  # c".toList
    (by decide) (by decide) (by decide)).1 ?_
  intro hgiven
  obtain ⟨hread, -⟩ := hgiven
  rw [hpeeked] at hread
  cases hread

/-- A comment without an indent is significant there. -/
theorem comment_refuses_list :
    ¬ ∀ (src src' : List Char) (pre post : List (List Char)) (line : List Char),
      linesOf src = pre ++ post → linesOf src' = pre ++ line :: post → isSkipped line = true →
        accepted? src' = accepted? src := by
  intro h
  have hequal := h "a:\n- x".toList "a:\n# c\n- x".toList ["a:".toList] ["- x".toList] "# c".toList
    (by decide) (by decide) (by decide)
  have hrefused : accepted? "a:\n# c\n- x".toList = none := rfl
  have haccepted : (accepted? "a:\n- x".toList).isSome = true := rfl
  rw [← hequal, hrefused] at haccepted
  cases haccepted

end Kovael.Workflow
