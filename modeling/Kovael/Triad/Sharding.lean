import Kovael.Triad.Cycle
import Kovael.Workflow.Loader
import Kovael.Workflow.RoundTrip

/-!
# `MevBridge.shardContext`

What a sharded context is: the first system message, if the tail does not have it, and the
newest `keepRecent` messages. The number comes from WORKFLOW.md and nothing checks it
(`keepRecentTurns_bootWith`): a positive one is kept to, but `slice(-0)` is the whole history,
and of a negative number the slice is from the front. `sharded_iff` says when that does no
harm.

Mirroring notes vs the TS:
- The messages are those of `Cycle`; whether the tail has the system message is a question
  about references.
- A document here is a printed tree of the front matter between its delimiters.
-/

namespace Kovael.Triad

open Workflow (Fields FrontMatterTree Integer Key Leaf Scalar)

/-! ## The sharded context -/

/-- The first system message. -/
def firstSystem (history : List Message) : Option Message :=
  history.find? fun m => m.role = some "system"

/-- The first system message, then the newest messages; it is not there twice. -/
structure Sharded (history : List Message) (keepRecent : Int) : Prop where
  content : shardContext history keepRecent =
    ((firstSystem history).toList.filter fun system =>
      !(history.rtake keepRecent.toNat).any fun m => m.ref = system.ref) ++
        history.rtake keepRecent.toNat
  bounded : (shardContext history keepRecent).length ≤ keepRecent.toNat + 1

/-- The tail that the slice is, and before it the system message if it is not there. -/
theorem shardContext_eq (history : List Message) (keepRecent : Int) :
    shardContext history keepRecent =
      ((firstSystem history).toList.filter fun system =>
        !(sliceFrom history (-keepRecent)).any fun m => m.ref = system.ref) ++
          sliceFrom history (-keepRecent) := by
  rw [shardContext, ← firstSystem]
  cases firstSystem history with
  | none => rfl
  | some system =>
    rw [Option.toList_some, List.filter_singleton]
    cases hany : (sliceFrom history (-keepRecent)).any fun m => decide (m.ref = system.ref) with
    | true => exact if_pos hany
    | false => exact if_neg (by rw [hany]; exact Bool.false_ne_true)

/-- At most one message is put before the tail. -/
theorem length_filter_toList_le {α : Type} (p : α → Bool) (o : Option α) :
    (o.toList.filter p).length ≤ 1 :=
  (List.length_filter_le _ _).trans Option.length_toList_le

theorem sharded_iff_content (history : List Message) (keepRecent : Int) :
    Sharded history keepRecent ↔ shardContext history keepRecent =
      ((firstSystem history).toList.filter fun system =>
        !(history.rtake keepRecent.toNat).any fun m => m.ref = system.ref) ++
          history.rtake keepRecent.toNat := by
  refine ⟨Sharded.content, fun hcontent => ⟨hcontent, ?_⟩⟩
  have hhead := length_filter_toList_le (fun system : Message =>
    !(history.rtake keepRecent.toNat).any fun m => m.ref = system.ref) (firstSystem history)
  rw [hcontent, List.length_append, length_rtake]
  omega

/-- A positive number is kept to. -/
theorem sharded_of_pos (history : List Message) {keepRecent : Int} (h : 0 < keepRecent) :
    Sharded history keepRecent := by
  have htail : sliceFrom history (-keepRecent) = history.rtake keepRecent.toNat := by
    rw [← sliceFrom_neg history (by omega : 0 < keepRecent.toNat), Int.toNat_of_nonneg h.le]
  rw [sharded_iff_content, shardContext_eq, htail]

/-- With no number to keep, what the slice leaves is no message, or the system message alone. -/
theorem sharded_of_nonpos_iff (history : List Message) {keepRecent : Int} (h : keepRecent ≤ 0) :
    Sharded history keepRecent ↔
      history.length ≤ (-keepRecent).toNat ∨
        ∃ system, firstSystem history = some system ∧
          history.drop (-keepRecent).toNat = [system] := by
  have htail : sliceFrom history (-keepRecent) = history.drop (-keepRecent).toNat := by
    rw [sliceFrom, if_neg (by omega)]
  have hnone : history.rtake keepRecent.toNat = [] := by
    rw [Int.toNat_eq_zero.mpr h, List.rtake_zero]
  have hall : ((firstSystem history).toList.filter fun system =>
      !([] : List Message).any fun m => m.ref = system.ref) = (firstSystem history).toList :=
    List.filter_eq_self.mpr fun _ _ => rfl
  -- nothing is to be kept, and the slice leaves what is behind so many messages
  rw [sharded_iff_content, shardContext_eq, htail, hnone, List.append_nil, hall,
    ← List.drop_eq_nil_iff]
  generalize history.drop (-keepRecent).toNat = tail
  cases hsystem : firstSystem history with
  | none =>
    show tail = [] ↔ _
    constructor
    · exact Or.inl
    · intro hcases
      rcases hcases with hnil | ⟨system, hsome, -⟩
      · exact hnil
      · cases hsome
  | some system =>
    rw [Option.toList_some, List.filter_singleton]
    cases hany : tail.any fun m => decide (m.ref = system.ref) with
    | true =>
      have hne : tail ≠ [] := by
        intro heq
        obtain rfl := heq
        cases hany
      show tail = [system] ↔ _
      constructor
      · exact fun htail => Or.inr ⟨system, rfl, htail⟩
      · intro hcases
        rcases hcases with hnil | ⟨_, hsome, htail⟩
        · exact absurd hnil hne
        · rw [Option.some.inj hsome]
          exact htail
    | false =>
      -- the system message is put before the slice, so it is left alone if that is empty
      show system :: tail = [system] ↔ _
      rw [List.cons.injEq, and_iff_right rfl]
      constructor
      · exact Or.inl
      · intro hcases
        rcases hcases with hnil | ⟨_, hsome, rfl⟩
        · exact hnil
        · -- the system message would be in the tail
          obtain rfl := Option.some.inj hsome
          rw [List.any_cons, decide_eq_true rfl, Bool.true_or] at hany
          cases hany

/-- For every history and every number: the context is sharded just if the number is positive,
or the slice leaves nothing, or just the system message. -/
theorem sharded_iff (history : List Message) (keepRecent : Int) :
    Sharded history keepRecent ↔
      0 < keepRecent ∨ history.length ≤ (-keepRecent).toNat ∨
        ∃ system, firstSystem history = some system ∧
          history.drop (-keepRecent).toNat = [system] := by
  by_cases hpos : 0 < keepRecent
  · exact iff_of_true (sharded_of_pos history hpos) (Or.inl hpos)
  · rw [sharded_of_nonpos_iff history (not_lt.mp hpos), or_iff_right hpos]

/-! ## A document that sets the number -/

/-- `\n---\n`: the end of the front matter. -/
def closingLine : List Char := ['\n', '-', '-', '-', '\n']

/-- The file of a tree. -/
def frontMatterFile (tree : FrontMatterTree) : String :=
  String.ofList ('-' :: '-' :: '-' :: '\n' :: (tree.text ++ closingLine))

/-- The line begins, and not with a dash. -/
def Undashed (line : List Char) : Prop := ∃ c cs, line = c :: cs ∧ c ≠ '-'

theorem Undashed.append {line : List Char} (h : Undashed line) (rest : List Char) :
    Undashed (line ++ rest) := by
  obtain ⟨c, cs, rfl, hc⟩ := h
  exact ⟨c, cs ++ rest, rfl, hc⟩

theorem undashed_indented (n : Nat) {text : List Char} (h : Undashed text) :
    Undashed (List.replicate n ' ' ++ text) := by
  cases n with
  | zero => exact h
  | succ n => exact ⟨' ', List.replicate n ' ' ++ text, rfl, by decide⟩

theorem undashed_key (key : Key) (text : List Char) : Undashed (key.text.toList ++ text) := by
  refine Undashed.append ?_ text
  cases hkey : key.text.toList with
  | nil => exact absurd hkey key.nonempty
  | cons c cs =>
    refine ⟨c, cs, rfl, ?_⟩
    intro heq
    obtain rfl := heq
    exact key.not_mem (by decide) (hkey ▸ List.mem_cons_self ..)

theorem undashed_leaf (value : Leaf) (indent : Nat) (key : Key) :
    ∀ line ∈ value.lines indent key, Undashed line := by
  intro line hline
  cases value with
  | scalar x =>
    obtain rfl := List.mem_singleton.mp hline
    exact undashed_indented indent (undashed_key key _)
  | inlineList xs =>
    obtain rfl := List.mem_singleton.mp hline
    exact undashed_indented indent (undashed_key key _)
  | blockList xs =>
    rcases List.mem_cons.mp hline with rfl | hline
    · exact undashed_indented indent (undashed_key key _)
    · -- the dash of an item is indented
      obtain ⟨x, -, rfl⟩ := List.mem_map.mp hline
      exact ⟨' ', _, rfl, by decide⟩

theorem undashed_lines (t : Fields) (indent : Nat) : ∀ line ∈ t.lines indent, Undashed line := by
  induction t generalizing indent with
  | nil => exact fun _ hline => absurd hline List.not_mem_nil
  | leaf key value rest ih =>
    intro line hline
    rcases List.mem_append.mp hline with hline | hline
    · exact undashed_leaf value indent key line hline
    · exact ih indent line hline
  | map key inner rest ihinner ihrest =>
    intro line hline
    rcases List.mem_cons.mp hline with rfl | hline
    · exact undashed_indented indent (undashed_key key _)
    · rcases List.mem_append.mp hline with hline | hline
      · exact ihinner (indent + 2) line hline
      · exact ihrest indent line hline

/-- A text without newlines has no closing. -/
theorem untilClosing_append {line : List Char} (h : '\n' ∉ line) (rest : List Char) :
    Workflow.untilClosing (line ++ rest) =
      (Workflow.untilClosing rest).map fun m => (line ++ m.1, m.2) := by
  induction line with
  | nil =>
    rw [List.nil_append]
    cases Workflow.untilClosing rest with
    | none => rfl
    | some m => rfl
  | cons c line ih =>
    have hc : '\n' ≠ c := fun heq => h (heq ▸ List.mem_cons_self ..)
    have hclosing : Workflow.closing? (c :: (line ++ rest)) = none := by
      rw [Workflow.closing?, List.isPrefixOf, beq_false_of_ne hc]
      rfl
    rw [List.cons_append, Workflow.untilClosing, hclosing,
      ih fun hmem => h (List.mem_cons_of_mem _ hmem)]
    cases Workflow.untilClosing rest with
    | none => rfl
    | some m => rfl

/-- Nor has a newline before a line that does not begin with a dash. -/
theorem untilClosing_newline {text : List Char} (h : Undashed text) :
    Workflow.untilClosing ('\n' :: text) =
      (Workflow.untilClosing text).map fun m => ('\n' :: m.1, m.2) := by
  obtain ⟨c, cs, rfl, hc⟩ := h
  have hclosing : Workflow.closing? ('\n' :: c :: cs) = none := by
    rw [Workflow.closing?, List.isPrefixOf, List.isPrefixOf, beq_false_of_ne hc.symm]
    rfl
  rw [Workflow.untilClosing, hclosing]

/-- The lines between the delimiters are found. The induction is on the lines. -/
theorem untilClosing_lines {lines : List (List Char)} (hlines : lines ≠ [])
    (hnewline : ∀ line ∈ lines, '\n' ∉ line) (hdash : ∀ line ∈ lines, Undashed line) :
    Workflow.untilClosing (['\n'].intercalate lines ++ closingLine) =
      some (['\n'].intercalate lines, []) := by
  induction lines with
  | nil => exact absurd rfl hlines
  | cons line lines ih =>
    have hline := untilClosing_append (hnewline line (List.mem_cons_self ..))
    cases lines with
    | nil =>
      rw [List.intercalate_singleton, hline]
      show some (line ++ [], []) = _
      rw [List.append_nil]
    | cons next lines =>
      have hrest := ih (List.cons_ne_nil _ _)
        (fun l hl => hnewline l (List.mem_cons_of_mem _ hl))
        (fun l hl => hdash l (List.mem_cons_of_mem _ hl))
      have hnext : Undashed (['\n'].intercalate (next :: lines) ++ closingLine) := by
        have hfirst := hdash next (List.mem_cons_of_mem _ (List.mem_cons_self ..))
        cases lines with
        | nil =>
          rw [List.intercalate_singleton]
          exact hfirst.append _
        | cons l lines =>
          rw [List.intercalate_cons_cons, List.append_assoc, List.append_assoc]
          exact hfirst.append _
      rw [List.intercalate_cons_cons, List.append_assoc, List.append_assoc, hline,
        List.singleton_append, untilClosing_newline hnext, hrest, List.append_assoc]
      rfl

/-- The first line of a tree begins with a key. -/
theorem first_line {t : Fields} (h : t ≠ .nil) :
    ∃ line lines, t.lines 0 = line :: lines ∧ Workflow.Starts line := by
  cases t with
  | nil => exact absurd rfl h
  | leaf key value rest =>
    cases value with
    | scalar x => exact ⟨_, _, rfl, key.starts _⟩
    | inlineList xs => exact ⟨_, _, rfl, key.starts _⟩
    | blockList xs => exact ⟨_, _, rfl, key.starts _⟩
  | map key inner rest => exact ⟨_, _, rfl, key.starts _⟩

/-- The front matter of the file of a tree is the tree in print. -/
theorem matchFrontMatter_file (tree : FrontMatterTree) :
    Workflow.matchFrontMatter (frontMatterFile tree).toList = some (tree.text, []) := by
  have hfound : Workflow.untilClosing (tree.text ++ closingLine) = some (tree.text, []) :=
    untilClosing_lines (Fields.lines_ne_nil tree.nonempty 0) (tree.fields.newline_not_mem 0)
      (undashed_lines tree.fields 0)
  have hends : Workflow.newlineEnds (tree.text ++ closingLine) = [] := by
    obtain ⟨line, lines, hlines, c, cs, rfl, hc, -⟩ := first_line tree.nonempty
    obtain ⟨rest, htext⟩ : ∃ rest, tree.text = c :: rest := by
      rw [FrontMatterTree.text, hlines]
      cases lines with
      | nil => exact ⟨_, List.intercalate_singleton ..⟩
      | cons l lines => exact ⟨_, List.intercalate_cons_cons ..⟩
    rw [htext, List.cons_append, Workflow.newlineEnds, hc]
    rfl
  rw [frontMatterFile, String.toList_ofList]
  show (Workflow.newlineEnds (tree.text ++ closingLine) ++
    [tree.text ++ closingLine]).findSome? Workflow.untilClosing = _
  rw [hends, List.nil_append, List.findSome?_singleton, hfound]

/-- A key, its conditions computed. -/
def keyOf (text : String) (hparts : text.toList.all Workflow.isIdentifierPart = true)
    (hhead : (text.toList.head?.any fun c => !c.isDigit) = true) : Key where
  text := text
  nonempty := by
    intro hnil
    rw [hnil] at hhead
    cases hhead
  parts := List.all_eq_true.mp hparts
  head := by
    intro c hc
    rw [hc, Option.any_some, Bool.not_eq_true'] at hhead
    exact hhead

/-- `version: 1`, and below `sharding` the number. -/
def keepRecentTree (n : Integer) : FrontMatterTree where
  fields := .leaf (keyOf "version" rfl rfl) (.scalar (.int ⟨1, 1, 0, by decide⟩))
    (.map (keyOf "sharding" rfl rfl)
      (.leaf (keyOf "keep_recent_turns" rfl rfl) (.scalar (.int n)) .nil) .nil)
  wellFormed := by
    refine ⟨?_, List.not_mem_nil, Fields.noConfusion, ⟨List.not_mem_nil, trivial⟩, trivial⟩
    show "version" ∉ ["sharding"]
    decide
  nonempty := fun h => by cases h

theorem roundTrips_int (n : Integer) : (Leaf.scalar (.int n)).RoundTrips := by
  refine ⟨?_, ?_⟩
  · intro x hx
    obtain rfl := List.mem_singleton.mp hx
    exact List.not_mem_nil
  · intro hgiven
    obtain ⟨before, c, behind, htext, hc, -⟩ := hgiven
    have hmem : c ∈ Workflow.intText n.val := by
      show c ∈ (Scalar.int n).text
      rw [htext]
      exact List.mem_append_right _ (List.mem_cons_self ..)
    rcases Workflow.mem_intText hmem with rfl | hdigit
    · cases hc
    · rw [Workflow.not_space_of_part (Workflow.isIdentifierPart_of_isDigit hdigit)] at hc
      cases hc

/-- For each integer that a number holds there is a WORKFLOW.md that sets it. -/
theorem keepRecentTurns_bootWith (retry : Claims.RetryConfig) (n : Integer) :
    (Workflow.bootWith retry (frontMatterFile (keepRecentTree n))).settings.keepRecentTurns =
      .ofInt n.val := by
  have hproto : (keepRecentTree n).fields.NoProto := by
    refine ⟨?_, ?_, ⟨?_, trivial⟩, trivial⟩
    · show "version" ≠ "__proto__"
      decide
    · show "sharding" ≠ "__proto__"
      decide
    · show "keep_recent_turns" ≠ "__proto__"
      decide
  have hleaves : ∀ value ∈ (keepRecentTree n).fields.leaves, value.RoundTrips := by
    intro value hvalue
    rcases List.mem_cons.mp hvalue with rfl | hvalue
    · exact roundTrips_int _
    · obtain rfl := List.mem_singleton.mp hvalue
      exact roundTrips_int n
  have hparse : Workflow.parseYamlSubset (keepRecentTree n).text = .ok (keepRecentTree n).root := by
    rw [Workflow.parseYamlSubset_eq_ok_iff, Workflow.accepted?_text hproto,
      (Workflow.read_eq_value_iff _).mpr hleaves, FrontMatterTree.root]
  have hload : Workflow.loadFrontMatter (some (frontMatterFile (keepRecentTree n))) =
      .ok (keepRecentTree n).root := by
    rw [Workflow.loadFrontMatter, matchFrontMatter_file]
    dsimp only
    rw [hparse]
    rfl
  rw [Workflow.bootWith, Workflow.Orchestrator.reload, hload]
  rfl

/-- With `keep_recent_turns: 0` the context of a history of two messages has both. -/
theorem zero_keeps_all : (∀ retry, ∃ document,
      (Workflow.bootWith retry document).settings.keepRecentTurns = .ofInt 0) ∧
    ¬ ∀ (history : List Message) (keepRecent : Int), Sharded history keepRecent := by
  refine ⟨fun retry => ⟨_, keepRecentTurns_bootWith retry ⟨0, 0, 0, by decide⟩⟩, ?_⟩
  intro h
  have hbound := (h [⟨0, some "user", some "a"⟩, ⟨1, some "user", some "b"⟩] 0).bounded
  exact absurd hbound (by decide)

end Kovael.Triad
