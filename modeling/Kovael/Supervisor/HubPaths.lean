import Kovael.Js.OrderedMap
import Kovael.Js.Utf16
import Mathlib.Data.List.Forall2

/-!
# `AgentRuntimeSupervisor.hubPathFor`

Every agent has its hub in a directory below the hub directory, and the name of the directory
is made of the id by `safePathSegment`. What the name leaves of an id keeps it below the hub
directory whatever the id is (`hubPathFor_below`), but a unit that is replaced is not told from
an underscore, and `hubs_per_agent_iff` says that two agents have one hub file just if their
ids are alike in this. The adapter refuses the ids in which anything is replaced
(`eq_of_collide`); the supervisor does not.

Mirroring notes vs the TS:
- Paths are those of POSIX: whether it is absolute, and the segments that `path.join` leaves.
- An id is any string, and the regular expressions see its UTF-16 units.
- Of a spec and of a record what decides the path is kept.
-/

namespace Kovael.Supervisor

open Js (OrderedMap Utf16)
open Js.Utf16 (ascii)

/-! ## Paths -/

/-- A path that is normalized. -/
structure FilePath where
  absolute : Bool
  segments : List Utf16
  deriving DecidableEq, Repr

/-- The next segment of a path; a relative one may begin above where it starts. -/
def pushSegment (absolute : Bool) (segments : List Utf16) (segment : Utf16) : List Utf16 :=
  if segment = [] ∨ segment = ascii "." then segments
  else if segment = ascii ".." then
    match segments.getLast? with
    | none => if absolute then [] else [segment]
    | some last => if last = ascii ".." then segments ++ [segment] else segments.dropLast
  else segments ++ [segment]

/-- `path.normalize(text)`; 47 is the slash. -/
def normalize (text : Utf16) : FilePath :=
  let absolute := text.head? = some 47
  { absolute, segments := (text.splitOn 47).foldl (pushSegment absolute) [] }

/-- `path.join(...parts)`: parts that are empty are left out. -/
def joinPaths (parts : List Utf16) : FilePath :=
  normalize ([47].intercalate (parts.filter (· ≠ [])))

/-! ## Hub paths -/

/-- A unit of `[a-zA-Z0-9._-]`. -/
def isSafeUnit (c : UInt16) : Bool :=
  (97 ≤ c && c ≤ 122) || (65 ≤ c && c ≤ 90) || (48 ≤ c && c ≤ 57) || c = 46 || c = 95 || c = 45

/-- `value.replace(/[^a-zA-Z0-9._-]/g, '_')`. -/
def cleanUnits (value : Utf16) : Utf16 := value.map fun c => if isSafeUnit c then c else 95

/-- `/^\.+$/.test(value)`. -/
def isDots (value : Utf16) : Bool := !value.isEmpty && value.all (· = 46)

/-- `safePathSegment(value)`. -/
def safePathSegment (value : Utf16) : Utf16 :=
  let cleaned := cleanUnits value
  if cleaned.isEmpty || isDots cleaned then [95] else cleaned

structure AgentRuntimeSpec where
  agentId : Utf16
  enabled : Option Bool
  deriving DecidableEq, Repr

def hubFile : Utf16 := ascii "agent-hub.sqlite"

/-- `hubPathFor(agentId)`. -/
def hubPathFor (hubDir agentId : Utf16) : FilePath :=
  joinPaths [hubDir, safePathSegment agentId, hubFile]

/-- `config.agents`, without those that are not enabled. -/
def enabledAgents (agents : List AgentRuntimeSpec) : List AgentRuntimeSpec :=
  agents.filter fun agent => agent.enabled ≠ some false

/-- `this.records` after the constructor: of each record the hub path. -/
def hubRecords (hubDir : Utf16) (agents : List AgentRuntimeSpec) : OrderedMap Utf16 FilePath :=
  (enabledAgents agents).foldl
    (fun records spec => records.set spec.agentId (hubPathFor hubDir spec.agentId)) .empty

/-- The check of `--id` with which an adapter starts. -/
def acceptsId (id : Utf16) : Bool := !id.isEmpty && id.all isSafeUnit && !isDots id

/-! ## One hub per agent -/

/-- A name that a directory can have. -/
structure IsName (name : Utf16) : Prop where
  nonempty : name ≠ []
  single : name ≠ ascii "."
  double : name ≠ ascii ".."
  slash : 47 ∉ name

/-- The file is in a directory that is in the hub directory. -/
def OneBelow (hubDir : Utf16) (path : FilePath) : Prop :=
  ∃ name, IsName name ∧
    path = ⟨(normalize hubDir).absolute, (normalize hubDir).segments ++ [name, hubFile]⟩

structure HubPerAgent (hubDir : Utf16) (agents : List AgentRuntimeSpec) : Prop where
  below : ∀ id path, (hubRecords hubDir agents).get? id = some path → OneBelow hubDir path
  distinct : ∀ id id' path, (hubRecords hubDir agents).get? id = some path →
    (hubRecords hubDir agents).get? id' = some path → id = id'

/-- The unit is an underscore, or one is put for it. -/
def Underscored (c : UInt16) : Prop := c = 95 ∨ isSafeUnit c = false

/-- The units are not told apart. -/
def AlikeUnits (c d : UInt16) : Prop := c = d ∨ (Underscored c ∧ Underscored d)

/-- Nothing is left of the id but an underscore: it is empty, all dots, or such a unit. -/
def IsBlank (id : Utf16) : Prop := (∀ c ∈ id, c = 46) ∨ ∃ c, id = [c] ∧ Underscored c

/-- The ids are not told apart. -/
def Collide (id id' : Utf16) : Prop :=
  List.Forall₂ AlikeUnits id id' ∨ (IsBlank id ∧ IsBlank id')

/-! ## The segment of an id -/

theorem isEmpty_or_isDots (value : Utf16) :
    (value.isEmpty || isDots value) = true ↔ ∀ c ∈ value, c = 46 := by
  cases value with
  | nil => exact iff_of_true rfl fun _ hc => absurd hc List.not_mem_nil
  | cons c value =>
    rw [isDots, List.isEmpty_cons, Bool.false_or, Bool.not_false, Bool.true_and, List.all_eq_true]
    exact forall₂_congr fun _ _ => decide_eq_true_iff

theorem clean_eq_dot_iff (c : UInt16) : (if isSafeUnit c then c else 95) = 46 ↔ c = 46 := by
  split
  next => exact Iff.rfl
  next hsafe =>
    refine iff_of_false (by decide) ?_
    intro heq
    obtain rfl := heq
    exact hsafe rfl

theorem cleanUnits_dots_iff (id : Utf16) : (∀ c ∈ cleanUnits id, c = 46) ↔ ∀ c ∈ id, c = 46 := by
  rw [cleanUnits, List.forall_mem_map]
  exact forall₂_congr fun c _ => clean_eq_dot_iff c

/-- The segment of an id that is empty or all dots, and that of any other. -/
theorem safePathSegment_cases (id : Utf16) :
    (safePathSegment id = [95] ∧ ∀ c ∈ id, c = 46) ∨
      (safePathSegment id = cleanUnits id ∧ ¬ ∀ c ∈ id, c = 46) := by
  rw [← cleanUnits_dots_iff, ← isEmpty_or_isDots]
  by_cases h : ((cleanUnits id).isEmpty || isDots (cleanUnits id)) = true
  · exact Or.inl ⟨if_pos h, h⟩
  · exact Or.inr ⟨if_neg h, h⟩

theorem isSafeUnit_clean (c : UInt16) : isSafeUnit (if isSafeUnit c then c else 95) = true := by
  split
  next hsafe => exact hsafe
  next => rfl

/-- Whatever the id is, its segment is a name. -/
theorem isName_safePathSegment (id : Utf16) : IsName (safePathSegment id) := by
  rcases safePathSegment_cases id with ⟨hsegment, -⟩ | ⟨hsegment, hdots⟩
  · rw [hsegment]
    exact ⟨by decide, by decide, by decide, by decide⟩
  · rw [hsegment]
    rw [← cleanUnits_dots_iff] at hdots
    refine ⟨?_, ?_, ?_, ?_⟩
    · intro hnil
      rw [hnil] at hdots
      exact hdots fun _ hc => absurd hc List.not_mem_nil
    · intro hdot
      rw [hdot] at hdots
      exact hdots fun c hc => List.mem_singleton.mp hc
    · intro hdot
      rw [hdot] at hdots
      exact hdots (List.forall_mem_cons.mpr ⟨rfl, List.forall_mem_singleton.mpr rfl⟩)
    · intro hslash
      obtain ⟨c, -, hc⟩ := List.mem_map.mp hslash
      have hsafe := isSafeUnit_clean c
      rw [hc] at hsafe
      cases hsafe

theorem clean_eq_underscore_iff (c : UInt16) :
    (if isSafeUnit c then c else 95) = 95 ↔ Underscored c := by
  cases hsafe : isSafeUnit c with
  | true => exact ⟨Or.inl, fun h => h.resolve_right (by rw [hsafe]; exact Bool.noConfusion)⟩
  | false => exact iff_of_true rfl (Or.inr hsafe)

theorem clean_eq_iff (c d : UInt16) :
    (if isSafeUnit c then c else 95) = (if isSafeUnit d then d else 95) ↔ AlikeUnits c d := by
  constructor
  · intro h
    -- a unit is replaced or is itself: what is replaced is only like what is replaced
    by_cases hc : Underscored c
    · have hd : Underscored d := by
        rw [← clean_eq_underscore_iff] at hc ⊢
        rw [← h, hc]
      exact Or.inr ⟨hc, hd⟩
    · have hd : ¬ Underscored d := by
        rw [← clean_eq_underscore_iff] at hc ⊢
        rw [← h]
        exact hc
      have hsafe : ∀ {e : UInt16}, ¬ Underscored e → isSafeUnit e = true := by
        intro e he
        rw [← Bool.not_eq_false]
        exact fun hfalse => he (Or.inr hfalse)
      rw [if_pos (hsafe hc), if_pos (hsafe hd)] at h
      exact Or.inl h
  · intro hcases
    rcases hcases with rfl | ⟨hc, hd⟩
    · rfl
    · rw [(clean_eq_underscore_iff c).mpr hc, (clean_eq_underscore_iff d).mpr hd]

theorem cleanUnits_eq_iff (id id' : Utf16) :
    cleanUnits id = cleanUnits id' ↔ List.Forall₂ AlikeUnits id id' := by
  rw [← List.forall₂_eq_eq_eq, cleanUnits, cleanUnits, List.forall₂_map_left_iff,
    List.forall₂_map_right_iff]
  exact ⟨List.Forall₂.imp fun c d => (clean_eq_iff c d).mp,
    List.Forall₂.imp fun c d => (clean_eq_iff c d).mpr⟩

/-- Only of an underscore nothing else is left. -/
theorem cleanUnits_eq_underscore_iff (id : Utf16) :
    cleanUnits id = [95] ↔ ∃ c, id = [c] ∧ Underscored c := by
  rw [cleanUnits, List.map_eq_singleton_iff]
  exact exists_congr fun c => and_congr_right fun _ => clean_eq_underscore_iff c

/-- Two ids have one segment just if they are not told apart. -/
theorem safePathSegment_eq_iff (id id' : Utf16) :
    safePathSegment id = safePathSegment id' ↔ Collide id id' := by
  have hblank : ∀ {a : Utf16}, IsBlank a ↔ safePathSegment a = [95] := by
    intro a
    rcases safePathSegment_cases a with ⟨hsegment, hdots⟩ | ⟨hsegment, hdots⟩
    · exact iff_of_true (Or.inl hdots) hsegment
    · rw [hsegment, cleanUnits_eq_underscore_iff]
      exact or_iff_right hdots
  have hdots_of_alike : ∀ {a b : Utf16}, List.Forall₂ AlikeUnits a b → (∀ c ∈ a, c = 46) →
      ∀ c ∈ b, c = 46 := by
    intro a b h ha
    rw [← cleanUnits_eq_iff] at h
    rw [← cleanUnits_dots_iff] at ha ⊢
    rw [← h]
    exact ha
  constructor
  · intro h
    -- one underscore is the segment of every blank id, and of no other
    by_cases hone : safePathSegment id = [95]
    · exact Or.inr ⟨hblank.mpr hone, hblank.mpr (h ▸ hone)⟩
    · rcases safePathSegment_cases id with ⟨hsegment, -⟩ | ⟨hsegment, -⟩
      · exact absurd hsegment hone
      · rcases safePathSegment_cases id' with ⟨hsegment', -⟩ | ⟨hsegment', -⟩
        · exact absurd (h.trans hsegment') hone
        · rw [hsegment, hsegment', cleanUnits_eq_iff] at h
          exact Or.inl h
  · intro hcases
    rcases hcases with halike | ⟨hid, hid'⟩
    · rw [safePathSegment, safePathSegment, (cleanUnits_eq_iff id id').mpr halike]
    · rw [hblank.mp hid, hblank.mp hid']

/-- The ids that the adapters accept are told apart. -/
theorem eq_of_collide {id id' : Utf16} (hid : acceptsId id = true) (hid' : acceptsId id' = true)
    (h : Collide id id') : id = id' := by
  have hself : ∀ {a : Utf16}, acceptsId a = true → safePathSegment a = a := by
    intro a ha
    rw [acceptsId, Bool.and_eq_true, Bool.and_eq_true, List.all_eq_true] at ha
    obtain ⟨⟨hne, hsafe⟩, hdots⟩ := ha
    have hclean : cleanUnits a = a :=
      calc cleanUnits a = a.map fun c => c := List.map_congr_left fun c hc => if_pos (hsafe c hc)
        _ = a := List.map_id' a
    rw [safePathSegment, hclean, (Bool.not_eq_true' _).mp hne, (Bool.not_eq_true' _).mp hdots]
    rfl
  rw [← safePathSegment_eq_iff, hself hid, hself hid'] at h
  exact h

/-! ## The path of a hub -/

/-- A name is put behind the segments. -/
theorem pushSegment_name {name : Utf16} (h : IsName name) (absolute : Bool)
    (segments : List Utf16) : pushSegment absolute segments name = segments ++ [name] := by
  rw [pushSegment, if_neg (not_or.mpr ⟨h.nonempty, h.single⟩), if_neg h.double]

theorem isName_hubFile : IsName hubFile := ⟨by decide, by decide, by decide, by decide⟩

/-- Two names behind a text are two segments more. -/
theorem joinPaths_names (dir : Utf16) {name name' : Utf16} (h : IsName name) (h' : IsName name') :
    joinPaths [dir, name, name'] =
      ⟨(normalize dir).absolute, (normalize dir).segments ++ [name, name']⟩ := by
  have hkept : [name, name'].filter (fun part => decide (part ≠ [])) = [name, name'] := by
    rw [List.filter_eq_self, List.forall_mem_cons, List.forall_mem_singleton]
    exact ⟨decide_eq_true h.nonempty, decide_eq_true h'.nonempty⟩
  have hnames : (name ++ 47 :: name').splitOn 47 = [name, name'] := by
    rw [List.splitOn_append_cons_self_of_not_mem h.slash, List.splitOn_eq_singleton h'.slash]
  have hpush : ∀ (absolute : Bool) (segments : List Utf16),
      [name, name'].foldl (pushSegment absolute) segments = segments ++ [name, name'] := by
    intro absolute segments
    rw [List.foldl_cons, List.foldl_cons, List.foldl_nil, pushSegment_name h, pushSegment_name h',
      List.append_assoc]
    rfl
  cases dir with
  | nil =>
    have hparts : [47].intercalate ([[], name, name'].filter (· ≠ [])) = name ++ 47 :: name' := by
      show [47].intercalate ([name, name'].filter fun part => decide (part ≠ [])) = _
      rw [hkept, List.intercalate_cons_cons, List.intercalate_singleton, List.append_assoc,
        List.singleton_append]
    have hhead : (name ++ 47 :: name').head? = name.head? :=
      List.head?_append_of_ne_nil _ h.nonempty
    have hrelative : ¬ name.head? = some 47 := fun hslash => h.slash (List.mem_of_head? hslash)
    rw [joinPaths, hparts, normalize, hnames, hhead, decide_eq_false hrelative, hpush]
    rfl
  | cons c dir =>
    have hparts : [47].intercalate ([c :: dir, name, name'].filter (· ≠ [])) =
        (c :: dir) ++ 47 :: (name ++ 47 :: name') := by
      show [47].intercalate ((c :: dir) :: [name, name'].filter fun part => decide (part ≠ [])) = _
      rw [hkept, List.intercalate_cons_cons, List.intercalate_cons_cons,
        List.intercalate_singleton]
      simp only [List.append_assoc, List.singleton_append]
    rw [joinPaths, hparts, normalize, List.splitOn_append_cons_self, hnames, List.foldl_append,
      hpush]
    rfl

/-- The hub of an agent is in the directory of its segment. -/
theorem hubPathFor_eq (hubDir agentId : Utf16) :
    hubPathFor hubDir agentId = ⟨(normalize hubDir).absolute,
      (normalize hubDir).segments ++ [safePathSegment agentId, hubFile]⟩ :=
  joinPaths_names hubDir (isName_safePathSegment agentId) isName_hubFile

theorem hubPathFor_below (hubDir agentId : Utf16) : OneBelow hubDir (hubPathFor hubDir agentId) :=
  ⟨safePathSegment agentId, isName_safePathSegment agentId, hubPathFor_eq hubDir agentId⟩

theorem hubPathFor_eq_iff (hubDir id id' : Utf16) :
    hubPathFor hubDir id = hubPathFor hubDir id' ↔ Collide id id' := by
  rw [← safePathSegment_eq_iff, hubPathFor_eq, hubPathFor_eq, FilePath.mk.injEq, and_iff_right rfl,
    List.append_cancel_left_eq, List.cons.injEq]
  exact and_iff_left rfl

/-! ## The records -/

/-- The records are of the agents that are enabled, each with its path. -/
theorem get?_hubRecords (hubDir : Utf16) (agents : List AgentRuntimeSpec) (id : Utf16) :
    (hubRecords hubDir agents).get? id =
      if id ∈ (enabledAgents agents).map AgentRuntimeSpec.agentId then some (hubPathFor hubDir id)
      else none := by
  have hfold : ∀ (specs : List AgentRuntimeSpec) (records : OrderedMap Utf16 FilePath),
      (specs.foldl (fun records spec => records.set spec.agentId (hubPathFor hubDir spec.agentId))
        records).get? id =
        if id ∈ specs.map AgentRuntimeSpec.agentId then some (hubPathFor hubDir id)
        else records.get? id := by
    intro specs
    induction specs with
    | nil => exact fun _ => rfl
    | cons spec specs ih =>
      intro records
      rw [List.foldl_cons, ih, List.map_cons]
      by_cases hmem : id ∈ specs.map AgentRuntimeSpec.agentId
      · rw [if_pos hmem, if_pos (List.mem_cons_of_mem _ hmem)]
      · rw [if_neg hmem, OrderedMap.get?_set]
        by_cases hid : id = spec.agentId
        · rw [if_pos hid, if_pos (hid ▸ List.mem_cons_self ..), hid]
        · rw [if_neg hid, if_neg (by rw [List.mem_cons]; exact not_or.mpr ⟨hid, hmem⟩)]
  exact hfold (enabledAgents agents) .empty

/-- For every hub directory and all agents: each hub is one directory below, and no two agents
share one, just if no two ids of enabled agents are not told apart. -/
theorem hubs_per_agent_iff (hubDir : Utf16) (agents : List AgentRuntimeSpec) :
    HubPerAgent hubDir agents ↔
      ∀ spec ∈ enabledAgents agents, ∀ spec' ∈ enabledAgents agents,
        Collide spec.agentId spec'.agentId → spec.agentId = spec'.agentId := by
  have hrecord : ∀ {id path}, (hubRecords hubDir agents).get? id = some path ↔
      (∃ spec ∈ enabledAgents agents, spec.agentId = id) ∧ hubPathFor hubDir id = path := by
    intro id path
    rw [get?_hubRecords, ← List.mem_map]
    split
    next hmem => rw [Option.some.injEq, and_iff_right hmem]
    next hmem => exact ⟨fun h => (by cases h), fun h => absurd h.1 hmem⟩
  constructor
  · intro h spec hspec spec' hspec' hcollide
    exact h.distinct _ _ _ (hrecord.mpr ⟨⟨spec, hspec, rfl⟩, rfl⟩)
      (hrecord.mpr ⟨⟨spec', hspec', rfl⟩, ((hubPathFor_eq_iff hubDir _ _).mpr hcollide).symm⟩)
  · intro h
    refine ⟨?_, ?_⟩
    · intro id path hpath
      rw [← (hrecord.mp hpath).2]
      exact hubPathFor_below hubDir id
    · intro id id' path hpath hpath'
      obtain ⟨⟨spec, hspec, rfl⟩, heq⟩ := hrecord.mp hpath
      obtain ⟨⟨spec', hspec', rfl⟩, heq'⟩ := hrecord.mp hpath'
      exact h spec hspec spec' hspec' ((hubPathFor_eq_iff hubDir _ _).mp (heq.trans heq'.symm))

/-- The agents `a/b` and `a_b` have one hub. -/
theorem slash_shares_hub : ¬ ∀ (hubDir : Utf16) (agents : List AgentRuntimeSpec),
    (agents.map AgentRuntimeSpec.agentId).Nodup → HubPerAgent hubDir agents := by
  intro h
  have hrecords := h (ascii "/hubs") [⟨ascii "a/b", none⟩, ⟨ascii "a_b", none⟩] (by decide)
  have hsame := hrecords.distinct (ascii "a/b") (ascii "a_b")
    (hubPathFor (ascii "/hubs") (ascii "a_b")) (by decide +kernel) (by decide +kernel)
  exact absurd hsame (by decide)

end Kovael.Supervisor
