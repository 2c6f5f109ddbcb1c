import Kovael.Runtime.Arguments

/-!
# The handoff to an adapter

What `main` of `scripts/kovael-agent-inbox.mjs` makes of the arguments and of the environment with
which the supervisor spawns it. `handoff` says that it starts with the configuration that the
specification means, for every specification whose values a flag can carry, and that it exits
exactly when `KOVAEL_TOKEN` is set to nothing over a `KOVAEL_API_TOKEN`.
-/

namespace Kovael.Runtime

open Js (OrderedMap Json after? after?_eq_some_iff commaItems parseInt trim)

/-! ## What a flag carries -/

/-- What `parseArgs` does with an option. -/
def assignOption (args : InboxArgs) (key : String) (value : Option String) : InboxArgs :=
  match value with
  | some next => assign args key next
  | none => args

/-- What `parseArgs` does with a switch. -/
def assignSwitch (args : InboxArgs) (key : String) (due : Bool) : InboxArgs :=
  if due then args.set key .yes else args

theorem parseFrom_option {flag key : String} (hflag : after? "--" flag = some key)
    (hkey : switches.lookup key = none) {value : Option String}
    (hvalue : ∀ v ∈ value, isFlag v = false) (args : InboxArgs) (rest : List String) :
    parseFrom args (pushOption flag value ++ rest)
      = parseFrom (assignOption args key value) rest := by
  cases value with
  | none => rfl
  | some v =>
    show parseFrom args (flag :: v :: rest) = parseFrom (assign args key v) rest
    rw [parseFrom, hflag]
    dsimp only
    rw [hkey]
    dsimp only
    rw [hvalue v rfl, if_neg Bool.false_ne_true]

theorem parseFrom_switch {flag key switch : String} (hflag : after? "--" flag = some key)
    (hkey : switches.lookup key = some switch) (due : Bool) (args : InboxArgs)
    (rest : List String) :
    parseFrom args (pushSwitch flag due ++ rest)
      = parseFrom (assignSwitch args switch due) rest := by
  cases due with
  | false => rfl
  | true =>
    show parseFrom args (flag :: rest) = parseFrom (args.set switch .yes) rest
    rw [parseFrom, hflag]
    dsimp only
    rw [hkey]

/-- The arguments of an adapter, after its flags. -/
def handedArgs (sup : Supervisor) (env : String → Option String) (spec : AgentRuntimeSpec)
    (host hubPath : String) : InboxArgs :=
  let args : InboxArgs := OrderedMap.empty.set "capabilities" (.items [])
  let args := assignOption args "id" (some spec.agentId)
  let args := assignOption args "provider" (some spec.provider)
  let args := assignOption args "runtime" (some spec.runtime)
  let args := assignOption args "host" (some host)
  let args := assignOption args "cwd" (some (spec.cwd.getD sup.cwd))
  let args := assignOption args "hub-path" (some hubPath)
  let args := assignOption args "capabilities" (joined? spec.capabilities)
  let args := assignOption args "trust" (spec.trustTier.map toString)
  let args := assignOption args "model" (truthy? spec.model)
  let args := assignOption args "command" (spec.ofCommand spec.command)
  let args := assignOption args "command-args" (spec.ofCommand (stringified? spec.args))
  let args := assignOption args "allow-env" (spec.ofCommand (joined? spec.allowEnv))
  let args := assignSwitch args "requireHubEncryption" (sup.hubEncryptionRequired env)
  assignSwitch args "withToken" ((truthy? (env "KOVAEL_API_TOKEN")).isSome ||
    (truthy? (env "KOVAEL_TOKEN")).isSome)

/-- A value that follows its flag. -/
structure Carried (value : String) : Prop where
  nonempty : value ≠ ""
  plain : isFlag value = false

/-- An item that is separated from the others by commas. -/
structure IsItem (item : String) : Prop where
  nonempty : item ≠ ""
  whole : ',' ∉ item.toList
  trimmed : trim item = item
  plain : isFlag item = false

/-- The values of a specification that flags can carry. -/
structure Sendable (sup : Supervisor) (spec : AgentRuntimeSpec) (host hubPath : String) : Prop where
  id : Carried spec.agentId
  charset : acceptsId spec.agentId = true
  provider : Carried spec.provider
  runtime : Carried spec.runtime
  host : Carried host
  cwd : Carried (spec.cwd.getD sup.cwd)
  hubPath : Carried hubPath
  capabilities : ∀ item ∈ spec.capabilities.getD [], IsItem item
  model : ∀ model ∈ spec.model, isFlag model = false
  command : ∀ command ∈ spec.command, isFlag command = false
  allowEnv : ∀ item ∈ spec.allowEnv.getD [], IsItem item

theorem isFlag_iff (s : String) : isFlag s = true ↔ ['-', '-'] <+: s.toList := by
  rw [isFlag, after?]
  split
  next h => exact ⟨fun _ => List.isPrefixOf_iff_prefix.mp h, fun _ => rfl⟩
  next h =>
    exact ⟨fun habsurd => (absurd habsurd (by simp)),
      fun hp => absurd (List.isPrefixOf_iff_prefix.mpr hp) h⟩

/-- Items that are joined begin like the first of them. -/
theorem isFlag_joined {items : List String} (h : ∀ item ∈ items, IsItem item) :
    isFlag (",".intercalate items) = false := by
  cases hflag : isFlag (",".intercalate items) with
  | false => rfl
  | true =>
    rw [isFlag_iff, String.toList_intercalate] at hflag
    cases items with
    | nil => exact absurd hflag (by decide)
    | cons item items =>
      have hitem := h item (List.mem_cons_self ..)
      have hcut : ∀ tail : List Char, ['-', '-'] <+: item.toList ++ ',' :: tail →
          ['-', '-'] <+: item.toList := by
        intro tail hp
        have hne : item.toList ≠ [] := fun hnil =>
          hitem.nonempty (String.toList_injective hnil)
        match htext : item.toList with
        | [] => exact absurd htext hne
        | [c] =>
          rw [htext, List.singleton_append, List.cons_prefix_cons, List.cons_prefix_cons] at hp
          exact absurd hp.2.1 (by decide)
        | c :: d :: cs =>
          rw [htext, List.cons_append, List.cons_append, List.cons_prefix_cons,
            List.cons_prefix_cons] at hp
          obtain ⟨rfl, rfl, -⟩ := hp
          exact ⟨cs, rfl⟩
      have hprefix : ['-', '-'] <+: item.toList := by
        cases items with
        | nil => simpa using hflag
        | cons next items =>
          refine hcut ([','].intercalate ((next :: items).map String.toList)) (hflag.trans ?_)
          rw [List.map_cons, List.map_cons, List.intercalate_cons_cons]
          exact (by simp)
      exact absurd ((isFlag_iff item).mpr hprefix) (by rw [hitem.plain]; exact Bool.false_ne_true)

/-- Items that are joined are read back. -/
theorem commaItems_joined {items : List String} (h : ∀ item ∈ items, IsItem item)
    (hne : items ≠ []) :
    commaItems (",".intercalate items) = items := by
  have hsplit : (",".intercalate items).toList.splitOn ',' = items.map String.toList := by
    rw [String.toList_intercalate]
    refine List.splitOn_intercalate ',' ?_ (fun hnil => hne (List.map_eq_nil_iff.mp hnil))
    intro cs hcs
    obtain ⟨item, hitem, rfl⟩ := List.mem_map.mp hcs
    exact (h item hitem).whole
  rw [commaItems, hsplit, List.map_map]
  have hmap : items.map ((fun part => trim (String.ofList part)) ∘ String.toList) = items := by
    refine (List.map_congr_left fun item hitem => ?_).trans (List.map_id items)
    show trim (String.ofList item.toList) = item
    rw [String.ofList_toList, (h item hitem).trimmed]
  rw [hmap, List.filter_eq_self]
  exact fun item hitem => decide_eq_true (h item hitem).nonempty

/-- The digits of a number. -/
theorem digits_ten (n : Nat) : ∃ d ds, Nat.toDigits 10 n = d :: ds ∧ d.isDigit = true ∧
    (d :: ds).takeWhile Char.isDigit = d :: ds := by
  have hall : ∀ c ∈ Nat.toDigits 10 n, c.isDigit = true := fun c hc =>
    Nat.isDigit_of_mem_toDigits (by decide) le_rfl hc
  cases htext : Nat.toDigits 10 n with
  | nil => exact absurd htext Nat.toDigits_ne_nil
  | cons d ds =>
    rw [htext] at hall
    exact ⟨d, ds, rfl, hall d (List.mem_cons_self ..), List.takeWhile_eq_self_iff.mpr hall⟩

theorem toList_int (n : Int) : (toString n).toList
    = if n < 0 then '-' :: Nat.toDigits 10 n.natAbs else Nat.toDigits 10 n.natAbs := by
  cases n with
  | ofNat n =>
    have hpos : ¬Int.ofNat n < 0 := Int.not_lt.mpr (Int.natCast_nonneg n)
    rw [if_neg hpos]
    exact Nat.toList_repr
  | negSucc n =>
    rw [if_pos (Int.negSucc_lt_zero n)]
    show ("-" ++ (n + 1).repr).toList = _
    rw [String.toList_append, Nat.toList_repr]
    rfl

theorem ne_of_isDigit {d c : Char} (hd : d.isDigit = true) (hc : c.isDigit = false) : d ≠ c := by
  intro heq
  rw [heq, hc] at hd
  exact Bool.noConfusion hd

theorem isFlag_toString (n : Int) : isFlag (toString n) = false := by
  cases hflag : isFlag (toString n) with
  | false => rfl
  | true =>
    obtain ⟨d, ds, htext, hd, -⟩ := digits_ten n.natAbs
    rw [isFlag_iff, toList_int, htext] at hflag
    have hne : d ≠ '-' := ne_of_isDigit hd (by decide)
    split at hflag
    next =>
      rw [List.cons_prefix_cons, List.cons_prefix_cons] at hflag
      exact absurd hflag.2.1.symm hne
    next =>
      rw [List.cons_prefix_cons] at hflag
      exact absurd hflag.1.symm hne

theorem isWhitespace_of_isDigit {d : Char} (hd : d.isDigit = true) : Js.isWhitespace d = false := by
  have hrange := Char.isDigit_iff_toNat.mp hd
  have h0 : '0'.toNat = 48 := rfl
  have h9 : '9'.toNat = 57 := rfl
  unfold Js.isWhitespace
  simp only [Bool.or_eq_false_iff, Bool.and_eq_false_iff, decide_eq_false_iff_not]
  omega

theorem parseInt_toString (n : Int) : parseInt (toString n) = some n := by
  obtain ⟨d, ds, htext, hd, hwhile⟩ := digits_ten n.natAbs
  have hvalue : Nat.ofDigitChars 10 (d :: ds) 0 = n.natAbs := by
    rw [← htext, Nat.ofDigitChars_ten_toDigits]
  have hspace : ¬Js.isWhitespace d = true := by simp [isWhitespace_of_isDigit hd]
  rw [parseInt, toList_int, htext]
  by_cases hneg : n < 0
  · rw [if_pos hneg, List.dropWhile_cons_of_neg (by decide)]
    show ((if (d :: ds).takeWhile Char.isDigit = [] then none
      else some (Nat.ofDigitChars 10 ((d :: ds).takeWhile Char.isDigit) 0)) >>=
        fun m : Nat => some (m : Int)).map (fun m => -m) = some n
    rw [hwhile, if_neg (List.cons_ne_nil _ _), hvalue]
    show some (-(n.natAbs : Int)) = some n
    rw [Option.some.injEq]
    omega
  · rw [if_neg hneg, List.dropWhile_cons_of_neg hspace]
    split
    next heq => exact absurd (List.cons.inj heq).1 (ne_of_isDigit hd (by decide))
    next heq => exact absurd (List.cons.inj heq).1 (ne_of_isDigit hd (by decide))
    next =>
      show ((if (d :: ds).takeWhile Char.isDigit = [] then none
        else some (Nat.ofDigitChars 10 ((d :: ds).takeWhile Char.isDigit) 0)) >>=
          fun m : Nat => some (m : Int)).map (fun m => m) = some n
      rw [hwhile, if_neg (List.cons_ne_nil _ _), hvalue]
      show some (n.natAbs : Int) = some n
      rw [Option.some.injEq]
      omega

/-! ## What is read back -/

/-- A key that takes a text. -/
def IsTextKey (key : String) : Prop :=
  key ∉ ["capabilities", "trust", "port", "timeout-ms", "__proto__"]

instance (key : String) : Decidable (IsTextKey key) := inferInstanceAs (Decidable (key ∉ _))

theorem get?_assign_text {key : String} (hkey : IsTextKey key) (args : InboxArgs)
    (value : Option String) (k : String) : (assignOption args key value).get? k
      = if k = key then (value.map ArgValue.text).or (args.get? k) else args.get? k := by
  simp only [IsTextKey, List.mem_cons, not_or, List.not_mem_nil, not_false_eq_true,
    and_true] at hkey
  obtain ⟨h1, h2, h3, h4, h5⟩ := hkey
  cases value with
  | none => simp [assignOption]
  | some next =>
    rw [assignOption, assign, if_neg h1, if_neg h2, if_neg h3, if_neg h4, if_neg h5]
    exact OrderedMap.get?_set ..

theorem get?_assign_capabilities (args : InboxArgs) (value : Option String) (k : String) :
    (assignOption args "capabilities" value).get? k
      = if k = "capabilities" then (value.map fun v => .items (commaItems v)).or (args.get? k)
        else args.get? k := by
  cases value with
  | none => simp [assignOption]
  | some next => exact OrderedMap.get?_set ..

theorem get?_assign_trust (args : InboxArgs) (value : Option Int) (k : String) :
    (assignOption args "trust" (value.map toString)).get? k
      = if k = "trust" then (value.map ArgValue.number).or (args.get? k) else args.get? k := by
  cases value with
  | none => simp [assignOption]
  | some n =>
    show (assignNumber args "trust" (toString n)).get? k = _
    rw [assignNumber, parseInt_toString]
    exact OrderedMap.get?_set ..

theorem get?_assignSwitch (args : InboxArgs) (key : String) (due : Bool) (k : String) :
    (assignSwitch args key due).get? k
      = if k = key ∧ due = true then some .yes else args.get? k := by
  cases due with
  | false => simp [assignSwitch]
  | true =>
    rw [assignSwitch, if_pos rfl, OrderedMap.get?_set]
    simp

section

variable {sup : Supervisor} {env : String → Option String} {spec : AgentRuntimeSpec}
  {host hubPath : String}

theorem isFlag_stringified (items : List String) :
    isFlag (Json.stringify (.array (items.map .string))) = false := by
  cases hflag : isFlag (Json.stringify (.array (items.map .string))) with
  | false => rfl
  | true =>
    rw [isFlag_iff, Json.toList_array, List.cons_prefix_cons] at hflag
    exact absurd hflag.1 (by decide)

theorem isFlag_ofCommand {field : Option String} (h : ∀ v ∈ field, isFlag v = false) :
    ∀ v ∈ spec.ofCommand field, isFlag v = false := by
  intro v hv
  rw [AgentRuntimeSpec.ofCommand] at hv
  split at hv
  next => exact h v hv
  next => exact absurd hv (by simp)

theorem isFlag_joined? {items : Option (List String)} (h : ∀ item ∈ items.getD [], IsItem item) :
    ∀ v ∈ joined? items, isFlag v = false := by
  intro v hv
  obtain ⟨xs, hxs, rfl⟩ := Option.map_eq_some_iff.mp hv
  obtain ⟨hxs, -⟩ := Option.filter_eq_some_iff.mp hxs
  rw [hxs] at h
  exact isFlag_joined h

/-- What the adapter parses is what the supervisor meant. -/
theorem parseArgs_argsFor (h : Sendable sup spec host hubPath) :
    parseArgs (argsFor sup env spec host hubPath).tail = handedArgs sup env spec host hubPath := by
  have hsome : ∀ {value : String}, Carried value → ∀ v ∈ some value, isFlag v = false := by
    intro value hvalue v hv
    rw [← Option.some.inj hv]
    exact hvalue.plain
  have htrust : ∀ v ∈ spec.trustTier.map toString, isFlag v = false := by
    intro v hv
    obtain ⟨n, -, rfl⟩ := Option.map_eq_some_iff.mp hv
    exact isFlag_toString n
  have hmodel : ∀ v ∈ truthy? spec.model, isFlag v = false := fun v hv =>
    h.model v (Option.filter_eq_some_iff.mp hv).1
  have hargs : ∀ v ∈ stringified? spec.args, isFlag v = false := by
    intro v hv
    obtain ⟨xs, -, rfl⟩ := Option.map_eq_some_iff.mp hv
    exact isFlag_stringified xs
  rw [argsFor, List.singleton_append, List.tail_cons, parseArgs]
  rw [parseFrom_option (show after? "--" "--id" = some "id" from rfl) rfl (hsome h.id),
    parseFrom_option (show after? "--" "--provider" = some "provider" from rfl) rfl
      (hsome h.provider),
    parseFrom_option (show after? "--" "--runtime" = some "runtime" from rfl) rfl
      (hsome h.runtime),
    parseFrom_option (show after? "--" "--host" = some "host" from rfl) rfl (hsome h.host),
    parseFrom_option (show after? "--" "--cwd" = some "cwd" from rfl) rfl (hsome h.cwd),
    parseFrom_option (show after? "--" "--hub-path" = some "hub-path" from rfl) rfl
      (hsome h.hubPath),
    parseFrom_option (show after? "--" "--capabilities" = some "capabilities" from rfl) rfl
      (isFlag_joined? h.capabilities),
    parseFrom_option (show after? "--" "--trust" = some "trust" from rfl) rfl htrust,
    parseFrom_option (show after? "--" "--model" = some "model" from rfl) rfl hmodel,
    parseFrom_option (show after? "--" "--command" = some "command" from rfl) rfl
      (isFlag_ofCommand h.command),
    parseFrom_option (show after? "--" "--command-args" = some "command-args" from rfl) rfl
      (isFlag_ofCommand hargs),
    parseFrom_option (show after? "--" "--allow-env" = some "allow-env" from rfl) rfl
      (isFlag_ofCommand (isFlag_joined? h.allowEnv)),
    parseFrom_switch (show after? "--" "--require-hub-encryption" = some "require-hub-encryption"
      from rfl) rfl,
    parseFrom_switch (show after? "--" "--with-token" = some "with-token" from rfl) rfl]
  rfl

/-- What the adapter finds under its keys. -/
structure Told (sup : Supervisor) (env : String → Option String) (spec : AgentRuntimeSpec)
    (host hubPath : String) (args : InboxArgs) : Prop where
  id : args.get? "id" = some (.text spec.agentId)
  provider : args.get? "provider" = some (.text spec.provider)
  runtime : args.get? "runtime" = some (.text spec.runtime)
  host : args.get? "host" = some (.text host)
  cwd : args.get? "cwd" = some (.text (spec.cwd.getD sup.cwd))
  hubPath : args.get? "hub-path" = some (.text hubPath)
  capabilities : args.get? "capabilities"
    = some (.items (((joined? spec.capabilities).map commaItems).getD []))
  trust : args.get? "trust" = spec.trustTier.map .number
  model : args.get? "model" = (truthy? spec.model).map .text
  command : args.get? "command" = (spec.ofCommand spec.command).map .text
  commandArgs : args.get? "command-args" = (spec.ofCommand (stringified? spec.args)).map .text
  allowEnv : args.get? "allow-env" = (spec.ofCommand (joined? spec.allowEnv)).map .text
  encryption : args.get? "requireHubEncryption"
    = if sup.hubEncryptionRequired env then some .yes else none
  withToken : args.get? "withToken" =
    if (truthy? (env "KOVAEL_API_TOKEN")).isSome || (truthy? (env "KOVAEL_TOKEN")).isSome then
      some .yes
    else none
  others : ∀ k ∈ ["token", "port", "codex-bin", "claude-bin", "timeoutMs", "note"],
    args.get? k = none

theorem told_handedArgs (sup : Supervisor) (env : String → Option String) (spec : AgentRuntimeSpec)
    (host hubPath : String) :
    Told sup env spec host hubPath (handedArgs sup env spec host hubPath) := by
  have hothers : ∀ k ∈ ["token", "port", "codex-bin", "claude-bin", "timeoutMs", "note"],
      (handedArgs sup env spec host hubPath).get? k = none := by
    intro k hk
    simp only [List.mem_cons, List.not_mem_nil, or_false] at hk
    obtain rfl | rfl | rfl | rfl | rfl | rfl := hk <;>
      simp (disch := decide) [handedArgs, get?_assignSwitch, get?_assign_text, get?_assign_trust,
        get?_assign_capabilities, OrderedMap.get?_set]
  refine ⟨?_, ?_, ?_, ?_, ?_, ?_, ?_, ?_, ?_, ?_, ?_, ?_, ?_, ?_, hothers⟩ <;>
    simp (disch := decide) [handedArgs, get?_assignSwitch, get?_assign_text, get?_assign_trust,
      get?_assign_capabilities, OrderedMap.get?_set]
  -- what is left is the list of the capabilities, which is empty unless the flag is there
  cases joined? spec.capabilities with
  | none => rfl
  | some v => rfl

end

/-! ## The environment of an adapter -/

/-- `process.env` of the adapter that the supervisor spawns for a specification. -/
def adapterEnv (p : Platform) (sup : Supervisor) (source : ProcessEnv p) (spec : AgentRuntimeSpec) :
    ProcessEnv p :=
  p.spawned (childEnv p source.get (sup.hubEncryptionRequired source.get) spec.runtime
    (spec.allowEnv.getD []))

/-- The names that are denied are in upper case. -/
theorem upper_denied (p : Platform) {denied : String} (h : denied ∈ commandEnvDenylist) :
    p.toUpperCase denied = denied := by
  have hall : ∀ name ∈ commandEnvDenylist,
      (name.toList.all fun c => c.toNat < 128) = true ∧ asciiUpper name = name := by
    decide
  obtain ⟨hascii, hupper⟩ := hall denied h
  rw [p.upper_ascii denied hascii, hupper]

/-- A variable that is denied is in the adapter under its own name only. -/
theorem denied_alone {p : Platform} {source : String → Option String} {required : Bool}
    {runtime : String} {named : List String} {denied : String}
    (hdenied : denied ∈ commandEnvDenylist)
    {key v : String} (hkey : (childEnv p source required runtime named).get? key = some v)
    (hupper : p.toUpperCase key = p.toUpperCase denied) : key = denied := by
  have hisDenied : isDeniedCommandEnvName p key = true :=
    List.any_eq_true.mpr ⟨denied, hdenied, decide_eq_true (hupper.trans (upper_denied p hdenied))⟩
  have hown : key ∈ commandEnvDenylist → key = denied := by
    intro hmem
    rw [← upper_denied p hmem, hupper, upper_denied p hdenied]
  cases childEnv_some hkey with
  | listed hlisted _ =>
    exact absurd (located_allowed p (List.mem_append_left _ hlisted)) (by simp [hisDenied])
  | token heq => exact hown (by rw [heq]; decide)
  | dispatch heq => exact hown (by rw [heq]; decide)
  | hub heq => exact hown (by rw [heq]; decide)
  | encryption heq => exact hown (by rw [heq]; decide)
  | allow _ heq _ =>
    have hallowed := located_allowed p (List.mem_append_right _ (List.mem_singleton.mpr heq))
    exact absurd hallowed (by simp [hisDenied])
  | named _ _ hallowed _ => exact absurd hallowed (by simp [hisDenied])

/-- The variables that are denied come from `buildAgentAdapterEnv` alone. -/
theorem get?_childEnv_denied (p : Platform) (source : String → Option String) (required : Bool)
    (runtime : String) (named : List String) {denied : String}
    (hdenied : denied ∈ commandEnvDenylist) :
    (childEnv p source required runtime named).get? denied
      = (buildAgentAdapterEnv source required).get? denied := by
  rw [childEnv]
  split
  next =>
    have hleft : denied ∉ named.filter fun name => !isDeniedCommandEnvName p name := by
      intro hmem
      have hallowed := (List.mem_filter.mp hmem).2
      rw [denied_of_same p hdenied (p.same_refl denied)] at hallowed
      exact Bool.noConfusion hallowed
    have hne : denied ≠ commandAdapterAllowEnv := by
      intro heq
      rw [heq] at hdenied
      exact absurd hdenied (by decide)
    rw [addAllowed, get?_copyAllowlisted, if_neg hleft, get?_setTruthy, if_neg hne]
  next => rfl

theorem get?_copied (source : String → Option String) {denied : String}
    (hdenied : denied ∈ commandEnvDenylist) :
    (copyAllowlisted source (copyAllowlisted source (copyAllowlisted source .empty
      platformEnvAllowlist) proxyEnvAllowlist) runtimeLocatorEnvAllowlist).get? denied = none := by
  have hall : ∀ name ∈ commandEnvDenylist, name ∉ runtimeLocatorEnvAllowlist ∧
      name ∉ proxyEnvAllowlist ∧ name ∉ platformEnvAllowlist := by
    decide
  obtain ⟨h1, h2, h3⟩ := hall denied hdenied
  rw [get?_copyAllowlisted, if_neg h1, get?_copyAllowlisted, if_neg h2, get?_copyAllowlisted,
    if_neg h3, OrderedMap.get?_empty]

section

variable (p : Platform) (sup : Supervisor) (source : ProcessEnv p) (spec : AgentRuntimeSpec)

theorem adapterEnv_denied {denied : String} (hdenied : denied ∈ commandEnvDenylist) :
    (adapterEnv p sup source spec).get denied
      = (buildAgentAdapterEnv source.get (sup.hubEncryptionRequired source.get)).get? denied := by
  rw [adapterEnv, p.spawned_alone fun key v hkey hupper => denied_alone hdenied hkey hupper]
  exact get?_childEnv_denied p _ _ _ _ hdenied

theorem adapterEnv_token : (adapterEnv p sup source spec).get "KOVAEL_TOKEN"
    = truthy? ((source.get "KOVAEL_TOKEN").or (source.get "KOVAEL_API_TOKEN")) := by
  rw [adapterEnv_denied p sup source spec (by decide)]
  have hcopied := get?_copied source.get (show "KOVAEL_TOKEN" ∈ commandEnvDenylist by decide)
  cases sup.hubEncryptionRequired source.get <;>
    simp [buildAgentAdapterEnv, OrderedMap.get?_set, get?_setTruthy, hcopied, agentHubSecretEnv,
      agentHubEncryptionEnv]

theorem adapterEnv_dispatch : (adapterEnv p sup source spec).get "KOVAEL_CHAIR_DISPATCH_SECRET"
    = truthy? (source.get "KOVAEL_CHAIR_DISPATCH_SECRET") := by
  rw [adapterEnv_denied p sup source spec (by decide)]
  have hcopied := get?_copied source.get
    (show "KOVAEL_CHAIR_DISPATCH_SECRET" ∈ commandEnvDenylist by decide)
  cases sup.hubEncryptionRequired source.get <;>
    simp [buildAgentAdapterEnv, OrderedMap.get?_set, get?_setTruthy, hcopied, agentHubSecretEnv,
      agentHubEncryptionEnv]

theorem adapterEnv_hub : (adapterEnv p sup source spec).get agentHubSecretEnv
    = truthy? (source.get agentHubSecretEnv) := by
  rw [adapterEnv_denied p sup source spec (by decide)]
  have hcopied := get?_copied source.get
    (show "KOVAEL_AGENT_HUB_SECRET" ∈ commandEnvDenylist by decide)
  cases sup.hubEncryptionRequired source.get <;>
    simp [buildAgentAdapterEnv, OrderedMap.get?_set, get?_setTruthy, hcopied, agentHubSecretEnv,
      agentHubEncryptionEnv]

end

/-! ## The handoff -/

/-- The configuration that a specification means, for an adapter with the environment `env`. -/
def meantConfig (sup : Supervisor) (env : String → Option String) (spec : AgentRuntimeSpec)
    (host hubPath : String) : InboxConfig where
  id := spec.agentId
  provider := spec.provider
  runtime := spec.runtime
  host := host
  port := 0
  cwd := spec.cwd.getD sup.cwd
  model := truthy? spec.model
  command := spec.ofCommand spec.command
  commandArgs := (spec.ofCommand spec.args).getD []
  allowEnv := (spec.ofCommand spec.allowEnv).getD []
  codexBin := none
  claudeBin := none
  timeoutMs := none
  replyTimeoutMs := readPositiveInt (env "KOVAEL_CHAIR_REPLY_TIMEOUT_MS") 15000
  replyRetryBaseMs := readPositiveInt (env "KOVAEL_CHAIR_REPLY_RETRY_BASE_MS") 100
  outboxMaxAttempts := readPositiveInt (env "KOVAEL_AGENT_OUTBOX_MAX_ATTEMPTS") 5
  outboxLeaseMs := readPositiveInt (env "KOVAEL_AGENT_OUTBOX_LEASE_MS") 30000
  outboxDrainIntervalMs := readPositiveInt (env "KOVAEL_AGENT_OUTBOX_DRAIN_INTERVAL_MS") 100
  capabilities := spec.capabilities.getD []
  trust := spec.trustTier
  note := none
  hubPath := hubPath
  requireHubEncryption := true

section

variable {sup : Supervisor} {env : String → Option String} {spec : AgentRuntimeSpec}
  {host hubPath : String} {args : InboxArgs}

theorem truthy?_of_carried {v : String} (h : Carried v) : truthy? (some v) = some v :=
  Option.filter_eq_some_iff.mpr ⟨rfl, decide_eq_true h.nonempty⟩

theorem textArg_some {key v : String} (h : args.get? key = some (.text v)) :
    textArg args key = some v := by
  rw [textArg, h]
  rfl

theorem textArg_map {key : String} {value : Option String}
    (h : args.get? key = value.map .text) : textArg args key = value := by
  rw [textArg, h]
  cases value with
  | none => rfl
  | some v => rfl

/-- The items that were joined for a flag. -/
theorem commaItems_joined? {items : Option (List String)}
    (h : ∀ item ∈ items.getD [], IsItem item) :
    ((joined? items).map commaItems).getD [] = items.getD [] := by
  cases items with
  | none => rfl
  | some xs =>
    by_cases hxs : xs = []
    · subst hxs
      rfl
    · have hjoined : joined? (some xs) = some (",".intercalate xs) := by simp [joined?, hxs]
      rw [hjoined]
      exact commaItems_joined h hxs

theorem strings_map (items : List String) : strings (items.map .string) = items := by
  rw [strings, List.filterMap_map]
  exact List.filterMap_some

theorem held_strings (number : String → String) (items : List String) :
    Json.Held number (.array (items.map .string)) := by
  rw [Json.Held]
  induction items with
  | nil => trivial
  | cons item items ih => exact ⟨trivial, ih⟩

/-- The arguments of a command are read back. -/
theorem parseCommandArgs_stringified (number : String → String) (items : Option (List String)) :
    parseCommandArgsArg number (stringified? items) = items.getD [] := by
  cases items with
  | none => rfl
  | some xs =>
    by_cases hxs : xs = []
    · subst hxs
      rfl
    · have htext : stringified? (some xs) = some (Json.stringify (.array (xs.map .string))) := by
        simp [stringified?, hxs]
      have hne : Json.stringify (.array (xs.map .string)) ≠ "" := by
        intro habsurd
        have hchars := congrArg String.toList habsurd
        rw [Json.toList_array] at hchars
        exact absurd hchars (by simp)
      have htruthy : truthy? (some (Json.stringify (.array (xs.map .string))))
          = some (Json.stringify (.array (xs.map .string))) :=
        Option.filter_eq_some_iff.mpr ⟨rfl, decide_eq_true hne⟩
      rw [htext, parseCommandArgsArg, htruthy, Option.bind_some,
        Json.parse_stringify number (held_strings number xs)]
      exact strings_map xs

/-- The configuration that `main` builds is the one that is meant. -/
theorem configOf_told (adapter : AdapterHost) (hsend : Sendable sup spec host hubPath)
    (henc : sup.hubEncryptionRequired env = true) {env' : String → Option String}
    (h : Told sup env spec host hubPath args) :
    configOf adapter env' args spec.agentId spec.provider spec.runtime
      = meantConfig sup env' spec host hubPath := by
  have hother : ∀ key ∈ ["token", "port", "codex-bin", "claude-bin", "timeoutMs", "note"],
      textArg args key = none ∧ numberArg args key = none := by
    intro key hkey
    rw [textArg, numberArg, h.others key hkey]
    exact ⟨rfl, rfl⟩
  have htrust : numberArg args "trust" = spec.trustTier := by
    rw [numberArg, h.trust]
    cases spec.trustTier with
    | none => rfl
    | some n => rfl
  have hcapabilities : itemsArg args "capabilities" = spec.capabilities.getD [] := by
    rw [itemsArg, h.capabilities]
    exact commaItems_joined? hsend.capabilities
  have hargs : parseCommandArgsArg adapter.number (textArg args "command-args")
      = (spec.ofCommand spec.args).getD [] := by
    rw [textArg_map h.commandArgs, AgentRuntimeSpec.ofCommand, AgentRuntimeSpec.ofCommand]
    split
    next => exact parseCommandArgs_stringified adapter.number spec.args
    next => rfl
  have hallow : parseCsvArg (textArg args "allow-env")
      = (spec.ofCommand spec.allowEnv).getD [] := by
    rw [textArg_map h.allowEnv, AgentRuntimeSpec.ofCommand, AgentRuntimeSpec.ofCommand, parseCsvArg]
    split
    next => exact commaItems_joined? hsend.allowEnv
    next => rfl
  have hrequired : isSet args "requireHubEncryption" = true := by
    rw [isSet, h.encryption, if_pos henc]
    rfl
  have hkept : ∀ {key v : String}, args.get? key = some (.text v) → Carried v →
      truthy? (textArg args key) = some v := by
    intro key v hget hcarried
    rw [textArg_some hget, truthy?_of_carried hcarried]
  simp only [configOf, meantConfig, hkept h.host hsend.host, hkept h.cwd hsend.cwd,
    hkept h.hubPath hsend.hubPath, (hother "port" (by decide)).2,
    (hother "codex-bin" (by decide)).1, (hother "claude-bin" (by decide)).1,
    (hother "note" (by decide)).1, h.others "timeoutMs" (by decide), htrust, hcapabilities, hargs,
    hallow, hrequired, textArg_map h.model, textArg_map h.command, Option.some_or,
    Option.getD_some, Option.getD_none, Bool.true_or]

end

/-- The variables from which an adapter reads its numbers. -/
def settings : List String :=
  ["KOVAEL_CHAIR_REPLY_TIMEOUT_MS", "KOVAEL_CHAIR_REPLY_RETRY_BASE_MS",
    "KOVAEL_AGENT_OUTBOX_MAX_ATTEMPTS", "KOVAEL_AGENT_OUTBOX_LEASE_MS",
    "KOVAEL_AGENT_OUTBOX_DRAIN_INTERVAL_MS"]

/-- No setting of the operator reaches an adapter that does not run a command. -/
theorem adapterEnv_setting (p : Platform) (sup : Supervisor) (source : ProcessEnv p)
    (spec : AgentRuntimeSpec) (hplain : spec.runtime ≠ "command") {name : String}
    (hname : name ∈ settings) : (adapterEnv p sup source spec).get name = none := by
  have hsettings : ∀ name ∈ settings,
      (name.toList.all fun c => c.toNat < 128) = true ∧ asciiUpper name = name := by
    decide
  have hlisted : ∀ key ∈ platformEnvAllowlist ++ proxyEnvAllowlist ++ runtimeLocatorEnvAllowlist ++
      commandEnvDenylist,
      (key.toList.all fun c => c.toNat < 128) = true ∧ asciiUpper key ∉ settings := by
    decide
  rw [Option.eq_none_iff_forall_ne_some]
  intro v hget
  obtain ⟨key, hkey, hsame⟩ := p.spawned_some hget
  have hupper : p.toUpperCase key = name := by
    obtain ⟨hascii, heq⟩ := hsettings name hname
    rw [p.same_upper hsame, p.upper_ascii name hascii, heq]
  have hknown : key ∉ platformEnvAllowlist ++ proxyEnvAllowlist ++ runtimeLocatorEnvAllowlist ++
      commandEnvDenylist := by
    intro hmem
    obtain ⟨hascii, hfree⟩ := hlisted key hmem
    rw [p.upper_ascii key hascii] at hupper
    exact hfree (hupper ▸ hname)
  have hdenied : key ∉ commandEnvDenylist := fun hmem => hknown (List.mem_append_right _ hmem)
  cases childEnv_some hkey with
  | listed hmem _ => exact hknown (List.mem_append_left _ hmem)
  | token heq => exact hdenied (by rw [heq]; decide)
  | dispatch heq => exact hdenied (by rw [heq]; decide)
  | hub heq => exact hdenied (by rw [heq]; decide)
  | encryption heq => exact hdenied (by rw [heq]; decide)
  | allow hcommand _ _ => exact hplain hcommand
  | named hcommand _ _ _ => exact hplain hcommand

/-- What the supervisor and the adapter that it spawns agree on. -/
structure HandedOver (p : Platform) (adapter : AdapterHost) (sup : Supervisor)
    (source : ProcessEnv p) (spec : AgentRuntimeSpec) (host hubPath : String) : Prop where
  startup : startMain adapter (adapterEnv p sup source spec).get
      (argsFor sup source.get spec host hubPath).tail
    = if source.get "KOVAEL_TOKEN" = some "" ∧
          (truthy? (source.get "KOVAEL_API_TOKEN")).isSome = true then
        .exits "--with-token set but KOVAEL_TOKEN is empty"
      else
        .starts (meantConfig sup (adapterEnv p sup source spec).get spec host hubPath)
          (truthy? ((source.get "KOVAEL_TOKEN").or (source.get "KOVAEL_API_TOKEN")))
  dispatch : (adapterEnv p sup source spec).get "KOVAEL_CHAIR_DISPATCH_SECRET"
    = truthy? (source.get "KOVAEL_CHAIR_DISPATCH_SECRET")
  hub : (adapterEnv p sup source spec).get agentHubSecretEnv
    = truthy? (source.get agentHubSecretEnv)
  defaults : spec.runtime ≠ "command" → ∀ name ∈ settings,
    (adapterEnv p sup source spec).get name = none

/-- The secret of a hub is there for the adapter as well. -/
theorem adapterEnv_valid {p : Platform} {sup : Supervisor} {source : ProcessEnv p}
    {spec : AgentRuntimeSpec} (henabled : sup.enabled = true)
    (hsecret : sup.lacksSecret source.get = false) :
    isValidAgentHubSecret ((adapterEnv p sup source spec).get agentHubSecretEnv) = true := by
  have hvalid : isValidAgentHubSecret (source.get agentHubSecretEnv) = true := by
    rw [Supervisor.lacksSecret, Supervisor.hubEncryptionRequired, henabled] at hsecret
    simpa using hsecret
  rw [adapterEnv_hub]
  cases hget : source.get agentHubSecretEnv with
  | none =>
    rw [hget] at hvalid
    exact absurd hvalid Bool.false_ne_true
  | some secret =>
    rw [hget] at hvalid
    have hne : secret ≠ "" := by
      intro hempty
      have hshort : Js.length (trim "") = 0 := rfl
      rw [hempty, isValidAgentHubSecret, Option.any_some, hshort] at hvalid
      exact absurd hvalid (by decide)
    have htruthy : truthy? (some secret) = some secret :=
      Option.filter_eq_some_iff.mpr ⟨rfl, decide_eq_true hne⟩
    rw [htruthy]
    exact hvalid

/-- What becomes of the token, by what the operator set. -/
theorem bearerToken_told {sup : Supervisor} {env env' : String → Option String}
    {spec : AgentRuntimeSpec} {host hubPath : String} {args : InboxArgs}
    (h : Told sup env spec host hubPath args)
    (henv : env' "KOVAEL_TOKEN" = truthy? ((env "KOVAEL_TOKEN").or (env "KOVAEL_API_TOKEN"))) :
    bearerToken env' args
      = if env "KOVAEL_TOKEN" = some "" ∧ (truthy? (env "KOVAEL_API_TOKEN")).isSome = true then
          .error "--with-token set but KOVAEL_TOKEN is empty"
        else .ok (truthy? ((env "KOVAEL_TOKEN").or (env "KOVAEL_API_TOKEN"))) := by
  have hown : truthy? (textArg args "token") = none := by
    rw [textArg, h.others "token" (by decide)]
    rfl
  have hwith : isSet args "withToken" = ((truthy? (env "KOVAEL_API_TOKEN")).isSome ||
      (truthy? (env "KOVAEL_TOKEN")).isSome) := by
    rw [isSet, h.withToken]
    cases (truthy? (env "KOVAEL_API_TOKEN")).isSome || (truthy? (env "KOVAEL_TOKEN")).isSome <;> rfl
  have htwice : ∀ value, truthy? (truthy? value) = truthy? value := by
    intro value
    rw [truthy?, truthy?, Option.filter_filter]
    simp
  have hempty : truthy? (some "") = none := rfl
  rw [bearerToken, hown]
  dsimp only
  rw [hwith, henv, htwice]
  cases env "KOVAEL_TOKEN" with
  | none =>
    rw [Option.none_or]
    cases truthy? (env "KOVAEL_API_TOKEN") with
    | none => rfl
    | some v => rfl
  | some v =>
    rw [Option.some_or]
    by_cases hv : v = ""
    · -- the empty token hides the other one, which has `--with-token` sent all the same
      subst hv
      rw [hempty]
      cases truthy? (env "KOVAEL_API_TOKEN") with
      | none => rfl
      | some v => rfl
    · have htruthy : truthy? (some v) = some v :=
        Option.filter_eq_some_iff.mpr ⟨rfl, decide_eq_true hv⟩
      have hset : ¬(some v = some "" ∧ (truthy? (env "KOVAEL_API_TOKEN")).isSome = true) :=
        fun habsurd => hv (Option.some.inj habsurd.1)
      rw [htruthy, Option.isSome_some, Bool.or_true, if_neg hset]
      rfl

/-- The adapter starts with what the specification means. -/
theorem startMain_handed (p : Platform) (adapter : AdapterHost) (sup : Supervisor)
    (source : ProcessEnv p) (spec : AgentRuntimeSpec) (host hubPath : String)
    (henabled : sup.enabled = true) (hsecret : sup.lacksSecret source.get = false)
    (hsend : Sendable sup spec host hubPath) :
    startMain adapter (adapterEnv p sup source spec).get
        (argsFor sup source.get spec host hubPath).tail
      = if source.get "KOVAEL_TOKEN" = some "" ∧
            (truthy? (source.get "KOVAEL_API_TOKEN")).isSome = true then
          .exits "--with-token set but KOVAEL_TOKEN is empty"
        else
          .starts (meantConfig sup (adapterEnv p sup source spec).get spec host hubPath)
            (truthy? ((source.get "KOVAEL_TOKEN").or (source.get "KOVAEL_API_TOKEN"))) := by
  have henc : sup.hubEncryptionRequired source.get = true := by
    rw [Supervisor.hubEncryptionRequired, henabled, Bool.true_or]
  have htold := told_handedArgs sup source.get spec host hubPath
  have hid : truthy? (textArg (handedArgs sup source.get spec host hubPath) "id")
      = some spec.agentId := by
    rw [textArg_some htold.id, truthy?_of_carried hsend.id]
  have hprovider : truthy? (textArg (handedArgs sup source.get spec host hubPath) "provider")
      = some spec.provider := by
    rw [textArg_some htold.provider, truthy?_of_carried hsend.provider]
  have hruntime : truthy? (textArg (handedArgs sup source.get spec host hubPath) "runtime")
      = some spec.runtime := by
    rw [textArg_some htold.runtime, truthy?_of_carried hsend.runtime]
  have hvalid := @adapterEnv_valid p sup source spec henabled hsecret
  have hcharset : (!acceptsId spec.agentId) = false := by rw [hsend.charset]; rfl
  have hchecked : ((meantConfig sup (adapterEnv p sup source spec).get spec host
      hubPath).requireHubEncryption &&
        !isValidAgentHubSecret ((adapterEnv p sup source spec).get agentHubSecretEnv))
        = false := by
    rw [hvalid]
    rfl
  rw [startMain, parseArgs_argsFor hsend]
  dsimp only
  rw [hid]
  dsimp only
  rw [hcharset, if_neg Bool.false_ne_true, hprovider, hruntime]
  dsimp only
  rw [configOf_told adapter hsend henc htold, hchecked, if_neg Bool.false_ne_true,
    bearerToken_told htold (adapterEnv_token p sup source spec)]
  by_cases hhidden : source.get "KOVAEL_TOKEN" = some "" ∧
      (truthy? (source.get "KOVAEL_API_TOKEN")).isSome = true
  · rw [if_pos hhidden, if_pos hhidden]
  · rw [if_neg hhidden, if_neg hhidden]

/-- For every specification whose values a flag can carry. -/
theorem handoff (p : Platform) (adapter : AdapterHost) (sup : Supervisor) (source : ProcessEnv p)
    (spec : AgentRuntimeSpec) (host hubPath : String) (henabled : sup.enabled = true)
    (hsecret : sup.lacksSecret source.get = false) (hsend : Sendable sup spec host hubPath) :
    HandedOver p adapter sup source spec host hubPath where
  startup := startMain_handed p adapter sup source spec host hubPath henabled hsecret hsend
  dispatch := adapterEnv_dispatch p sup source spec
  hub := adapterEnv_hub p sup source spec
  defaults := fun hplain _ hname => adapterEnv_setting p sup source spec hplain hname

/-- An operator with an empty token over another one. -/
def hiddenToken : ProcessEnv caseless where
  get name :=
    if asciiUpper name = agentHubSecretEnv then some "an agent hub secret of forty characters."
    else if asciiUpper name = "KOVAEL_API_TOKEN" then some "token"
    else if asciiUpper name = "KOVAEL_TOKEN" then some ""
    else none
  respects := by
    intro a b h
    rw [of_decide_eq_true h]

def sampleManager : Supervisor := ⟨"scripts/kovael-agent-inbox.mjs", "/srv/kovael", true⟩

def sampleChair : AgentRuntimeSpec where
  agentId := "nyx-adk"
  provider := "Google"
  runtime := "command"
  capabilities := some ["python", "tool-use"]
  trustTier := some 2
  cwd := none
  model := none
  enabled := none
  command := some "python"
  args := some ["-m", "nyx_adk.inbox"]
  allowEnv := some ["KOVAEL_HOST"]

theorem sampleChair_sendable : Sendable sampleManager sampleChair "http://127.0.0.1:8080"
    "/srv/kovael/.kovael/agents/nyx-adk/agent-hub.sqlite" where
  id := ⟨by decide, by decide⟩
  charset := by decide
  provider := ⟨by decide, by decide⟩
  runtime := ⟨by decide, by decide⟩
  host := ⟨by decide, by decide⟩
  cwd := ⟨by decide, by decide⟩
  hubPath := ⟨by decide, by decide⟩
  capabilities := by
    intro item hitem
    rcases List.mem_cons.mp hitem with rfl | hitem
    · exact ⟨by decide, by decide, by decide, by decide⟩
    · obtain rfl := List.mem_singleton.mp hitem
      exact ⟨by decide, by decide, by decide, by decide⟩
  model := fun _ habsurd => (Option.some_ne_none _ habsurd.symm).elim
  command := by
    intro command hcommand
    obtain rfl := Option.some.inj hcommand
    decide
  allowEnv := by
    intro item hitem
    obtain rfl := List.mem_singleton.mp hitem
    exact ⟨by decide, by decide, by decide, by decide⟩

/-- A chair whose adapter exits, for want of the token. -/
theorem hidden_token_exits :
    HandedOver caseless ⟨"/srv/kovael", fun _ => "", id⟩ sampleManager hiddenToken sampleChair
      "http://127.0.0.1:8080" "/srv/kovael/.kovael/agents/nyx-adk/agent-hub.sqlite" ∧
    hiddenToken.get "KOVAEL_TOKEN" = some "" ∧
    hiddenToken.get "KOVAEL_API_TOKEN" = some "token" :=
  ⟨handoff caseless ⟨"/srv/kovael", fun _ => "", id⟩ sampleManager hiddenToken sampleChair
    "http://127.0.0.1:8080" "/srv/kovael/.kovael/agents/nyx-adk/agent-hub.sqlite" rfl
    (by decide +kernel) sampleChair_sendable, by decide, by decide⟩

end Kovael.Runtime
