import Kovael.Workflow.Loader

/-!
# Hot reload

After any sequence of reloads, every setting has the value of the last valid
document that has the field, or its value at boot (`settings_eq_overlay`). A fresh
boot looks at the last document only, so the two agree exactly if no earlier
document leaves a value behind (`reload_eq_boot_iff`).
-/

namespace Kovael.Workflow

open Claims (RetryConfig)

variable {α : Type} {retry : RetryConfig}

/-- The configuration of a file that loads. -/
def decoded (file : Option String) : Option DecodedWorkflowConfig :=
  match loadFrontMatter file with
  | .error _ => none
  | .ok f => some (decodeWorkflowConfig f)

/-- A field that a document lacks was set last to what it is at boot, if at all. -/
def LeavesDefault (field : DecodedWorkflowConfig → Option α) (default : α)
    (earlier : List DecodedWorkflowConfig) (last : DecodedWorkflowConfig) : Prop :=
  field last = none → ∀ v, earlier.reverse.findSome? field = some v → v = default

/-- No earlier document leaves a value behind that the last one does not have. -/
structure NothingLeft (boot : Settings) (earlier : List DecodedWorkflowConfig)
    (last : DecodedWorkflowConfig) : Prop where
  vramFloor : LeavesDefault DecodedWorkflowConfig.vramFloor boot.vramFloorMb earlier last
  primaryArchitect :
    LeavesDefault DecodedWorkflowConfig.primaryArchitect boot.primaryArchitect earlier last
  fallbackAgent : LeavesDefault DecodedWorkflowConfig.fallbackAgent boot.fallbackAgent earlier last
  keepRecentTurns :
    LeavesDefault DecodedWorkflowConfig.keepRecentTurns boot.keepRecentTurns earlier last
  maxAttempts : LeavesDefault (fun d => d.retry.maxAttempts) boot.retry.maxAttempts earlier last
  baseMs : LeavesDefault (fun d => d.retry.baseMs) boot.retry.baseMs earlier last
  factor : LeavesDefault (fun d => d.retry.factor) boot.retry.factor earlier last

/-! ## A run of reloads -/

/-- A file that does not load changes no setting. -/
theorem reload_of_invalid (o : Orchestrator) {file : Option String} (h : decoded file = none) :
    (o.reload file).settings = o.settings := by
  unfold decoded at h
  unfold Orchestrator.reload
  cases hload : loadFrontMatter file with
  | error e => rfl
  | ok f =>
    rw [hload] at h
    exact nomatch h

theorem reload_of_valid (o : Orchestrator) {file : Option String} {d : DecodedWorkflowConfig}
    (h : decoded file = some d) : (o.reload file).settings = o.settings.apply d := by
  unfold decoded at h
  unfold Orchestrator.reload
  cases hload : loadFrontMatter file with
  | error e =>
    rw [hload] at h
    exact nomatch h
  | ok f =>
    rw [hload] at h
    rw [← Option.some.inj h]

/-- Only the valid files count, in their order. -/
theorem reloads_settings : ∀ (files : List (Option String)) (o : Orchestrator),
    (o.reloads files).settings = (files.filterMap decoded).foldl Settings.apply o.settings
  | [], _ => rfl
  | file :: files, o => by
    have hrest := reloads_settings files (o.reload file)
    cases hd : decoded file with
    | none =>
      rw [List.filterMap_cons_none hd, ← reload_of_invalid o hd]
      exact hrest
    | some d =>
      rw [List.filterMap_cons_some hd, List.foldl_cons, ← reload_of_valid o hd]
      exact hrest

/-- A setting that is overwritten where a document has its field holds the last value
that was set. -/
theorem settings_eq_overlay {get : Settings → α} {field : DecodedWorkflowConfig → Option α}
    (happly : ∀ s d, get (s.apply d) = (field d).getD (get s)) :
    ∀ (docs : List DecodedWorkflowConfig) (s : Settings),
      get (docs.foldl Settings.apply s) = (docs.reverse.findSome? field).getD (get s)
  | [], _ => rfl
  | d :: docs, s => by
    rw [List.foldl_cons, settings_eq_overlay happly docs (s.apply d), happly, List.reverse_cons,
      List.findSome?_append, List.findSome?_singleton]
    cases docs.reverse.findSome? field with
    | none => rfl
    | some v => rfl

/-- The last document decides about a setting exactly if nothing is left behind. -/
theorem overlay_eq_last_iff (field : DecodedWorkflowConfig → Option α) (default : α)
    (earlier : List DecodedWorkflowConfig) (last : DecodedWorkflowConfig) :
    ((earlier ++ [last]).reverse.findSome? field).getD default = (field last).getD default ↔
      LeavesDefault field default earlier last := by
  rw [List.reverse_append, List.reverse_singleton, List.findSome?_append,
    List.findSome?_singleton, LeavesDefault]
  cases field last with
  | some v => exact iff_of_true rfl fun h => nomatch h
  | none =>
    rw [Option.none_or]
    cases earlier.reverse.findSome? field with
    | none => exact iff_of_true rfl fun _ _ h => nomatch h
    | some v =>
      constructor
      · intro h _ w hw
        rw [← Option.some.inj hw]
        exact h
      · intro h
        exact h rfl v rfl

/-! ## The last valid document -/

theorem settings_eq_iff (s t : Settings) :
    s = t ↔ s.vramFloorMb = t.vramFloorMb ∧ s.primaryArchitect = t.primaryArchitect ∧
      s.fallbackAgent = t.fallbackAgent ∧ s.keepRecentTurns = t.keepRecentTurns ∧
      s.retry.maxAttempts = t.retry.maxAttempts ∧ s.retry.baseMs = t.retry.baseMs ∧
      s.retry.factor = t.retry.factor ∧ s.retry.sweepIntervalMs = t.retry.sweepIntervalMs := by
  obtain ⟨_, _, _, _, ⟨_, _, _, _⟩⟩ := s
  obtain ⟨_, _, _, _, ⟨_, _, _, _⟩⟩ := t
  rw [Settings.mk.injEq, Claims.RetryConfig.mk.injEq]

/-- One setting is that of a boot with the last document exactly if nothing of it is
left behind. -/
theorem setting_eq_iff (boot : Settings) (earlier : List DecodedWorkflowConfig)
    (last : DecodedWorkflowConfig) (get : Settings → α) (field : DecodedWorkflowConfig → Option α)
    (happly : ∀ s d, get (s.apply d) = (field d).getD (get s)) :
    get ((earlier ++ [last]).foldl Settings.apply boot) = get (boot.apply last) ↔
      LeavesDefault field (get boot) earlier last := by
  rw [settings_eq_overlay happly, happly]
  exact overlay_eq_last_iff field (get boot) earlier last

/-- The settings are those of a boot with the last document exactly if nothing is left
behind; no document sets the sweep interval. -/
theorem settings_eq_boot_iff (boot : Settings) (earlier : List DecodedWorkflowConfig)
    (last : DecodedWorkflowConfig)
    (hsweep : ∀ d ∈ earlier, d.retry.sweepIntervalMs = none) :
    (earlier ++ [last]).foldl Settings.apply boot = boot.apply last ↔
      NothingLeft boot earlier last := by
  have hleft : LeavesDefault (fun d => d.retry.sweepIntervalMs) boot.retry.sweepIntervalMs
      earlier last := by
    intro _ v hv
    obtain ⟨d, hd, hv⟩ := List.exists_of_findSome?_eq_some hv
    rw [hsweep d (List.mem_reverse.mp hd)] at hv
    exact nomatch hv
  have hset : ∀ {β : Type} (get : Settings → β) (field : DecodedWorkflowConfig → Option β),
      (∀ s d, get (s.apply d) = (field d).getD (get s)) →
        (get ((earlier ++ [last]).foldl Settings.apply boot) = get (boot.apply last) ↔
          LeavesDefault field (get boot) earlier last) :=
    fun get field happly => setting_eq_iff boot earlier last get field happly
  rw [settings_eq_iff, hset _ DecodedWorkflowConfig.vramFloor fun _ _ => rfl,
    hset _ DecodedWorkflowConfig.primaryArchitect fun _ _ => rfl,
    hset _ DecodedWorkflowConfig.fallbackAgent fun _ _ => rfl,
    hset _ DecodedWorkflowConfig.keepRecentTurns fun _ _ => rfl,
    hset (fun s => s.retry.maxAttempts) (fun d => d.retry.maxAttempts) fun _ _ => rfl,
    hset (fun s => s.retry.baseMs) (fun d => d.retry.baseMs) fun _ _ => rfl,
    hset (fun s => s.retry.factor) (fun d => d.retry.factor) fun _ _ => rfl,
    hset (fun s => s.retry.sweepIntervalMs) (fun d => d.retry.sweepIntervalMs) fun _ _ => rfl]
  constructor
  · intro hgiven
    obtain ⟨h₁, h₂, h₃, h₄, h₅, h₆, h₇, -⟩ := hgiven
    exact ⟨h₁, h₂, h₃, h₄, h₅, h₆, h₇⟩
  · intro hgiven
    obtain ⟨h₁, h₂, h₃, h₄, h₅, h₆, h₇⟩ := hgiven
    exact ⟨h₁, h₂, h₃, h₄, h₅, h₆, h₇, hleft⟩

theorem decoded_sweep {file : Option String} {d : DecodedWorkflowConfig}
    (h : decoded file = some d) : d.retry.sweepIntervalMs = none := by
  unfold decoded at h
  split at h
  next => exact nomatch h
  next =>
    rw [← Option.some.inj h]
    rfl

/-- After any reloads whose last valid document is `document`, the settings are those of
an orchestrator freshly booted with it, and no invalid file changes them, exactly if no
earlier document left a value behind that it does not have. -/
theorem reload_eq_boot_iff (retry : RetryConfig) (before after : List (Option String))
    (document : String) (d : DecodedWorkflowConfig) (hvalid : decoded (some document) = some d)
    (hafter : ∀ file ∈ after, decoded file = none) :
    (((Orchestrator.new retry).reloads (before ++ some document :: after)).settings
          = (bootWith retry document).settings ∧
      ∀ file, decoded file = none →
        (((Orchestrator.new retry).reloads (before ++ some document :: after)).reload file).settings
          = ((Orchestrator.new retry).reloads (before ++ some document :: after)).settings) ↔
      NothingLeft (.boot retry) (before.filterMap decoded) d := by
  have hnone : after.filterMap decoded = [] := List.filterMap_eq_nil_iff.mpr hafter
  have hdocs : (before ++ some document :: after).filterMap decoded
      = before.filterMap decoded ++ [d] := by
    rw [List.filterMap_append, List.filterMap_cons_some hvalid, hnone]
  have hsweep : ∀ e ∈ before.filterMap decoded, e.retry.sweepIntervalMs = none := by
    intro e he
    obtain ⟨file, -, hfile⟩ := List.mem_filterMap.mp he
    exact decoded_sweep hfile
  rw [reloads_settings, hdocs, bootWith, reload_of_valid _ hvalid]
  rw [← settings_eq_boot_iff (.boot retry) _ d hsweep]
  refine and_iff_left ?_
  intro file hfile
  rw [reload_of_invalid _ hfile, reloads_settings, hdocs]

/-! ## A field that goes away -/

/-- A document with the given routing line. -/
def sampleDocument (routing : String) : String :=
  "---\nversion: 1\n" ++ routing ++ "---\nPrompt\n"

/-- The VRAM floor of an earlier document outlives it. -/
theorem floor_left_behind :
    ((Orchestrator.new Claims.defaultRetryConfig).reloads
        [some (sampleDocument "routing:\n  vram_floor_mb: 100\n"), some (sampleDocument "")]
      ).settings.vramFloorMb = .ofNat 100 ∧
    (bootWith Claims.defaultRetryConfig (sampleDocument "")).settings.vramFloorMb = .ofNat 8192 ∧
    decoded (some (sampleDocument "")) ≠ none := by
  decide +kernel

/-- A document that sets the field again is all that counts. -/
theorem floor_set_again :
    ((Orchestrator.new Claims.defaultRetryConfig).reloads
        ([some (sampleDocument "routing:\n  vram_floor_mb: 100\n")] ++
          some (sampleDocument "routing:\n  vram_floor_mb: 200\n") :: [none])).settings
      = (bootWith Claims.defaultRetryConfig
          (sampleDocument "routing:\n  vram_floor_mb: 200\n")).settings := by
  have hfirst : [some (sampleDocument "routing:\n  vram_floor_mb: 100\n")].filterMap decoded
      = [⟨some (.ofNat 100), none, none, none, ⟨none, none, none, none⟩⟩] := by
    decide +kernel
  have hlast : decoded (some (sampleDocument "routing:\n  vram_floor_mb: 200\n"))
      = some ⟨some (.ofNat 200), none, none, none, ⟨none, none, none, none⟩⟩ := by
    decide +kernel
  have hnone : ∀ file ∈ [(none : Option String)], decoded file = none := by
    intro file hfile
    rw [List.mem_singleton.mp hfile]
    rfl
  refine ((reload_eq_boot_iff _ _ [none] _ _ hlast hnone).mpr ?_).1
  rw [hfirst]
  exact {
    vramFloor := fun h => nomatch h
    primaryArchitect := fun _ _ h => nomatch h
    fallbackAgent := fun _ _ h => nomatch h
    keepRecentTurns := fun _ _ h => nomatch h
    maxAttempts := fun _ _ h => nomatch h
    baseMs := fun _ _ h => nomatch h
    factor := fun _ _ h => nomatch h }

end Kovael.Workflow
