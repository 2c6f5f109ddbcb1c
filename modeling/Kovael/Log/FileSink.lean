import Mathlib.Logic.Function.Basic
import Kovael.Js.Utf8
import Kovael.Lts

/-!
# The NDJSON file sink

`NdjsonFileSink` of `services/FileSink.ts`: a bounded queue of lines, flushed in batches to a
file that is rotated by its size. The calls of the file system are made one by one, and each
that can throw does so where `Faults` says.

Mirroring notes vs the TypeScript:
- The directory is a function: `0` is the file itself and `i` is `path.i`.
- The options are counts, the path apart. The timer is a `flushNow` that may come at any time.
- A `writeSync` that throws has written nothing; one that returns has written the buffer.
- `journal` are the batches that were appended to the file, in order. No call reads it.
-/

namespace Kovael.Log

open Js
open Js.Base64 (Bytes)

/-- The options, with the constructor's defaults. -/
structure NdjsonFileSinkOptions where
  path : String
  maxBytes : Nat := 50 * 1024 * 1024
  maxFiles : Nat := 5
  warnAtBytes : Nat := maxBytes * 4 / 5
  flushIntervalMs : Nat := 1000
  maxQueueLines : Nat := 1024
  maxBatchLines : Nat := 256

/-- The file and the rotated files. -/
abbrev Files := Nat → Option Bytes

/-- The calls that can throw; `unlinkSync i` is of `path.i`, `renameSync i` from it to the next. -/
inductive FsCall where
  | unlinkSync (i : Nat)
  | renameSync (i : Nat)
  | openSync
  | writeSync
  | fsyncSync
  | closeSync
  deriving DecidableEq, Repr

/-- The calls that throw. -/
abbrev Faults := FsCall → Bool

/-- No call throws. -/
def Faults.none : Faults := fun _ => false

namespace Files

/-- `fs.unlinkSync` of `path.i`. -/
def unlink (files : Files) (i : Nat) : Files := Function.update files i none

/-- `fs.renameSync` of `path.i` to the next. -/
def rename (files : Files) (i : Nat) : Files :=
  Function.update (Function.update files i none) (i + 1) (files i)

/-- `fs.statSync(path).size`, or 0. -/
def size (files : Files) : Nat := ((files 0).getD []).length

end Files

/-- What is written to the standard error. -/
inductive Notice where
  | dropped (lines : Nat)
  | reached (bytes : Nat)
  deriving DecidableEq, Repr

/-- Its text. -/
def Notice.text (opts : NdjsonFileSinkOptions) : Notice → String
  | .dropped lines => "kovael-filesink: dropped " ++ toString lines ++
      " oldest queued lines due to backpressure overflow\n"
  | .reached bytes => "kovael-filesink: warning " ++ opts.path ++ " reached " ++ toString bytes ++
      " bytes (warn_at=" ++ toString opts.warnAtBytes ++ ", max=" ++ toString opts.maxBytes ++ ")\n"

/-- The lines that it reports as dropped. -/
def Notice.lines : Notice → Nat
  | .dropped lines => lines
  | .reached _ => 0

/-- The fields of a sink, its files and what it wrote. -/
structure Sink where
  bytesWritten : Nat
  warnedAtThreshold : Bool
  queue : List String
  droppedLines : Nat
  files : Files
  stderr : List Notice
  journal : List (List String)

/-- `` `${lines.join('\n')}\n` `` -/
def payload (lines : List String) : Bytes := Utf8.encode ("\n".intercalate lines ++ "\n")

/-- `new NdjsonFileSink(opts)` over the files that there are. -/
def Sink.construct (s : Sink) : Sink :=
  { s with bytesWritten := s.files.size, warnedAtThreshold := false, queue := [], droppedLines := 0 }

/-- The lines that were counted as dropped: those reported, and the counter. -/
def Sink.counted (s : Sink) : Nat := (s.stderr.map Notice.lines).sum + s.droppedLines

/-- A sink on an empty directory. -/
def Sink.init : Sink := ⟨0, false, [], 0, fun _ => none, [], []⟩

section

variable (opts : NdjsonFileSinkOptions) (faults : Faults)

/-- The loop of `rotate`, from `i` down; and the call that threw. -/
def shift : Nat → Files → Files × Option FsCall
  | 0, files => (files, none)
  | i + 1, files =>
    if (files (i + 1)).isNone then shift i files
    else if i + 1 = opts.maxFiles then
      if faults (.unlinkSync (i + 1)) then (files, some (.unlinkSync (i + 1)))
      else shift i (files.unlink (i + 1))
    else if faults (.renameSync (i + 1)) then (files, some (.renameSync (i + 1)))
    else shift i (files.rename (i + 1))

/-- `this.rotate()`. -/
def Sink.rotate (s : Sink) : Sink × Option FsCall :=
  match shift opts faults opts.maxFiles s.files with
  | (files, some call) => ({ s with files }, some call)
  | (files, none) =>
    if (files 0).isNone then
      ({ s with files, bytesWritten := 0, warnedAtThreshold := false }, none)
    else if faults (.renameSync 0) then ({ s with files }, some (.renameSync 0))
    else ({ s with files := files.rename 0, bytesWritten := 0, warnedAtThreshold := false }, none)

/-- The file was opened for appending: it is there. -/
def Sink.opened (s : Sink) : Sink :=
  { s with files := Function.update s.files 0 (some ((s.files 0).getD [])) }

/-- The batch was written to the file. -/
def Sink.wrote (lines : List String) (s : Sink) : Sink :=
  { s with
    files := Function.update s.files 0 (some ((s.files 0).getD [] ++ payload lines))
    journal := s.journal ++ [lines] }

/-- `fs.writeSync` and `fs.fsyncSync`. -/
def Sink.writeBatch (lines : List String) (s : Sink) : Sink × Option FsCall :=
  if faults .writeSync then (s, some .writeSync)
  else if faults .fsyncSync then (s.wrote lines, some .fsyncSync)
  else (s.wrote lines, none)

/-- `flushNow` from the opening of the file on. -/
def Sink.append (lines : List String) (s : Sink) : Sink × Option FsCall :=
  if faults .openSync then (s, some .openSync)
  else
    let (s, thrown) := s.opened.writeBatch faults lines
    -- `finally`
    match if faults .closeSync then some .closeSync else thrown with
    | some call => (s, some call)
    | none =>
      let s := { s with bytesWritten := s.bytesWritten + (payload lines).length }
      if s.warnedAtThreshold = false ∧ opts.warnAtBytes ≤ s.bytesWritten then
        ({ s with
          warnedAtThreshold := true
          stderr := s.stderr ++ [.reached s.bytesWritten] }, none)
      else (s, none)

/-- The queue is taken, and what was dropped is reported. -/
def Sink.takeQueue (s : Sink) : Sink :=
  if 0 < s.droppedLines then
    { s with queue := [], droppedLines := 0, stderr := s.stderr ++ [.dropped s.droppedLines] }
  else { s with queue := [] }

/-- `flushNow()`. -/
def Sink.flushNow (s : Sink) : Sink × Option FsCall :=
  if s.queue = [] then (s, none)
  else if opts.maxBytes < s.bytesWritten + (payload s.queue).length then
    match s.takeQueue.rotate opts faults with
    | (t, some call) => (t, some call)
    | (t, none) => t.append opts faults s.queue
  else s.takeQueue.append opts faults s.queue

/-- The line is queued, for the oldest one if the queue is full. -/
def Sink.push (line : String) (s : Sink) : Sink :=
  if opts.maxQueueLines ≤ s.queue.length then
    { s with queue := s.queue.tail ++ [line], droppedLines := s.droppedLines + 1 }
  else { s with queue := s.queue ++ [line] }

/-- A write flushes: each does, or the batch is full. -/
def Flushes (s : Sink) : Prop :=
  opts.flushIntervalMs = 0 ∨ opts.maxBatchLines ≤ s.queue.length

instance (s : Sink) : Decidable (Flushes opts s) := inferInstanceAs (Decidable (_ ∨ _))

/-- `write(line)`. -/
def Sink.write (line : String) (s : Sink) : Sink × Option FsCall :=
  if Flushes opts (s.push opts line) then (s.push opts line).flushNow opts faults
  else (s.push opts line, none)

/-- `close()`; the timer is cleared. -/
def Sink.close (s : Sink) : Sink × Option FsCall := s.flushNow opts faults

end

/-! ## What the calls do -/

section

variable {opts : NdjsonFileSinkOptions} {faults : Faults}

/-- The call that the loop makes for `path.i`. -/
def shiftCall (opts : NdjsonFileSinkOptions) (i : Nat) : FsCall :=
  if i = opts.maxFiles then .unlinkSync i else .renameSync i

theorem unlink_ne (files : Files) {i j : Nat} (h : j ≠ i) : files.unlink i j = files j :=
  Function.update_of_ne h ..

theorem rename_other (files : Files) {i j : Nat} (h : j ≠ i) (h' : j ≠ i + 1) :
    files.rename i j = files j := by
  rw [Files.rename, Function.update_of_ne h', Function.update_of_ne h]

theorem rename_from (files : Files) (i : Nat) : files.rename i i = none := by
  rw [Files.rename, Function.update_of_ne (by omega), Function.update_self]

theorem rename_to (files : Files) (i : Nat) : files.rename i (i + 1) = files i :=
  Function.update_self ..

/-- The loop leaves the file itself. -/
theorem shift_current (n : Nat) (files : Files) : (shift opts faults n files).1 0 = files 0 := by
  induction n generalizing files with
  | zero => rfl
  | succ i ih =>
    rw [shift]
    split
    next => exact ih files
    next =>
      split
      next =>
        split
        next => rfl
        next => rw [ih, unlink_ne files (by omega)]
      next =>
        split
        next => rfl
        next => rw [ih, rename_other files (by omega) (by omega)]

/-- The loop throws just if the call for a file that exists throws. -/
theorem shift_throws (n : Nat) (files : Files) :
    (shift opts faults n files).2.isSome ↔
      ∃ i < n, (files (i + 1)).isSome ∧ faults (shiftCall opts (i + 1)) = true := by
  have hsplit : ∀ (i : Nat) (P : Nat → Prop), (∃ j < i + 1, P j) ↔ P i ∨ ∃ j < i, P j := by
    intro i P
    constructor
    · intro hgiven
      obtain ⟨j, hj, hP⟩ := hgiven
      rcases Nat.lt_succ_iff_lt_or_eq.mp hj with hlt | rfl
      · exact Or.inr ⟨j, hlt, hP⟩
      · exact Or.inl hP
    · intro hcases
      rcases hcases with hP | ⟨j, hj, hP⟩
      · exact ⟨i, by omega, hP⟩
      · exact ⟨j, by omega, hP⟩
  induction n generalizing files with
  | zero => exact iff_of_false Bool.false_ne_true (fun ⟨i, hi, _⟩ => absurd hi (Nat.not_lt_zero i))
  | succ i ih =>
    -- the files below are as they were
    have hbelow : ∀ files' : Files, (∀ j ≤ i, files' j = files j) →
        ((∃ j < i, (files' (j + 1)).isSome ∧ faults (shiftCall opts (j + 1)) = true) ↔
          ∃ j < i, (files (j + 1)).isSome ∧ faults (shiftCall opts (j + 1)) = true) := by
      intro files' hfiles
      refine exists_congr fun j => and_congr_right fun hj => ?_
      rw [hfiles (j + 1) (by omega)]
    have hkept : ∀ files' : Files, (∀ j ≤ i, files' j = files j) →
        ¬ faults (shiftCall opts (i + 1)) = true →
        ((shift opts faults i files').2.isSome ↔
          ((files (i + 1)).isSome ∧ faults (shiftCall opts (i + 1)) = true) ∨
            ∃ j < i, (files (j + 1)).isSome ∧ faults (shiftCall opts (j + 1)) = true) := by
      intro files' hfiles hfine
      exact (ih files').trans ((hbelow files' hfiles).trans
        (or_iff_right fun hthrows => hfine hthrows.2).symm)
    rw [hsplit i, shift]
    cases hfile : files (i + 1) with
    | none =>
      exact (ih files).trans (or_iff_right fun hthrows => Bool.false_ne_true hthrows.1).symm
    | some bytes =>
      rw [hfile] at hkept
      rw [if_neg (by simp)]
      split
      next hmax =>
        have hcall : shiftCall opts (i + 1) = .unlinkSync (i + 1) := if_pos hmax
        rw [hcall] at hkept ⊢
        split
        next hfault => exact iff_of_true rfl (Or.inl ⟨rfl, hfault⟩)
        next hfine => exact hkept _ (fun j hj => unlink_ne files (by omega)) hfine
      next hmax =>
        have hcall : shiftCall opts (i + 1) = .renameSync (i + 1) := if_neg hmax
        rw [hcall] at hkept ⊢
        split
        next hfault => exact iff_of_true rfl (Or.inl ⟨rfl, hfault⟩)
        next hfine =>
          exact hkept _ (fun j hj => rename_other files (by omega) (by omega)) hfine

/-- The files one place up. -/
def Files.up (files : Files) : Files := fun j => if j ≤ 1 then none else files (j - 1)

/-- Where no call throws, each file moves up one place, and the last one is gone. The place
above `n` is free, or `path.n` is the last one. -/
theorem shift_files (n : Nat) (files : Files) (hn : n ≤ opts.maxFiles)
    (hfree : n < opts.maxFiles → files (n + 1) = none) (j : Nat) (hj : 0 < j) :
    (shift opts .none n files).1 j =
      if j ≤ n + 1 ∧ j ≤ opts.maxFiles then files.up j else files j := by
  induction n generalizing files with
  | zero =>
    split
    next h =>
      obtain rfl : j = 1 := by omega
      exact hfree (by omega)
    next => rfl
  | succ i ih =>
    rw [shift]
    cases hfile : files (i + 1) with
    | none =>
      show (shift opts .none i files).1 j = _
      rw [ih files (by omega) (fun _ => hfile)]
      by_cases hlast : j = i + 2 ∧ j ≤ opts.maxFiles
      · obtain ⟨rfl, hmax⟩ := hlast
        rw [if_neg (by omega), if_pos (by omega), hfree (by omega), Files.up, if_neg (by omega)]
        exact hfile.symm
      · have hsame : (j ≤ i + 1 ∧ j ≤ opts.maxFiles) ↔ (j ≤ i + 1 + 1 ∧ j ≤ opts.maxFiles) := by
          omega
        simp only [hsame]
    | some bytes =>
      rw [if_neg (by simp)]
      split
      next hmax =>
        have hgone : files.unlink (i + 1) (i + 1) = none := Function.update_self ..
        show (shift opts .none i (files.unlink (i + 1))).1 j = _
        rw [ih _ (by omega) (fun _ => hgone)]
        by_cases hle : j ≤ i + 1
        · rw [if_pos (by omega), if_pos (by omega), Files.up, Files.up, unlink_ne files (by omega)]
        · rw [if_neg (by omega), if_neg (by omega), unlink_ne files (by omega)]
      next hmax =>
        show (shift opts .none i (files.rename (i + 1))).1 j = _
        rw [ih _ (by omega) (fun _ => rename_from files (i + 1))]
        by_cases hle : j ≤ i + 1
        · rw [if_pos (by omega), if_pos (by omega), Files.up, Files.up,
            rename_other files (by omega) (by omega)]
        · rw [if_neg (by omega)]
          by_cases hlast : j = i + 2
          · rw [hlast, if_pos (by omega), rename_to, Files.up, if_neg (by omega)]
            rfl
          · rw [if_neg (by omega), rename_other files (by omega) (by omega)]

/-- A call of `rotate` throws: one of the loop, or the last. -/
def RotateThrows (opts : NdjsonFileSinkOptions) (faults : Faults) (files : Files) : Prop :=
  (∃ i < opts.maxFiles, (files (i + 1)).isSome ∧ faults (shiftCall opts (i + 1)) = true) ∨
    (files 0).isSome ∧ faults (.renameSync 0) = true

/-- `rotate` throws, and the file and the fields are as they were; or the file is gone and the
counters are reset. -/
theorem rotate_cases (s : Sink) :
    (RotateThrows opts faults s.files ∧ ∃ files call, files 0 = s.files 0 ∧
      s.rotate opts faults = ({ s with files }, some call)) ∨
    (¬ RotateThrows opts faults s.files ∧
      ∃ files : Files, files 0 = none ∧ s.rotate opts faults =
        ({ s with files, bytesWritten := 0, warnedAtThreshold := false }, none)) := by
  have hthrows := @shift_throws opts faults opts.maxFiles s.files
  have hcurrent := @shift_current opts faults opts.maxFiles s.files
  rw [RotateThrows, ← hthrows, ← hcurrent, Sink.rotate]
  generalize shift opts faults opts.maxFiles s.files = looped at hcurrent ⊢
  obtain ⟨files, thrown⟩ := looped
  cases thrown with
  | some call => exact Or.inl ⟨Or.inl rfl, files, call, rfl, rfl⟩
  | none =>
    dsimp only
    rw [or_iff_right (a := (none : Option FsCall).isSome = true) Bool.false_ne_true]
    cases hfile : files 0 with
    | none =>
      refine Or.inr ⟨fun h => Bool.false_ne_true h.1, files, hfile, ?_⟩
      rfl
    | some bytes =>
      rw [if_neg (by simp)]
      split
      next hfault => exact Or.inl ⟨⟨rfl, hfault⟩, files, _, hfile, rfl⟩
      next hfine =>
        exact Or.inr ⟨fun h => hfine h.2, _, rename_from files 0, rfl⟩

/-- The files that a rotation leaves. -/
def Rotated (opts : NdjsonFileSinkOptions) (before after : Files) : Prop :=
  after 0 = none ∧ ∀ j, 0 < j →
    after j = if j ≤ opts.maxFiles then before (j - 1) else before j

/-- A rotation, where no call throws. -/
theorem rotate_none (s : Sink) (hmax : 1 ≤ opts.maxFiles) :
    ∃ files, Rotated opts s.files files ∧ s.rotate opts .none =
      ({ s with files, bytesWritten := 0, warnedAtThreshold := false }, none) := by
  have hthrows := @shift_throws opts .none opts.maxFiles s.files
  have hcurrent := @shift_current opts .none opts.maxFiles s.files
  have hfiles := @shift_files opts opts.maxFiles s.files le_rfl (fun h => absurd h (lt_irrefl _))
  rw [Sink.rotate]
  generalize shift opts .none opts.maxFiles s.files = looped at hthrows hcurrent hfiles ⊢
  obtain ⟨files, thrown⟩ := looped
  dsimp only at hthrows hcurrent hfiles
  cases thrown with
  | some call =>
    obtain ⟨i, -, -, hfault⟩ := hthrows.mp rfl
    cases hfault
  | none =>
    dsimp only
    have hup : ∀ j, 0 < j → j ≠ 1 →
        files j = if j ≤ opts.maxFiles then s.files (j - 1) else s.files j := by
      intro j hj hone
      have hplace : (j ≤ opts.maxFiles + 1 ∧ j ≤ opts.maxFiles) ↔ j ≤ opts.maxFiles := by omega
      have hbelow : s.files.up j = s.files (j - 1) := if_neg (by omega)
      rw [hfiles j hj, hbelow]
      simp only [hplace]
    have hfirst : files 1 = none := by
      rw [hfiles 1 (by omega), if_pos (by omega)]
      rfl
    cases hfile : files 0 with
    | none =>
      refine ⟨files, ⟨hfile, fun j hj => ?_⟩, rfl⟩
      by_cases hone : j = 1
      · rw [hone, hfirst, if_pos hmax, ← hcurrent]
        exact hfile.symm
      · exact hup j hj hone
    | some bytes =>
      refine ⟨files.rename 0, ⟨rename_from files 0, fun j hj => ?_⟩, rfl⟩
      by_cases hone : j = 1
      · rw [hone, rename_to, if_pos hmax]
        exact hcurrent
      · rw [rename_other files (by omega) (by omega)]
        exact hup j hj hone

/-- A call of `flushNow`'s own throws. -/
def AppendThrows (faults : Faults) : Prop :=
  faults .openSync = true ∨ faults .writeSync = true ∨ faults .fsyncSync = true ∨
    faults .closeSync = true

/-- What is opened is written as it was. -/
theorem opened_wrote (s : Sink) (lines : List String) : s.opened.wrote lines = s.wrote lines := by
  rw [Sink.wrote, Sink.opened, Sink.wrote]
  dsimp only
  rw [Function.update_self, Option.getD_some, Function.update_idem]

theorem size_opened (s : Sink) : s.opened.files.size = s.files.size := by
  rw [Files.size, Sink.opened]
  dsimp only
  rw [Function.update_self, Option.getD_some, Files.size]

theorem size_wrote (s : Sink) (lines : List String) :
    (s.wrote lines).files.size = s.files.size + (payload lines).length := by
  rw [Files.size, Sink.wrote]
  dsimp only
  rw [Function.update_self, Option.getD_some, List.length_append, Files.size]

/-- Where no call throws, the batch is appended and its bytes are counted. -/
theorem append_fine (s : Sink) (lines : List String) (h : ¬ AppendThrows faults) :
    ∃ warned notices, (notices.map Notice.lines).sum = 0 ∧ s.append opts faults lines =
      ({ s.wrote lines with
        bytesWritten := s.bytesWritten + (payload lines).length
        warnedAtThreshold := warned
        stderr := s.stderr ++ notices }, none) := by
  simp only [AppendThrows, not_or, Bool.not_eq_true] at h
  obtain ⟨hopen, hwrite, hfsync, hclose⟩ := h
  simp only [Sink.append, Sink.writeBatch, hopen, hwrite, hfsync, hclose, Bool.false_eq_true,
    if_false, opened_wrote]
  split
  next => exact ⟨true, [.reached _], rfl, rfl⟩
  next =>
    refine ⟨s.warnedAtThreshold, [], rfl, ?_⟩
    rw [List.append_nil]
    rfl

/-- Where a call throws, the batch was appended or not, and its bytes are not counted. -/
theorem append_throws (s : Sink) (lines : List String) (h : AppendThrows faults) :
    ∃ t call, s.append opts faults lines = (t, some call) ∧
      (t = s ∨ t = s.opened ∨ t = s.wrote lines) := by
  have hfinally : ∀ (t : Sink) (thrown : Option FsCall),
      (if faults .closeSync then some FsCall.closeSync else thrown).isSome →
      s.opened.writeBatch faults lines = (t, thrown) → faults .openSync = false →
      ∃ call, s.append opts faults lines = (t, some call) := by
    intro t thrown hthrown hbatch hopen
    obtain ⟨call, hcall⟩ := Option.isSome_iff_exists.mp hthrown
    refine ⟨call, ?_⟩
    rw [Sink.append, hopen, if_neg Bool.false_ne_true, hbatch]
    dsimp only
    rw [hcall]
  cases hopen : faults .openSync with
  | true => exact ⟨s, .openSync, by rw [Sink.append, hopen, if_pos rfl], Or.inl rfl⟩
  | false =>
    cases hwrite : faults .writeSync with
    | true =>
      obtain ⟨call, hcall⟩ := hfinally s.opened (some .writeSync) (by split <;> rfl)
        (by rw [Sink.writeBatch, hwrite, if_pos rfl]) hopen
      exact ⟨s.opened, call, hcall, Or.inr (Or.inl rfl)⟩
    | false =>
      cases hfsync : faults .fsyncSync with
      | true =>
        obtain ⟨call, hcall⟩ := hfinally (s.wrote lines) (some .fsyncSync) (by split <;> rfl)
          (by rw [Sink.writeBatch, hwrite, hfsync, opened_wrote]; rfl) hopen
        exact ⟨s.wrote lines, call, hcall, Or.inr (Or.inr rfl)⟩
      | false =>
        rw [AppendThrows, hopen, hwrite, hfsync] at h
        have hclose : faults .closeSync = true := by simpa using h
        obtain ⟨call, hcall⟩ := hfinally (s.wrote lines) none (by rw [hclose]; rfl)
          (by rw [Sink.writeBatch, hwrite, hfsync, opened_wrote]; rfl) hopen
        exact ⟨s.wrote lines, call, hcall, Or.inr (Or.inr rfl)⟩

theorem takeQueue_fields (s : Sink) :
    s.takeQueue.queue = [] ∧ s.takeQueue.files = s.files ∧ s.takeQueue.journal = s.journal ∧
      s.takeQueue.bytesWritten = s.bytesWritten ∧ s.takeQueue.droppedLines = 0 ∧
      s.takeQueue.counted = s.counted := by
  rw [Sink.takeQueue]
  split
  next =>
    refine ⟨rfl, rfl, rfl, rfl, rfl, ?_⟩
    rw [Sink.counted, Sink.counted, List.map_append, List.sum_append]
    rfl
  next hnone => exact ⟨rfl, rfl, rfl, rfl, Nat.eq_zero_of_not_pos hnone, rfl⟩

/-- Notices that report no lines. -/
theorem reported_append (stderr : List Notice) {notices : List Notice}
    (h : (notices.map Notice.lines).sum = 0) :
    ((stderr ++ notices).map Notice.lines).sum = (stderr.map Notice.lines).sum := by
  rw [List.map_append, List.sum_append, h, Nat.add_zero]

/-- The batch was appended to the file, or to a new one. -/
structure Flushed (opts : NdjsonFileSinkOptions) (s t : Sink) : Prop where
  queue : t.queue = []
  droppedLines : t.droppedLines = 0
  counted : t.counted = s.counted
  journal : t.journal = s.journal ++ [s.queue]
  files :
    s.bytesWritten + (payload s.queue).length ≤ opts.maxBytes ∧
        t.files = Function.update s.files 0 (some ((s.files 0).getD [] ++ payload s.queue)) ∧
        t.bytesWritten = s.bytesWritten + (payload s.queue).length ∨
      ∃ files, Rotated opts s.files files ∧
        t.files = Function.update files 0 (some (payload s.queue)) ∧
        t.bytesWritten = (payload s.queue).length

theorem not_appendThrows_none : ¬ AppendThrows .none := by
  intro hcases
  rcases hcases with h | h | h | h
  all_goals cases h

/-- `flushNow`, where no call throws. -/
theorem flushNow_none (s : Sink) (hmax : 1 ≤ opts.maxFiles) (hqueue : s.queue ≠ []) :
    ∃ t, s.flushNow opts .none = (t, none) ∧ Flushed opts s t := by
  obtain ⟨htaken, hfiles, hjournal, hbytes, hdropped, hcounted⟩ := takeQueue_fields s
  rw [Sink.flushNow, if_neg hqueue]
  split
  next hover =>
    obtain ⟨files, hrotated, hrotate⟩ := rotate_none s.takeQueue hmax
    obtain ⟨warned, notices, hsum, happend⟩ := @append_fine opts .none
      { s.takeQueue with files, bytesWritten := 0, warnedAtThreshold := false } s.queue
      not_appendThrows_none
    rw [hrotate]
    refine ⟨_, happend, htaken, hdropped, ?_, congrArg (· ++ [s.queue]) hjournal, Or.inr ?_⟩
    · rw [← hcounted, Sink.counted, Sink.counted]
      exact congrArg (· + s.takeQueue.droppedLines) (reported_append _ hsum)
    · refine ⟨files, hfiles ▸ hrotated, ?_, Nat.zero_add _⟩
      rw [Sink.wrote]
      dsimp only
      rw [hrotated.1, Option.getD_none, List.nil_append]
  next hfits =>
    obtain ⟨warned, notices, hsum, happend⟩ := @append_fine opts .none s.takeQueue s.queue
      not_appendThrows_none
    refine ⟨_, happend, htaken, hdropped, ?_, congrArg (· ++ [s.queue]) hjournal, Or.inl ?_⟩
    · rw [← hcounted, Sink.counted, Sink.counted]
      exact congrArg (· + s.takeQueue.droppedLines) (reported_append _ hsum)
    · refine ⟨by omega, ?_, congrArg (· + (payload s.queue).length) hbytes⟩
      rw [Sink.wrote]
      dsimp only
      rw [hfiles]

end

end Kovael.Log
