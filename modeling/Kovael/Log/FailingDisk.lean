import Kovael.Log.FileSink

/-!
# A failing disk

Calls of `NdjsonFileSink` while calls of the file system throw. `flushNow` takes the queue
before it rotates, opens and writes: what throws on the way loses the batch, and what throws
after the write leaves `bytesWritten` behind the file. So the lines survive a call just if none
of its file system calls throws (`survives_iff`).

Mirroring notes vs the TypeScript:
- What a call throws is dropped by `teeSink`, or by the timer: the next call comes.
-/

namespace Kovael.Log

open Js
open Js.Base64 (Bytes)

/-- A call of the sink. -/
inductive SinkCall where
  | write (line : String)
  | flushNow
  | close

namespace SinkCall

variable (opts : NdjsonFileSinkOptions) (faults : Faults)

/-- The call, and what it throws. -/
def perform (s : Sink) : SinkCall → Sink × Option FsCall
  | .write line => s.write opts faults line
  | .flushNow => s.flushNow opts faults
  | .close => s.close opts faults

/-- The sink before the flush: a line that is written is queued. -/
def queued (s : Sink) : SinkCall → Sink
  | .write line => s.push opts line
  | _ => s

/-- The call flushes the queue. -/
def Flushing (s : Sink) (c : SinkCall) : Prop :=
  (c.queued opts s).queue ≠ [] ∧
    match c with
    | .write _ => Flushes opts (c.queued opts s)
    | _ => True

end SinkCall

/-- The batch does not fit the file. -/
def Overflows (opts : NdjsonFileSinkOptions) (s : Sink) : Prop :=
  opts.maxBytes < s.bytesWritten + (payload s.queue).length

/-- The call flushes, and one of the file system calls that this takes throws. -/
def SinkCall.Throws (opts : NdjsonFileSinkOptions) (faults : Faults) (s : Sink) (c : SinkCall) :
    Prop :=
  c.Flushing opts s ∧
    (AppendThrows faults ∨
      Overflows opts (c.queued opts s) ∧ RotateThrows opts faults (c.queued opts s).files)

/-- The size of the file is known, or will be: a file is begun. -/
def SinkCall.Sized (opts : NdjsonFileSinkOptions) (s : Sink) (c : SinkCall) : Prop :=
  s.bytesWritten = s.files.size ∨ c.Flushing opts s ∧ Overflows opts (c.queued opts s)

/-- Every line of the queue of `s` is in a file or in the queue, in order and ahead of later
lines, or was counted as dropped; and the size of the file is known. -/
def Survives (s t : Sink) : Prop :=
  (∃ kept : List String, kept.Sublist s.queue ∧
    t.journal.flatten ++ t.queue = s.journal.flatten ++ kept ∧
    s.queue.length + s.counted ≤ kept.length + t.counted) ∧
  t.bytesWritten = t.files.size

/-- The calls of a sink, each with the file system calls that throw in it. -/
def callRuns (opts : NdjsonFileSinkOptions) : Lts Sink (SinkCall × Faults) where
  init := .init
  step s c := some (c.1.perform opts c.2 s).1

section

variable {opts : NdjsonFileSinkOptions} {faults : Faults} {s t : Sink}

theorem payload_ne_nil (lines : List String) : 0 < (payload lines).length := by
  have hend : '\n' ∈ ("\n".intercalate lines ++ "\n").toList := by
    rw [String.toList_append]
    exact List.mem_append_right _ (List.mem_singleton_self _)
  have hbyte : (10 : UInt8) ∈ payload lines :=
    List.mem_flatMap.mpr ⟨'\n', hend, by decide +kernel⟩
  exact List.length_pos_of_mem hbyte

/-- The batch is lost: it is in no file, not queued and not counted. -/
theorem not_survives_lost (hqueue : s.queue ≠ []) (hempty : t.queue = [])
    (hjournal : t.journal = s.journal) (hcounted : t.counted = s.counted) : ¬ Survives s t := by
  intro hgiven
  obtain ⟨⟨kept, -, hlines, hlength⟩, -⟩ := hgiven
  rw [hempty, hjournal, List.append_cancel_left_eq] at hlines
  rw [← hlines, hcounted, List.length_nil] at hlength
  have hpos := List.length_pos_of_ne_nil hqueue
  omega

/-- The batch is in the file. -/
theorem survives_written (hempty : t.queue = []) (hjournal : t.journal = s.journal ++ [s.queue])
    (hcounted : t.counted = s.counted) :
    Survives s t ↔ t.bytesWritten = t.files.size := by
  refine and_iff_right ⟨s.queue, List.Sublist.refl _, ?_, ?_⟩
  · rw [hempty, hjournal, List.flatten_append, List.flatten_singleton, List.append_nil]
  · rw [hcounted]

theorem survives_self : Survives s s ↔ s.bytesWritten = s.files.size :=
  and_iff_right ⟨s.queue, List.Sublist.refl _, rfl, le_rfl⟩

/-- The lines survive the writing of the batch if no call throws, and the size of the file is
known after it if it was before. -/
theorem append_survives_iff {u : Sink} (hqueue : s.queue ≠ []) (hempty : u.queue = [])
    (hjournal : u.journal = s.journal) (hcounted : u.counted = s.counted)
    (hle : u.bytesWritten ≤ u.files.size) :
    Survives s (u.append opts faults s.queue).1 ↔
      ¬ AppendThrows faults ∧ u.bytesWritten = u.files.size := by
  have hwritten : (u.wrote s.queue).journal = s.journal ++ [s.queue] :=
    congrArg (· ++ [s.queue]) hjournal
  have hsize := size_wrote u s.queue
  by_cases hthrows : AppendThrows faults
  · obtain ⟨t, call, happend, hcases⟩ := @append_throws opts _ u s.queue hthrows
    rw [happend]
    refine iff_of_false ?_ (fun h => h.1 hthrows)
    rcases hcases with rfl | rfl | rfl
    · exact not_survives_lost hqueue hempty hjournal hcounted
    · exact not_survives_lost hqueue hempty hjournal hcounted
    · -- the bytes of the batch are in the file and were not counted
      intro hsurvives
      have hknown : u.bytesWritten = (u.wrote s.queue).files.size := hsurvives.2
      have hpos := payload_ne_nil s.queue
      omega
  · obtain ⟨warned, notices, hsum, happend⟩ := @append_fine opts _ u s.queue hthrows
    rw [happend, and_iff_right hthrows]
    refine (survives_written (s := s) ?_ ?_ ?_).trans ?_
    · exact hempty
    · exact hwritten
    · rw [← hcounted, Sink.counted, Sink.counted]
      exact congrArg (· + u.droppedLines) (reported_append _ hsum)
    · show u.bytesWritten + (payload s.queue).length = (u.wrote s.queue).files.size ↔ _
      rw [hsize]
      exact Nat.add_right_cancel_iff

/-- The lines of the queue survive a flush if no call throws, and the size of the file is known
after it if it was before, or a file is begun. -/
theorem flushNow_survives_iff (hqueue : s.queue ≠ []) (hle : s.bytesWritten ≤ s.files.size) :
    Survives s (s.flushNow opts faults).1 ↔
      ¬ (AppendThrows faults ∨ Overflows opts s ∧ RotateThrows opts faults s.files) ∧
        (s.bytesWritten = s.files.size ∨ Overflows opts s) := by
  obtain ⟨htaken, hfiles, hjournal, hbytes, hdropped, hcounted⟩ := takeQueue_fields s
  rw [Sink.flushNow, if_neg hqueue]
  by_cases hover : Overflows opts s
  · rw [if_pos (show opts.maxBytes < _ from hover), and_iff_right hover]
    rcases @rotate_cases opts faults s.takeQueue with
      ⟨hthrows, files, call, -, hrotate⟩ | ⟨hfine, files, hgone, hrotate⟩
    · rw [hrotate, ← hfiles]
      refine iff_of_false ?_ (fun h => h.1 (Or.inr hthrows))
      exact not_survives_lost hqueue htaken hjournal hcounted
    · rw [hrotate, ← hfiles, or_iff_left hfine, and_iff_left (Or.inr hover)]
      have hsize : files.size = 0 := by
        rw [Files.size, hgone]
        rfl
      refine (append_survives_iff hqueue ?_ ?_ ?_ ?_).trans ?_
      · exact htaken
      · exact hjournal
      · exact hcounted
      · exact Nat.zero_le _
      · exact and_iff_left hsize.symm
  · rw [if_neg (show ¬ opts.maxBytes < _ from hover),
      append_survives_iff hqueue htaken hjournal hcounted (by rwa [hbytes, hfiles]),
      or_iff_left hover, or_iff_left (fun h => hover h.1), hbytes, hfiles]

theorem push_fields (s : Sink) (line : String) :
    (s.push opts line).queue ≠ [] ∧ (s.push opts line).bytesWritten = s.bytesWritten ∧
      (s.push opts line).files = s.files := by
  rw [Sink.push]
  split
  next => exact ⟨List.append_ne_nil_of_right_ne_nil _ (List.cons_ne_nil line []), rfl, rfl⟩
  next => exact ⟨List.append_ne_nil_of_right_ne_nil _ (List.cons_ne_nil line []), rfl, rfl⟩

/-- What is queued changes no file. -/
theorem queued_fields (s : Sink) (c : SinkCall) :
    (c.queued opts s).bytesWritten = s.bytesWritten ∧ (c.queued opts s).files = s.files := by
  cases c with
  | write line => exact (push_fields s line).2
  | _ => exact ⟨rfl, rfl⟩

/-- A call that flushes. -/
theorem perform_flushing {c : SinkCall} (h : c.Flushing opts s) :
    (c.perform opts faults s).1 = ((c.queued opts s).flushNow opts faults).1 := by
  cases c with
  | write line =>
    have hflush : Flushes opts (s.push opts line) := h.2
    rw [SinkCall.perform, Sink.write, if_pos hflush]
    rfl
  | _ => rfl

/-- A call that does not. -/
theorem perform_not_flushing {c : SinkCall} (h : ¬ c.Flushing opts s) :
    (c.perform opts faults s).1 = c.queued opts s := by
  have hnothing : ∀ s : Sink, s.queue = [] → (s.flushNow opts faults).1 = s := by
    intro s hqueue
    rw [Sink.flushNow, if_pos hqueue]
  cases c with
  | write line =>
    have hkept : ¬ Flushes opts (s.push opts line) :=
      fun hflush => h ⟨(push_fields s line).1, hflush⟩
    rw [SinkCall.perform, Sink.write, if_neg hkept]
    rfl
  | flushNow => exact hnothing s (not_not.mp fun hqueue => h ⟨hqueue, trivial⟩)
  | close => exact hnothing s (not_not.mp fun hqueue => h ⟨hqueue, trivial⟩)

/-- The lines survive a call just if it does not throw, and the size of the file is known after
it. -/
theorem perform_survives_iff (hle : s.bytesWritten ≤ s.files.size) (c : SinkCall) :
    Survives (c.queued opts s) (c.perform opts faults s).1 ↔
      ¬ c.Throws opts faults s ∧ c.Sized opts s := by
  obtain ⟨hbytes, hfiles⟩ := @queued_fields opts s c
  rw [SinkCall.Throws, SinkCall.Sized]
  by_cases hflush : c.Flushing opts s
  · rw [perform_flushing hflush, and_iff_right hflush, and_iff_right hflush,
      flushNow_survives_iff hflush.1 (by rwa [hbytes, hfiles]), hbytes, hfiles]
  · rw [perform_not_flushing hflush, survives_self, hbytes, hfiles]
    constructor
    · intro hknown
      exact ⟨fun hthrows => hflush hthrows.1, Or.inl hknown⟩
    · intro hcases
      rcases hcases with ⟨-, hknown | hbegun⟩
      · exact hknown
      · exact absurd hbegun.1 hflush

/-! ## Runs -/

/-- A flush does not count more than there is. -/
theorem append_size_le (h : s.bytesWritten ≤ s.files.size) (lines : List String) :
    (s.append opts faults lines).1.bytesWritten ≤ (s.append opts faults lines).1.files.size := by
  have hsize := size_wrote s lines
  by_cases hthrows : AppendThrows faults
  · obtain ⟨t, call, happend, hcases⟩ := @append_throws opts _ s lines hthrows
    rw [happend]
    rcases hcases with rfl | rfl | rfl
    · exact h
    · rw [size_opened]
      exact h
    · show s.bytesWritten ≤ (s.wrote lines).files.size
      omega
  · obtain ⟨warned, notices, hsum, happend⟩ := @append_fine opts _ s lines hthrows
    rw [happend]
    show s.bytesWritten + (payload lines).length ≤ (s.wrote lines).files.size
    omega

theorem flushNow_size_le (h : s.bytesWritten ≤ s.files.size) :
    (s.flushNow opts faults).1.bytesWritten ≤ (s.flushNow opts faults).1.files.size := by
  obtain ⟨-, hfiles, -, hbytes, -, -⟩ := takeQueue_fields s
  rw [Sink.flushNow]
  split
  next => exact h
  next =>
    split
    next =>
      rcases @rotate_cases opts faults s.takeQueue with
        ⟨-, files, call, hsame, hrotate⟩ | ⟨-, files, hgone, hrotate⟩
      · rw [hrotate]
        show s.takeQueue.bytesWritten ≤ files.size
        rw [Files.size, hsame, hfiles, hbytes]
        exact h
      · rw [hrotate]
        exact append_size_le (Nat.zero_le _) _
    next => exact append_size_le (by rwa [hfiles, hbytes]) _

/-- Whatever throws, no more bytes are counted than are in the file. -/
theorem size_le_of_run {calls : List (SinkCall × Faults)}
    (hrun : (callRuns opts).exec (callRuns opts).init calls = some s) :
    s.bytesWritten ≤ s.files.size := by
  have hpres : ∀ (s : Sink) (c : SinkCall × Faults) (t : Sink), s.bytesWritten ≤ s.files.size →
      True → (callRuns opts).step s c = some t → t.bytesWritten ≤ t.files.size := by
    intro s c t h _ hstep
    obtain rfl := Option.some.inj hstep
    obtain ⟨hbytes, hfiles⟩ := @queued_fields opts s c.1
    have hqueued : (c.1.queued opts s).bytesWritten ≤ (c.1.queued opts s).files.size := by
      rwa [hbytes, hfiles]
    by_cases hflush : c.1.Flushing opts s
    · rw [perform_flushing hflush]
      exact flushNow_size_le hqueued
    · rw [perform_not_flushing hflush]
      exact hqueued
  exact Lts.exec_invariant hpres calls (Nat.zero_le _) hrun (Lts.along_true calls _)

end

/-- **A failing disk loses log lines.** In every state of every run, whatever threw before: after
a call, every line that was queued is in a file or still queued, in order, or was counted as
dropped, and `bytesWritten` is the size of the file, if and only if no file system call throws
in it, and the size was known before it or the call begins a file.

So in a run, these hold after every call if and only if no call throws. -/
theorem survives_iff (opts : NdjsonFileSinkOptions) (calls : List (SinkCall × Faults)) :
    (∀ s, (callRuns opts).exec (callRuns opts).init calls = some s →
      ∀ (c : SinkCall) (faults : Faults),
        Survives (c.queued opts s) (c.perform opts faults s).1 ↔
          ¬ c.Throws opts faults s ∧ c.Sized opts s) ∧
    ((callRuns opts).Along
        (fun s c => Survives (c.1.queued opts s) (c.1.perform opts c.2 s).1)
        (callRuns opts).init calls ↔
      (callRuns opts).Along (fun s c => ¬ c.1.Throws opts c.2 s) (callRuns opts).init calls) := by
  refine ⟨fun s hrun c faults => perform_survives_iff (size_le_of_run hrun) c, ?_⟩
  have hiff : ∀ (s : Sink) (c : SinkCall × Faults), s.bytesWritten = s.files.size →
      (Survives (c.1.queued opts s) (c.1.perform opts c.2 s).1 ↔ ¬ c.1.Throws opts c.2 s) := by
    intro s c hknown
    rw [perform_survives_iff hknown.le c.1]
    exact and_iff_left (Or.inl hknown)
  refine Lts.along_congr hiff ?_ calls rfl
  intro s c t hknown hfine hstep
  obtain rfl := Option.some.inj hstep
  exact ((hiff s c hknown).mpr hfine).2

/-- A sink that flushes with each write. -/
def flushingSink : NdjsonFileSinkOptions where
  path := "orchestrator.log"
  flushIntervalMs := 0

/-- A line that nothing throws for. -/
theorem first_line_survives :
    Survives ((SinkCall.write "a").queued flushingSink .init)
      ((SinkCall.write "a").perform flushingSink .none .init).1 := by
  refine ((survives_iff flushingSink []).1 .init rfl (.write "a") .none).mpr ⟨?_, Or.inl rfl⟩
  intro hcases
  rcases hcases with ⟨-, hthrows | ⟨hover, -⟩⟩
  · exact not_appendThrows_none hthrows
  · revert hover
    rw [Overflows]
    decide +kernel

/-- A directory in which no file can be opened. -/
def unopenable : Faults := fun call => call = .openSync

/-- The line is lost: it is in no file, not queued and not counted. -/
theorem unopenable_loses_line :
    ((SinkCall.write "a").perform flushingSink unopenable .init).2 = some .openSync ∧
    ((SinkCall.write "a").perform flushingSink unopenable .init).1.queue = [] ∧
    ((SinkCall.write "a").perform flushingSink unopenable .init).1.journal = [] ∧
    ((SinkCall.write "a").perform flushingSink unopenable .init).1.counted = 0 ∧
    ¬ Survives ((SinkCall.write "a").queued flushingSink .init)
      ((SinkCall.write "a").perform flushingSink unopenable .init).1 := by
  have hempty : ((SinkCall.write "a").perform flushingSink unopenable .init).1.queue = [] := by
    decide +kernel
  have hjournal : ((SinkCall.write "a").perform flushingSink unopenable .init).1.journal = [] := by
    decide +kernel
  have hcounted : ((SinkCall.write "a").perform flushingSink unopenable .init).1.counted = 0 := by
    decide +kernel
  refine ⟨by decide +kernel, hempty, hjournal, hcounted, ?_⟩
  exact not_survives_lost (by decide +kernel) hempty hjournal hcounted

end Kovael.Log
