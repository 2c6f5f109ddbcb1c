import Kovael.Log.FileSink

/-!
# What the log files hold

Runs of `NdjsonFileSink` from an empty directory, without an error of the file system: lines
are written, the timer or a caller flushes, and the sink is closed and made anew. `sinkRuns`
carries along the lines written, minus those counted as dropped. An `Archive` says which
batches the files are made of, the newest file first.

The files from the oldest to the newest, and the queue, are a suffix of these lines
(`nothing_lost_silently`).
-/

namespace Kovael.Log

open Js
open Js.Base64 (Bytes)

/-- What happens to the sink. -/
inductive SinkEvent where
  | write (line : String)
  | flushNow
  /-- the sink is closed, and another process makes one -/
  | restart

/-- The lines that the event writes. -/
def SinkEvent.lines : SinkEvent → List String
  | .write line => [line]
  | _ => []

/-- The sink after the event. -/
def Sink.after (opts : NdjsonFileSinkOptions) (s : Sink) : SinkEvent → Sink
  | .write line => (s.write opts .none line).1
  | .flushNow => (s.flushNow opts .none).1
  | .restart => (s.close opts .none).1.construct

/-- Of `lines`, of which the last `queued` are in the queue, the `n` oldest queued are left out. -/
def dropOldest (n queued : Nat) (lines : List String) : List String :=
  lines.take (lines.length - queued) ++ (lines.drop (lines.length - queued)).drop n

/-- The runs of the sink, with the lines written minus those counted as dropped. -/
def sinkRuns (opts : NdjsonFileSinkOptions) : Lts (Sink × List String) SinkEvent where
  init := (.init, [])
  step p e :=
    let s := p.1.after opts e
    some (s, dropOldest (s.counted - p.1.counted) p.1.queue.length p.2 ++ e.lines)

/-- The content of a file that some batches were appended to. -/
def fileBytes (batches : List (List String)) : Bytes := batches.flatMap payload

/-- The rotated files from the oldest to the newest, and the file. -/
def Sink.contents (opts : NdjsonFileSinkOptions) (s : Sink) : List Bytes :=
  (List.range (opts.maxFiles + 1)).reverse.filterMap s.files

/-- The lines of a file, each ended by `'\n'`. -/
def readLines (bytes : Bytes) : List String :=
  (((Utf8.decode bytes).toList.splitOn '\n').dropLast).map String.ofList

/-! ## What a step keeps -/

section

variable {opts : NdjsonFileSinkOptions} {s t : Sink}

/-- The batches that the files are made of, the newest file first. -/
structure Archive (opts : NdjsonFileSinkOptions) (s : Sink) (files : List (List (List String))) :
    Prop where
  file : ∀ i, s.files i = files[i]?.map fileBytes
  length : files.length ≤ opts.maxFiles + 1
  bytesWritten : s.bytesWritten = s.files.size
  journal : files.reverse.flatten <:+ s.journal
  batches : ∀ file ∈ files, opts.maxBytes < (fileBytes file).length → file.length = 1

/-- The lines written are in the journal and in the queue, but for those dropped. -/
structure Kept (opts : NdjsonFileSinkOptions) (p : Sink × List String) : Prop where
  lines : p.2 = p.1.journal.flatten ++ p.1.queue
  droppedLines : p.1.queue = [] → p.1.droppedLines = 0
  batches : ∀ lines ∈ p.1.journal, lines ≠ []
  archive : ∃ files, Archive opts p.1 files

theorem fileBytes_append (file : List (List String)) (lines : List String) :
    fileBytes (file ++ [lines]) = fileBytes file ++ payload lines := by
  rw [fileBytes, List.flatMap_append, List.flatMap_singleton, fileBytes]

theorem fileBytes_singleton (lines : List String) : fileBytes [lines] = payload lines :=
  List.flatMap_singleton ..

theorem isSuffix_append_right {α : Type} {xs ys : List α} (h : xs <:+ ys) (zs : List α) :
    xs ++ zs <:+ ys ++ zs := by
  obtain ⟨pre, rfl⟩ := h
  exact ⟨pre, (List.append_assoc ..).symm⟩

/-- A batch that fits is appended to the newest file. -/
theorem Archive.append {files : List (List (List String))} (h : Archive opts s files)
    (hfits : s.bytesWritten + (payload s.queue).length ≤ opts.maxBytes)
    (hfiles : t.files = Function.update s.files 0
      (some ((s.files 0).getD [] ++ payload s.queue)))
    (hbytes : t.bytesWritten = s.bytesWritten + (payload s.queue).length)
    (hjournal : t.journal = s.journal ++ [s.queue]) :
    Archive opts t ((files.headD [] ++ [s.queue]) :: files.tail) := by
  have hhead : (s.files 0).getD [] = fileBytes (files.headD []) := by
    rw [h.file 0]
    cases files with
    | nil => rfl
    | cons file rest => rfl
  have hnewest : t.files 0 = some (fileBytes (files.headD [] ++ [s.queue])) := by
    rw [hfiles, Function.update_self, hhead, fileBytes_append]
  have hsize : t.bytesWritten = t.files.size := by
    rw [hbytes, h.bytesWritten, Files.size, Files.size, hnewest, Option.getD_some, hhead,
      fileBytes_append, List.length_append]
  refine ⟨?_, ?_, hsize, ?_, ?_⟩
  · intro i
    cases i with
    | zero => exact hnewest
    | succ i =>
      rw [hfiles, Function.update_of_ne (by omega), h.file, List.getElem?_cons_succ,
        List.getElem?_tail]
  · have hlength := h.length
    rw [List.length_cons, List.length_tail]
    omega
  · rw [hjournal, List.reverse_cons, List.flatten_append, List.flatten_singleton,
      ← List.append_assoc]
    refine isSuffix_append_right ?_ _
    cases files with
    | nil => exact List.nil_suffix
    | cons file rest =>
      have hjournal := h.journal
      rw [List.reverse_cons, List.flatten_append, List.flatten_singleton] at hjournal
      exact hjournal
  · intro file hfile hover
    rcases List.mem_cons.mp hfile with rfl | hold
    · -- the newest file is not over the limit
      rw [Files.size, hnewest, Option.getD_some] at hsize
      omega
    · exact h.batches file (List.mem_of_mem_tail hold) hover

/-- A batch that does not fit starts a file; the others move up, and the oldest may go. -/
theorem Archive.rotate {files : List (List (List String))} (h : Archive opts s files)
    {rotated : Files} (hrotated : Rotated opts s.files rotated)
    (hfiles : t.files = Function.update rotated 0 (some (payload s.queue)))
    (hbytes : t.bytesWritten = (payload s.queue).length)
    (hjournal : t.journal = s.journal ++ [s.queue]) :
    Archive opts t (([s.queue] :: files).take (opts.maxFiles + 1)) := by
  have hnewest : t.files 0 = some (payload s.queue) := by
    rw [hfiles, Function.update_self]
  refine ⟨?_, ?_, ?_, ?_, ?_⟩
  · intro i
    cases i with
    | zero =>
      rw [hnewest, List.take_succ_cons, List.getElem?_cons_zero, Option.map_some,
        fileBytes_singleton]
    | succ i =>
      rw [hfiles, Function.update_of_ne (by omega), hrotated.2 (i + 1) (by omega), h.file, h.file,
        List.getElem?_take]
      split
      next hle =>
        rw [if_pos (by omega), List.getElem?_cons_succ]
        rfl
      next hlast =>
        have hlength := h.length
        rw [if_neg (by omega), List.getElem?_eq_none (by omega)]
  · exact List.length_take_le ..
  · rw [hbytes, Files.size, hnewest, Option.getD_some]
  · have hprefix : ([s.queue] :: files).take (opts.maxFiles + 1) <+: [s.queue] :: files :=
      List.take_prefix ..
    obtain ⟨gone, hgone⟩ := List.reverse_suffix.mpr hprefix
    rw [hjournal]
    refine List.IsSuffix.trans ⟨gone.flatten, ?_⟩ (isSuffix_append_right h.journal [s.queue])
    rw [← List.flatten_append, hgone, List.reverse_cons, List.flatten_append,
      List.flatten_singleton]
  · intro file hfile hover
    rcases List.mem_cons.mp (List.mem_of_mem_take hfile) with rfl | hold
    · rfl
    · exact h.batches file hold hover

/-- A flush keeps what was kept. -/
theorem Kept.flushed {lines : List String} (h : Kept opts (s, lines)) (hqueue : s.queue ≠ [])
    (hflushed : Flushed opts s t) : Kept opts (t, lines) := by
  obtain ⟨files, harchive⟩ := h.archive
  refine ⟨?_, fun _ => hflushed.droppedLines, ?_, ?_⟩
  · show lines = t.journal.flatten ++ t.queue
    rw [hflushed.journal, hflushed.queue, List.flatten_append, List.flatten_singleton,
      List.append_nil]
    exact h.lines
  · intro batch hbatch
    rw [hflushed.journal, List.mem_append, List.mem_singleton] at hbatch
    rcases hbatch with hold | rfl
    · exact h.batches batch hold
    · exact hqueue
  · rcases hflushed.files with ⟨hfits, hfiles, hbytes⟩ | ⟨rotated, hrotated, hfiles, hbytes⟩
    · exact ⟨_, harchive.append hfits hfiles hbytes hflushed.journal⟩
    · exact ⟨_, harchive.rotate hrotated hfiles hbytes hflushed.journal⟩

/-- `flushNow` keeps what was kept, and drops nothing. -/
theorem Kept.flushNow {lines : List String} (h : Kept opts (s, lines))
    (hmax : 1 ≤ opts.maxFiles) :
    Kept opts ((s.flushNow opts .none).1, lines) ∧
      (s.flushNow opts .none).1.counted = s.counted ∧
      (s.flushNow opts .none).1.queue = [] := by
  by_cases hqueue : s.queue = []
  · have hsame : s.flushNow opts .none = (s, none) := if_pos hqueue
    rw [hsame]
    exact ⟨h, rfl, hqueue⟩
  · obtain ⟨t, hflush, hflushed⟩ := flushNow_none s hmax hqueue
    rw [hflush]
    exact ⟨h.flushed hqueue hflushed, hflushed.counted, hflushed.queue⟩

theorem dropOldest_zero (queued : Nat) (lines : List String) : dropOldest 0 queued lines = lines :=
  List.take_append_drop ..

/-- What is dropped of lines of which the last ones are queued. -/
theorem dropOldest_append (n : Nat) (written queue : List String) :
    dropOldest n queue.length (written ++ queue) = written ++ queue.drop n := by
  rw [dropOldest, List.length_append, Nat.add_sub_cancel, List.take_left, List.drop_left]

/-- A line that is queued keeps what was kept, but for the line it drops. -/
theorem Kept.push {lines : List String} (h : Kept opts (s, lines)) (line : String) :
    Kept opts (s.push opts line,
      dropOldest ((s.push opts line).counted - s.counted) s.queue.length lines ++ [line]) := by
  have hlines : lines = s.journal.flatten ++ s.queue := h.lines
  obtain ⟨files, harchive⟩ := h.archive
  rw [Sink.push]
  split
  next hfull =>
    have hone : s.counted + 1 - s.counted = 1 := by omega
    refine ⟨?_, fun hempty => absurd hempty (by simp), h.batches, files, ?_⟩
    · show dropOldest (s.counted + 1 - s.counted) s.queue.length lines ++ [line] =
        s.journal.flatten ++ (s.queue.tail ++ [line])
      rw [hone, hlines, dropOldest_append, List.drop_one, List.append_assoc]
    · exact ⟨harchive.file, harchive.length, harchive.bytesWritten, harchive.journal,
        harchive.batches⟩
  next hroom =>
    refine ⟨?_, fun hempty => absurd hempty (by simp), h.batches, files, ?_⟩
    · show dropOldest (s.counted - s.counted) s.queue.length lines ++ [line] =
        s.journal.flatten ++ (s.queue ++ [line])
      rw [Nat.sub_self, dropOldest_zero, hlines, List.append_assoc]
    · exact ⟨harchive.file, harchive.length, harchive.bytesWritten, harchive.journal,
        harchive.batches⟩

/-- A sink that is made over files knows their size. -/
theorem Kept.construct {lines : List String} (h : Kept opts (s, lines)) (hqueue : s.queue = []) :
    Kept opts (s.construct, lines) ∧ s.construct.counted = s.counted := by
  have hlines : lines = s.journal.flatten ++ s.queue := h.lines
  have hdropped : s.droppedLines = 0 := h.droppedLines hqueue
  obtain ⟨files, harchive⟩ := h.archive
  refine ⟨⟨?_, fun _ => rfl, h.batches, files, ?_⟩, ?_⟩
  · rw [hqueue] at hlines
    exact hlines
  · exact ⟨harchive.file, harchive.length, rfl, harchive.journal, harchive.batches⟩
  · rw [Sink.counted, Sink.counted, hdropped]
    rfl

/-- An event keeps what was kept. -/
theorem Kept.step {p p' : Sink × List String} {e : SinkEvent} (h : Kept opts p)
    (hmax : 1 ≤ opts.maxFiles) (hstep : (sinkRuns opts).step p e = some p') : Kept opts p' := by
  obtain ⟨s, lines⟩ := p
  obtain rfl := Option.some.inj hstep
  cases e with
  | write line =>
    have hpush := h.push line
    show Kept opts ((s.write opts .none line).1,
      dropOldest ((s.write opts .none line).1.counted - s.counted) s.queue.length lines ++ [line])
    rw [Sink.write]
    split
    next =>
      obtain ⟨hkept, hcounted, -⟩ := hpush.flushNow hmax
      rw [hcounted]
      exact hkept
    next => exact hpush
  | flushNow =>
    obtain ⟨hkept, hcounted, -⟩ := h.flushNow hmax
    show Kept opts ((s.flushNow opts .none).1,
      dropOldest ((s.flushNow opts .none).1.counted - s.counted) s.queue.length lines ++ [])
    rw [hcounted, Nat.sub_self, dropOldest_zero, List.append_nil]
    exact hkept
  | restart =>
    obtain ⟨hkept, hcounted, hqueue⟩ := h.flushNow hmax
    obtain ⟨hmade, hsame⟩ := hkept.construct hqueue
    show Kept opts ((s.flushNow opts .none).1.construct,
      dropOldest ((s.flushNow opts .none).1.construct.counted - s.counted) s.queue.length lines ++ [])
    rw [hsame, hcounted, Nat.sub_self, dropOldest_zero, List.append_nil]
    exact hmade

theorem kept_init : Kept opts (sinkRuns opts).init :=
  ⟨rfl, fun _ => rfl, fun _ hbatch => absurd hbatch List.not_mem_nil, [], fun _ => rfl,
    Nat.zero_le _, rfl, List.nil_suffix, fun _ hfile => absurd hfile List.not_mem_nil⟩

/-- A run keeps every line that was not dropped. -/
theorem kept_of_run {events : List SinkEvent} {p : Sink × List String} (hmax : 1 ≤ opts.maxFiles)
    (hrun : (sinkRuns opts).exec (sinkRuns opts).init events = some p) : Kept opts p := by
  have hpres : ∀ p e p', Kept opts p → True → (sinkRuns opts).step p e = some p' → Kept opts p' :=
    fun _ _ _ h _ hstep => h.step hmax hstep
  exact Lts.exec_invariant hpres events kept_init hrun (Lts.along_true events _)

/-! ## What was dropped -/

/-- What is left of the lines written is in their order, and what is missing was counted. -/
structure Accounted (opts : NdjsonFileSinkOptions) (written : List String)
    (p : Sink × List String) : Prop where
  sublist : p.2.Sublist written
  counted : written.length ≤ p.2.length + p.1.counted
  exact : 1 ≤ opts.maxQueueLines → written.length = p.2.length + p.1.counted

theorem dropOldest_sublist (n queued : Nat) (lines : List String) :
    (dropOldest n queued lines).Sublist lines := by
  have hlast := (List.drop_sublist n (lines.drop (lines.length - queued))).append_left
    (lines.take (lines.length - queued))
  rw [List.take_append_drop] at hlast
  exact hlast

theorem length_dropOldest (n queued : Nat) (lines : List String) :
    (dropOldest n queued lines).length =
      lines.length - queued + (lines.length - (lines.length - queued) - n) := by
  rw [dropOldest, List.length_append, List.length_drop, List.length_take, List.length_drop,
    Nat.min_eq_left (Nat.sub_le ..)]

/-- The lines that the event counts as dropped. -/
def SinkEvent.drops (opts : NdjsonFileSinkOptions) (s : Sink) : SinkEvent → Nat
  | .write _ => if opts.maxQueueLines ≤ s.queue.length then 1 else 0
  | _ => 0

/-- What an event counts as dropped. -/
theorem counted_after {lines : List String} (h : Kept opts (s, lines)) (hmax : 1 ≤ opts.maxFiles)
    (e : SinkEvent) : (s.after opts e).counted = s.counted + e.drops opts s := by
  obtain ⟨hkept, hcounted, hqueue⟩ := h.flushNow hmax
  cases e with
  | write line =>
    have hpush : (s.push opts line).counted =
        s.counted + if opts.maxQueueLines ≤ s.queue.length then 1 else 0 := by
      rw [Sink.push]
      split
      next => rfl
      next => rfl
    rw [Sink.after, Sink.write, SinkEvent.drops, ← hpush]
    split
    next => exact ((h.push line).flushNow hmax).2.1
    next => rfl
  | flushNow => exact hcounted
  | restart => exact (hkept.construct hqueue).2.trans hcounted

theorem accounted_of_run (hmax : 1 ≤ opts.maxFiles) (events : List SinkEvent)
    {p p' : Sink × List String} (hkept : Kept opts p)
    (hrun : (sinkRuns opts).exec p events = some p') {written : List String}
    (h : Accounted opts written p) :
    Accounted opts (written ++ events.flatMap SinkEvent.lines) p' := by
  induction events generalizing p written with
  | nil =>
    rw [Lts.exec_nil, Option.some.injEq] at hrun
    rw [List.flatMap_nil, List.append_nil, ← hrun]
    exact h
  | cons e events ih =>
    obtain ⟨q, hstep, hrest⟩ := Lts.exec_cons.mp hrun
    have hnext : Accounted opts (written ++ e.lines) q := by
      obtain rfl := Option.some.inj hstep
      have hdrops : (p.1.after opts e).counted = p.1.counted + e.drops opts p.1 :=
        counted_after hkept hmax e
      have hsublist := dropOldest_sublist (e.drops opts p.1) p.1.queue.length p.2
      have hlength := length_dropOldest (e.drops opts p.1) p.1.queue.length p.2
      have hqueued : p.1.queue.length ≤ p.2.length := by
        rw [hkept.lines, List.length_append]
        omega
      have hcounted := h.counted
      rw [hdrops, Nat.add_sub_cancel_left]
      refine ⟨(hsublist.trans h.sublist).append (List.Sublist.refl _), ?_, fun hroom => ?_⟩
      · show (written ++ e.lines).length ≤
          (dropOldest (e.drops opts p.1) p.1.queue.length p.2 ++ e.lines).length +
            (p.1.after opts e).counted
        rw [List.length_append, List.length_append, hdrops]
        omega
      · have hexact := h.exact hroom
        -- a queue that can hold a line has one when it is full
        have hone : e.drops opts p.1 ≤ p.1.queue.length := by
          cases e with
          | write line =>
            rw [SinkEvent.drops]
            split
            next hfull => omega
            next => omega
          | _ => exact Nat.zero_le _
        show (written ++ e.lines).length =
          (dropOldest (e.drops opts p.1) p.1.queue.length p.2 ++ e.lines).length +
            (p.1.after opts e).counted
        rw [List.length_append, List.length_append, hdrops]
        omega
    rw [List.flatMap_cons, ← List.append_assoc]
    exact ih (hkept.step hmax hstep) hrest hnext

/-! ## Reading the files -/

theorem filterMap_range_getElem? {α : Type} (n : Nat) (xs : List α) (h : xs.length ≤ n) :
    (List.range n).filterMap (fun i => xs[i]?) = xs := by
  induction n generalizing xs with
  | zero =>
    rw [List.eq_nil_of_length_eq_zero (Nat.le_zero.mp h)]
    rfl
  | succ n ih =>
    rw [List.range_succ_eq_map, List.filterMap_cons, List.filterMap_map]
    cases xs with
    | nil => exact List.filterMap_eq_nil_iff.mpr fun _ _ => rfl
    | cons x xs =>
      have hrest := ih xs (by rw [List.length_cons] at h; omega)
      exact congrArg (x :: ·) hrest

/-- What the files are, read in order. -/
theorem Archive.contents {files : List (List (List String))} (h : Archive opts s files) :
    s.contents opts = files.reverse.map fileBytes := by
  have hfile : s.files = fun i => (files.map fileBytes)[i]? := by
    funext i
    rw [h.file, List.getElem?_map]
  have hlength : (files.map fileBytes).length ≤ opts.maxFiles + 1 := by
    rw [List.length_map]
    exact h.length
  rw [Sink.contents, List.filterMap_reverse, hfile, filterMap_range_getElem? _ _ hlength,
    List.map_reverse]

/-- The lines, each ended. -/
def lineText (lines : List String) : List Char := lines.flatMap fun line => line.toList ++ ['\n']

theorem toList_joined {lines : List String} (h : lines ≠ []) :
    ("\n".intercalate lines ++ "\n").toList = lineText lines := by
  induction lines with
  | nil => exact absurd rfl h
  | cons line rest ih =>
    rw [lineText, List.flatMap_cons, ← lineText]
    cases rest with
    | nil =>
      rw [String.intercalate_singleton, String.toList_append, lineText, List.flatMap_nil,
        List.append_nil]
      rfl
    | cons next rest =>
      rw [String.intercalate_cons_cons, String.append_assoc, String.append_assoc,
        String.toList_append, String.toList_append, ih (List.cons_ne_nil next rest), List.append_assoc]
      rfl

/-- The text of a file of batches that are not empty. -/
theorem fileBytes_eq {file : List (List String)} (h : ∀ lines ∈ file, lines ≠ []) :
    fileBytes file = Utf8.encode (String.ofList (lineText file.flatten)) := by
  have hflat : file.flatten = file.flatMap fun lines => lines := List.flatMap_id'.symm
  rw [Utf8.encode, String.toList_ofList, lineText, hflat, List.flatMap_assoc, List.flatMap_assoc,
    fileBytes]
  refine List.flatMap_congr fun lines hlines => ?_
  rw [payload, Utf8.encode, toList_joined (h lines hlines), lineText, List.flatMap_assoc]

/-- Lines without an end in them are read back. -/
theorem splitOn_lineText {lines : List String} (h : ∀ line ∈ lines, '\n' ∉ line.toList) :
    (lineText lines).splitOn '\n' = lines.map String.toList ++ [[]] := by
  induction lines with
  | nil => rfl
  | cons line rest ih =>
    have hline := h line (List.mem_cons_self ..)
    rw [lineText, List.flatMap_cons, List.append_assoc, List.singleton_append,
      List.splitOn_append_cons_self_of_not_mem hline, ← lineText,
      ih fun l hl => h l (List.mem_cons_of_mem _ hl)]
    rfl

/-- The lines of a file are those of its batches. -/
theorem readLines_fileBytes {file : List (List String)} (h : ∀ lines ∈ file, lines ≠ [])
    (hline : ∀ line ∈ file.flatten, '\n' ∉ line.toList) :
    readLines (fileBytes file) = file.flatten := by
  rw [readLines, fileBytes_eq h, Utf8.decode_encode, String.toList_ofList,
    splitOn_lineText hline, List.dropLast_concat, List.map_map]
  exact (List.map_congr_left fun line _ => String.ofList_toList).trans (List.map_id _)

theorem mem_flatten_of_suffix {files : List (List (List String))} {journal : List (List String)}
    (h : files.flatten <:+ journal) {file : List (List String)} (hfile : file ∈ files)
    {lines : List String} (hlines : lines ∈ file) : lines ∈ journal :=
  h.subset (List.mem_flatten.mpr ⟨file, hfile, hlines⟩)

end

/-- **Log files lose nothing silently.** After every run from an empty directory, with `lines`
the lines written minus those counted as dropped, each of which was the oldest in the queue:

the files, from the oldest to the newest, are made of whole batches, these are the last ones
that were flushed, and a file over `maxBytes` has only one;

the lines of the files and of the queue are a suffix of `lines`, which is also what is read of
the files where no line has an end in it;

`lines` are the lines written, in their order, less at most as many as were counted, and less
just these if the queue has room for a line;

and there is no rotated file beyond `maxFiles`. -/
theorem nothing_lost_silently (opts : NdjsonFileSinkOptions) (hmax : 1 ≤ opts.maxFiles)
    (events : List SinkEvent) (s : Sink) (lines : List String)
    (hrun : (sinkRuns opts).exec (sinkRuns opts).init events = some (s, lines)) :
    (∃ files : List (List (List String)),
      s.contents opts = files.map fileBytes ∧ files.flatten <:+ s.journal ∧
      files.flatten.flatten ++ s.queue <:+ lines ∧
      ∀ file ∈ files, opts.maxBytes < (fileBytes file).length → file.length = 1) ∧
    ((∀ line ∈ lines, '\n' ∉ line.toList) →
      (s.contents opts).flatMap readLines ++ s.queue <:+ lines) ∧
    lines.Sublist (events.flatMap SinkEvent.lines) ∧
    (events.flatMap SinkEvent.lines).length ≤ lines.length + s.counted ∧
    (1 ≤ opts.maxQueueLines →
      (events.flatMap SinkEvent.lines).length = lines.length + s.counted) ∧
    ∀ i, opts.maxFiles < i → s.files i = none := by
  have hkept := kept_of_run hmax hrun
  have hnone : Accounted opts [] (sinkRuns opts).init :=
    ⟨List.Sublist.refl _, Nat.zero_le _, fun _ => rfl⟩
  have haccounted := accounted_of_run hmax events kept_init hrun hnone
  obtain ⟨files, harchive⟩ := hkept.archive
  have hlines : lines = s.journal.flatten ++ s.queue := hkept.lines
  have hcontents := harchive.contents
  have hjournal := harchive.journal
  have hsuffix : files.reverse.flatten.flatten ++ s.queue <:+ lines := by
    obtain ⟨gone, hgone⟩ := hjournal
    refine ⟨gone.flatten, ?_⟩
    rw [hlines, ← hgone, List.flatten_append, List.append_assoc]
  refine ⟨⟨files.reverse, hcontents, hjournal, hsuffix, ?_⟩, ?_, haccounted.sublist,
    haccounted.counted, haccounted.exact, ?_⟩
  · intro file hfile
    exact harchive.batches file (List.mem_reverse.mp hfile)
  · intro hends
    have hread : ∀ file ∈ files.reverse, readLines (fileBytes file) = file.flatten := by
      intro file hfile
      refine readLines_fileBytes (fun batch hbatch => ?_) (fun line hline => ?_)
      · exact hkept.batches batch (mem_flatten_of_suffix hjournal hfile hbatch)
      · refine hends line (hsuffix.subset (List.mem_append_left _ ?_))
        obtain ⟨batch, hbatch, hmem⟩ := List.mem_flatten.mp hline
        exact List.mem_flatten.mpr
          ⟨batch, List.mem_flatten.mpr ⟨file, hfile, hbatch⟩, hmem⟩
    rw [hcontents, List.flatMap_map, List.flatMap_congr hread]
    have hflat : files.reverse.flatMap List.flatten = files.reverse.flatten.flatten := by
      rw [List.flatMap_def, List.flatten_flatten]
    rw [hflat]
    exact hsuffix
  · intro i hi
    have hlength := harchive.length
    rw [harchive.file, List.getElem?_eq_none (by omega)]
    rfl

/-- A sink for two lines a file, flushed by each write. -/
def smallSink : NdjsonFileSinkOptions where
  path := "orchestrator.log"
  maxBytes := 20
  flushIntervalMs := 0
  maxFiles := 1

/-- Five lines, with a restart before the last. -/
def fiveLines : List SinkEvent :=
  [.write "xxxxxxxxx", .write "yyyyyyyyy", .write "zzzzzzzzz", .write "wwwwwwwww", .restart,
    .write "vvvvvvvvv"]

theorem oldest_evicted :
    ∃ s lines, (sinkRuns smallSink).exec (sinkRuns smallSink).init fiveLines = some (s, lines) ∧
      (s.contents smallSink).flatMap readLines = ["zzzzzzzzz", "wwwwwwwww", "vvvvvvvvv"] ∧
      (s.contents smallSink).flatMap readLines ++ s.queue <:+ lines := by
  refine ⟨_, _, rfl, by decide +kernel, ?_⟩
  exact (nothing_lost_silently smallSink (by decide) fiveLines _ _ rfl).2.1 (by decide +kernel)

end Kovael.Log
