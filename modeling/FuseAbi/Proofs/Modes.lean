import FuseAbi.Proofs.Files

/-!
# One stream or several files

Requests can be given to the dump back to back in one file or each in a file of its own. It makes no difference
to what is shown of them, nor to the status (`run_stream_eq_files`). Each request is shown by itself, in order,
and its path shows nowhere but in the log: a line of the log is the same whatever the path is, or it is a
warning that starts with the path (`PathLine`).

That the cut of a stream is exact has its use here: the frames of requests that were put back to back are those
requests again (`framed_flatten`).
-/

namespace FuseAbi.Dump

/-! ## The path in the log -/

/-- A line of the log, with the path in it left open. -/
inductive PathLine where
  /-- A line that no path stands in. -/
  | plain (line : LogLine)
  /-- A warning that starts with the path. -/
  | warning (rest : Bytes)
deriving DecidableEq, Repr

/-- The line that comes of a path. -/
def PathLine.line : PathLine → (path : Bytes) → LogLine
  | plain line, _ => line
  | warning rest, path => { level := .warning, text := path ++ rest }

theorem map_plain_line (lines : List LogLine) (path : Bytes) :
    (lines.map PathLine.plain).map (·.line path) = lines := by
  rw [List.map_map]
  exact List.map_id lines

/-- A warning starts with its path. -/
theorem warning_eq (path buffer : Bytes) (e : DecodeError) :
    warning path buffer e = { level := .warning, text := path ++ (warning [] buffer e).text } := by
  simp only [warning, List.append_assoc, List.nil_append]

/-- A warning is kept or not whatever its path is. -/
theorem exists_emit_warning (threshold : Level) (buffer : Bytes) (e : DecodeError) :
    ∃ lines : List PathLine, ∀ path,
      (warning path buffer e).emit threshold = lines.map (·.line path) := by
  by_cases hkept : threshold ≤ .warning
  · refine ⟨[.warning (warning [] buffer e).text], fun path => ?_⟩
    rw [LogLine.emit, warning_eq, if_pos hkept]
    rfl
  · refine ⟨[], fun path => ?_⟩
    rw [LogLine.emit, warning_eq, if_neg hkept]
    rfl

/-- What is logged of a request hangs on its path by its warning alone. -/
theorem exists_log (settings : Settings) (buffer : Bytes) :
    ∃ lines : List PathLine, ∀ path,
      (dumpRequest settings path buffer).log = lines.map (·.line path) := by
  cases h : Request.decode settings.minor buffer with
  | ok request =>
    refine ⟨((Request.logLine (.ok request)).emit settings.threshold).map .plain, fun path => ?_⟩
    rw [dumpRequest_of_ok settings path h, map_plain_line]
  | error e =>
    obtain ⟨lines, hlines⟩ := exists_emit_warning settings.threshold buffer e
    refine ⟨((Request.logLine (.error e)).emit settings.threshold).map .plain ++ lines, fun path => ?_⟩
    rw [dumpRequest_of_error settings path h, List.map_append, map_plain_line, hlines]

/-! ## The two ways -/

section Ways

variable (settings : Settings) {files : List (Bytes × Bytes)}

/-- How a request went does not hang on its path. -/
theorem dumpRequest_status (path path' buffer : Bytes) :
    (dumpRequest settings path buffer).status = (dumpRequest settings path' buffer).status := by
  cases h : Request.decode settings.minor buffer with
  | ok request => rw [dumpRequest_of_ok settings path h, dumpRequest_of_ok settings path' h]
  | error e => rw [dumpRequest_of_error settings path h, dumpRequest_of_error settings path' h]

/-- Requests that are put back to back are the frames of a stream in which nothing is left. -/
theorem framed_flatten
    (hframes : ∀ file ∈ files, 40 ≤ file.2.length ∧ (wordAt file.2 0).toNat = file.2.length) :
    Framed (files.map Prod.snd).flatten (files.map Prod.snd) [] where
  flatten_append := List.append_nil _
  length_frame := List.forall_mem_map.mpr hframes
  left_stuck := .inl rfl

theorem dumpFiles_stream {contents : Bytes → Option File} {path : Bytes} (hstream : settings.stream = true)
    (hframes : ∀ file ∈ files, 40 ≤ file.2.length ∧ (wordAt file.2 0).toNat = file.2.length)
    (hfile : contents path = some (.whole (files.map Prod.snd).flatten)) :
    dumpFiles settings contents [path] =
      Report.concat (files.map fun file => dumpRequest settings path file.2) := by
  rw [dumpFiles_single_of_ok settings contents (fileBytes_eq_ok_iff.mpr hfile), dumpFile, if_pos hstream,
    dumpStream_of_framed settings path (framed_flatten hframes), leftComplaint, if_pos rfl, if_pos rfl,
    Report.append_empty, List.map_map]
  rfl

theorem dumpFiles_separate {contents : Bytes → Option File} (hstream : settings.stream = false)
    (hfiles : ∀ file ∈ files, contents file.1 = some (.whole file.2)) :
    dumpFiles settings contents (files.map Prod.fst) =
      Report.concat (files.map fun file => dumpRequest settings file.1 file.2) := by
  induction files with
  | nil => rfl
  | cons file rest ih =>
    obtain ⟨hfile, hrest⟩ := List.forall_mem_cons.mp hfiles
    rw [List.map_cons, List.map_cons, Report.concat_cons, ← ih hrest,
      dumpFiles_cons_of_ok settings (fileBytes_eq_ok_iff.mpr hfile), dumpFile, hstream]
    rfl

/-- The same requests under other paths show the same and go as well. -/
theorem concat_dumpRequest_eq (pathOf pathOf' : Bytes × Bytes → Bytes) (files : List (Bytes × Bytes)) :
    (Report.concat (files.map fun file => dumpRequest settings (pathOf file) file.2)).stdout =
      (Report.concat (files.map fun file => dumpRequest settings (pathOf' file) file.2)).stdout ∧
    (Report.concat (files.map fun file => dumpRequest settings (pathOf file) file.2)).stderr =
      (Report.concat (files.map fun file => dumpRequest settings (pathOf' file) file.2)).stderr ∧
    (Report.concat (files.map fun file => dumpRequest settings (pathOf file) file.2)).status =
      (Report.concat (files.map fun file => dumpRequest settings (pathOf' file) file.2)).status := by
  refine ⟨?_, ?_, eq_of_forall_ge_iff fun bound => ?_⟩
  · simp only [Report.concat_stdout, List.flatMap_map, dumpRequest_stdout]
  · simp only [Report.concat_stderr, List.flatMap_map, dumpRequest_stderr]
  · simp only [Report.concat_status_le_iff, List.forall_mem_map]
    exact forall₂_congr fun file _ => by rw [dumpRequest_status settings (pathOf file) (pathOf' file)]

end Ways

/-- Requests that are put back to back in one stream and requests in files of their own are shown alike, and
the run goes as well; and the log is the same line by line, but that a warning starts with the path of the
stream or with that of the request's own file. -/
theorem run_stream_eq_files {files : List (Bytes × Bytes)} (hfiles : files ≠ [])
    (hframes : ∀ file ∈ files, 40 ≤ file.2.length ∧ (wordAt file.2 0).toNat = file.2.length)
    {arguments arguments' : List Bytes} {minor : UInt32} {logLevel path : Bytes}
    (h : Options.ofArguments arguments = .ok { minor, logLevel, stream := true, files := [path] })
    (h' : Options.ofArguments arguments' =
      .ok { minor, logLevel, stream := false, files := files.map Prod.fst })
    {contents contents' : Bytes → Option File} (hstream : contents path = some (.whole (files.map Prod.snd).flatten))
    (hseparate : ∀ file ∈ files, contents' file.1 = some (.whole file.2)) (program : Bytes) :
    (run program arguments contents).stdout = (run program arguments' contents').stdout ∧
    (run program arguments contents).stderr = (run program arguments' contents').stderr ∧
    (run program arguments contents).status = (run program arguments' contents').status ∧
    ∃ lines : Bytes → List PathLine,
      (run program arguments contents).log = files.flatMap (fun file => (lines file.2).map (·.line path)) ∧
      (run program arguments' contents').log =
        files.flatMap (fun file => (lines file.2).map (·.line file.1)) := by
  have hpaths : files.map Prod.fst ≠ [] := by
    rw [ne_eq, List.map_eq_nil_iff]
    exact hfiles
  rw [run_of_ok program contents h, run_of_ok program contents' h']
  rcases valid_or_invalid minor logLevel with ⟨threshold, minor', hlevel, hminor⟩ | hinvalid
  · have hone := runOptions_of_valid program hlevel hminor true (List.cons_ne_nil path []) contents
    have hmany := runOptions_of_valid program hlevel hminor false hpaths contents'
    rw [dumpFiles_stream _ rfl hframes hstream] at hone
    rw [dumpFiles_separate _ rfl hseparate] at hmany
    -- of the settings, a request hangs on those that the two runs have in common
    have hsettings : dumpRequest { minor := minor', threshold, stream := false } =
        dumpRequest { minor := minor', threshold, stream := true } := rfl
    rw [hsettings] at hmany
    rw [hone, hmany]
    generalize { minor := minor', threshold, stream := true : Settings } = settings
    obtain ⟨hstdout, hstderr, hstatus⟩ := concat_dumpRequest_eq settings (fun _ => path) Prod.fst files
    choose lines hlines using exists_log settings
    refine ⟨hstdout, hstderr, hstatus, lines, ?_, ?_⟩
    · simp only [Report.concat_log, List.flatMap_map, hlines]
    · simp only [Report.concat_log, List.flatMap_map, hlines]
  · obtain ⟨complaint, hfailure⟩ := runOptions_of_invalid program hinvalid
    have hone := hfailure true _ (List.cons_ne_nil path []) contents
    have hmany := hfailure false _ hpaths contents'
    rw [hone, hmany]
    have hsilent (paths : Bytes × Bytes → Bytes) :
        files.flatMap (fun file => ([] : List PathLine).map (·.line (paths file))) = [] :=
      List.flatMap_eq_nil_iff.mpr fun file _ => rfl
    exact ⟨rfl, rfl, rfl, fun _ => [], (hsilent fun _ => path).symm, (hsilent Prod.fst).symm⟩

/-- Three requests, one without the name that it needs. -/
def statfsAndLookup : List (Bytes × Bytes) :=
  [(ascii "a", bareRequest .statfs), (ascii "b", bareRequest .lookup), (ascii "a", bareRequest .statfs)]

/-- Every file holds the three requests. -/
def threeTogether (_ : Bytes) : Option File :=
  some (.whole (statfsAndLookup.map Prod.snd).flatten)

/-- A file holds the request that is listed with it. -/
def threeApart (path : Bytes) : Option File :=
  List.lookup path statfsAndLookup

/-- The request that is refused stands between two that are decoded, in the stream as among the files. -/
theorem run_stream_eq_files_statfsAndLookup :
    (run (ascii "dump") [ascii "--stream", ascii "s"] threeTogether).stdout =
      (run (ascii "dump") [ascii "a", ascii "b", ascii "a"] threeApart).stdout ∧
    (run (ascii "dump") [ascii "--stream", ascii "s"] threeTogether).status = 1 ∧
    (run (ascii "dump") [ascii "a", ascii "b", ascii "a"] threeApart).status = 1 := by
  have hfiles : statfsAndLookup ≠ [] := List.cons_ne_nil _ _
  have hframes : ∀ file ∈ statfsAndLookup, 40 ≤ file.2.length ∧ (wordAt file.2 0).toNat = file.2.length := by
    decide
  have h : Options.ofArguments [ascii "--stream", ascii "s"] =
      .ok { minor := 31, logLevel := [], stream := true, files := [ascii "s"] } := by decide
  have h' : Options.ofArguments [ascii "a", ascii "b", ascii "a"] =
      .ok { minor := 31, logLevel := [], stream := false, files := statfsAndLookup.map Prod.fst } := by decide
  have htogether : threeTogether (ascii "s") = some (.whole (statfsAndLookup.map Prod.snd).flatten) := rfl
  have hapart : ∀ file ∈ statfsAndLookup, threeApart file.1 = some (.whole file.2) := by decide
  obtain ⟨hstdout, -, hstatus, -⟩ :=
    run_stream_eq_files hfiles hframes h h' htogether hapart (ascii "dump")
  have hone : (run (ascii "dump") [ascii "a", ascii "b", ascii "a"] threeApart).status = 1 := by decide
  exact ⟨hstdout, hstatus.trans hone, hone⟩

end FuseAbi.Dump
