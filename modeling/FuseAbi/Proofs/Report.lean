import FuseAbi.Dump.Run

/-!
# What parts of a run add up to

A report is put together from the reports of single requests, and each of its columns by a rule of its own:
texts and logs follow each other, and of the statuses the gravest wins. Here each rule is stated once, so that
a fact about a whole run comes down to one request.

Of a request's report, output and status depend on the minor and the bytes alone. The path is only named in
the log, and the threshold only says which log lines are kept.
-/

namespace FuseAbi.Dump

namespace Report

@[simp] theorem append_stdout (a b : Report) : (a ++ b).stdout = a.stdout ++ b.stdout := rfl

@[simp] theorem append_stderr (a b : Report) : (a ++ b).stderr = a.stderr ++ b.stderr := rfl

@[simp] theorem append_log (a b : Report) : (a ++ b).log = a.log ++ b.log := rfl

@[simp] theorem append_status (a b : Report) : (a ++ b).status = max a.status b.status := rfl

/-- A report in which nothing happened adds nothing. -/
@[simp] theorem append_empty (a : Report) : a ++ ({} : Report) = a := by
  obtain ⟨stdout, stderr, log, status⟩ := a
  show Report.mk (stdout ++ []) (stderr ++ []) (log ++ []) (max status 0) = _
  simp only [List.append_nil, Nat.max_zero]

@[simp] theorem concat_nil : concat [] = {} := rfl

@[simp] theorem concat_cons (a : Report) (rest : List Report) : concat (a :: rest) = a ++ concat rest := rfl

@[simp] theorem concat_stdout (reports : List Report) : (concat reports).stdout = reports.flatMap stdout := by
  induction reports with
  | nil => rfl
  | cons a rest ih => simp only [concat_cons, append_stdout, ih, List.flatMap_cons]

@[simp] theorem concat_stderr (reports : List Report) : (concat reports).stderr = reports.flatMap stderr := by
  induction reports with
  | nil => rfl
  | cons a rest ih => simp only [concat_cons, append_stderr, ih, List.flatMap_cons]

@[simp] theorem concat_log (reports : List Report) : (concat reports).log = reports.flatMap log := by
  induction reports with
  | nil => rfl
  | cons a rest ih => simp only [concat_cons, append_log, ih, List.flatMap_cons]

/-- Parts that went no worse than some status do so together. -/
theorem concat_status_le_iff {reports : List Report} {bound : Nat} :
    (concat reports).status ≤ bound ↔ ∀ report ∈ reports, report.status ≤ bound := by
  induction reports with
  | nil => simp
  | cons a rest ih => simp only [concat_cons, append_status, Nat.max_le, ih, List.forall_mem_cons]

end Report

/-! ## One request -/

/-- The line that is shown for a request: what it asks, or why it is refused. -/
def lineOf (minor : Minor) (buffer : Bytes) : Bytes :=
  match Request.decode minor buffer with
  | .ok request => requestLine request
  | .error e => errorLine buffer e

section Request

variable (settings : Settings) (path : Bytes) {buffer : Bytes}

theorem dumpRequest_of_ok {request : Request} (h : Request.decode settings.minor buffer = .ok request) :
    dumpRequest settings path buffer =
      { stdout := requestLine request, log := (Request.logLine (.ok request)).emit settings.threshold } := by
  simp only [dumpRequest, h]

theorem dumpRequest_of_error {e : DecodeError} (h : Request.decode settings.minor buffer = .error e) :
    dumpRequest settings path buffer =
      { stdout := errorLine buffer e
        log := (Request.logLine (.error e)).emit settings.threshold ++
          (warning path buffer e).emit settings.threshold
        status := 1 } := by
  simp only [dumpRequest, h]

@[simp] theorem dumpRequest_stdout (buffer : Bytes) :
    (dumpRequest settings path buffer).stdout = lineOf settings.minor buffer := by
  unfold lineOf
  cases h : Request.decode settings.minor buffer with
  | ok request => rw [dumpRequest_of_ok settings path h]
  | error e => rw [dumpRequest_of_error settings path h]

@[simp] theorem dumpRequest_stderr (buffer : Bytes) : (dumpRequest settings path buffer).stderr = [] := by
  cases h : Request.decode settings.minor buffer with
  | ok request => rw [dumpRequest_of_ok settings path h]
  | error e => rw [dumpRequest_of_error settings path h]

theorem dumpRequest_status_le (buffer : Bytes) : (dumpRequest settings path buffer).status ≤ 1 := by
  cases h : Request.decode settings.minor buffer with
  | ok request =>
    have hstatus := congrArg Report.status (dumpRequest_of_ok settings path h)
    exact Nat.le_trans (Nat.le_of_eq hstatus) (Nat.zero_le 1)
  | error e => exact Nat.le_of_eq (congrArg Report.status (dumpRequest_of_error settings path h))

/-- A request goes well when it decodes. -/
theorem dumpRequest_status_eq_zero_iff :
    (dumpRequest settings path buffer).status = 0 ↔
      ∃ request, Request.decode settings.minor buffer = .ok request := by
  cases h : Request.decode settings.minor buffer with
  | ok request =>
    rw [dumpRequest_of_ok settings path h]
    exact iff_of_true rfl ⟨request, rfl⟩
  | error e =>
    rw [dumpRequest_of_error settings path h]
    refine iff_of_false Nat.one_ne_zero ?_
    rintro ⟨request, hrequest⟩
    cases hrequest

end Request

/-! ## Files and command lines -/

section Files

variable (settings : Settings) {contents : Bytes → Option File} {path bytes complaint : Bytes}

theorem fileBytes_eq_ok_iff {file : Option File} : fileBytes path file = .ok bytes ↔ file = some (.whole bytes) := by
  rcases file with - | whole | - | words
  · exact iff_of_false nofun nofun
  · simp only [fileBytes, Except.ok.injEq, Option.some.injEq, File.whole.injEq]
  · exact iff_of_false nofun nofun
  · exact iff_of_false nofun nofun

/-- A file is complained about when it was not opened, or not read to its end. -/
theorem exists_fileBytes_eq_error_iff {file : Option File} :
    (∃ complaint, fileBytes path file = .error complaint) ↔ file = none ∨ ∃ words, file = some (.failed words) := by
  rcases file with - | whole | - | words
  · exact iff_of_true ⟨_, rfl⟩ (.inl rfl)
  · exact iff_of_false nofun nofun
  · exact iff_of_true ⟨_, rfl⟩ (.inr ⟨none, rfl⟩)
  · exact iff_of_true ⟨_, rfl⟩ (.inr ⟨some words, rfl⟩)

theorem dumpFiles_cons_of_ok (h : fileBytes path (contents path) = .ok bytes) (rest : List Bytes) :
    dumpFiles settings contents (path :: rest) =
      dumpFile settings path bytes ++ dumpFiles settings contents rest := by
  simp only [dumpFiles, dumpFilesM, pure_bind, h]
  rfl

/-- A file that cannot be read is the last one. -/
theorem dumpFiles_cons_of_error (h : fileBytes path (contents path) = .error complaint) (rest : List Bytes) :
    dumpFiles settings contents (path :: rest) = .failure (ascii "error: " ++ complaint ++ ascii "\n") := by
  simp only [dumpFiles, dumpFilesM, pure_bind, h]
  rfl

end Files

section CommandLine

variable (program : Bytes) {arguments : List Bytes} (contents : Bytes → Option File)

theorem runOptions_eq (options : Options) :
    runOptions program options contents =
      if options.files.isEmpty then .failure (usage program)
      else
        match threshold? options.logLevel with
        | none => .failure (ascii "unknown log level: " ++ options.logLevel ++ ascii "\n")
        | some threshold =>
          match Minor.ofNumber options.minor with
          | .error unsupported => .failure (ascii "error: " ++ unsupported.message ++ ascii "\n")
          | .ok minor => dumpFiles { minor, threshold, stream := options.stream } contents options.files := by
  unfold runOptions runOptionsM
  split
  · rfl
  · cases threshold? options.logLevel with
    | none => rfl
    | some threshold =>
      cases Minor.ofNumber options.minor with
      | error unsupported => rfl
      | ok minor => rfl

theorem run_of_ok {options : Options} (h : Options.ofArguments arguments = .ok options) :
    run program arguments contents = runOptions program options contents := by
  simp only [run, runM, h]
  rfl

theorem run_of_error {halt : Halt} (h : Options.ofArguments arguments = .error halt) :
    run program arguments contents = halt.report program := by
  simp only [run, runM, h]
  rfl

end CommandLine

end FuseAbi.Dump
