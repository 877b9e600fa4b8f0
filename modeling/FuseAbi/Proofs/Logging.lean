import FuseAbi.Proofs.CommandLine
import FuseAbi.Proofs.Lines

/-!
# The log of a run

The log is written while requests are decoded, and nothing is decided by it. Two statements say so.

**The level.** What a run shows at a level is what it shows at the lowest level, with the lines below the level
left out of the log (`Report.keep`): output, complaints and status are the same. The step is one request
(`dumpRequest_eq_keep`); from there the equation goes through frames, files and options, since a report is put
together from its parts and `keep` works on each part by itself.

**The lines.** At the lowest level the log is made of the lines of the requests that are handed to the decoder
(`Visit.log`), in order: one for a request that is decoded, and two for one that is refused, of which the second
is the only line that a default run keeps. So the log of a default run counts the refused requests.

The hint in a warning can be told from the rest of the text: nothing else that this library words holds a
question mark.
-/

namespace FuseAbi

/-! ## Lines that are kept -/

theorem Level.trace_le (level : Level) : .trace ≤ level :=
  Nat.zero_le level.rank

namespace LogLine

/-- Whether a line is kept at a level. -/
def kept (level : Level) (line : LogLine) : Bool :=
  level ≤ line.level

theorem emit_trace (line : LogLine) : line.emit .trace = [line] :=
  if_pos (Level.trace_le line.level)

/-- A line is emitted at a level if it is kept there. -/
theorem filter_emit_trace (level : Level) (line : LogLine) :
    (line.emit .trace).filter (kept level) = line.emit level := by
  rw [emit_trace, emit]
  simp only [List.filter_cons, List.filter_nil, kept, decide_eq_true_eq]

end LogLine

/-! ## The question mark -/

theorem isDigit_of_mem_decimal {b : UInt8} {n : Nat} (h : b ∈ decimal n) : isDigit b := by
  obtain ⟨c, hc, rfl⟩ := List.mem_map.mp h
  have hdigit := Nat.isDigit_of_mem_toDigits (by decide) (by decide) hc
  rw [Char.isDigit, Bool.and_eq_true, decide_eq_true_eq, decide_eq_true_eq, ge_iff_le,
    UInt32.le_iff_toNat_le, UInt32.le_iff_toNat_le] at hdigit
  have hlow : 48 ≤ c.toNat := hdigit.1
  have hhigh : c.toNat ≤ 57 := hdigit.2
  rw [isDigit, Bool.and_eq_true, decide_eq_true_eq, decide_eq_true_eq, UInt8.le_iff_toNat_le,
    UInt8.le_iff_toNat_le, Nat.toUInt8_eq, UInt8.toNat_ofNat']
  constructor
  · show 48 ≤ _
    omega
  · show _ ≤ 57
    omega

def questionMark : UInt8 := 63

theorem questionMark_notMem_decimal (n : Nat) : questionMark ∉ decimal n := by
  intro h
  cases isDigit_of_mem_decimal h

theorem questionMark_notMem_reason {fault : Fault} (h : fault.Native) : questionMark ∉ fault.reason := by
  have hop (op : Opcode) : questionMark ∉ ascii op.name := by cases op <;> decide
  have hfield (field : TimeField) : questionMark ∉ ascii field.name := by cases field <;> decide
  cases fault with
  | worded => exact h.elim
  | _ =>
    simp only [Fault.reason, List.mem_append, not_or, questionMark_notMem_decimal, hop, hfield,
      not_false_eq_true, true_and, and_true]
    decide

theorem questionMark_notMem_message {e : DecodeError} (h : e.fault.Native) : questionMark ∉ e.message := by
  have hkind (kind : ErrorKind) : questionMark ∉ ascii kind.name := by
    cases kind with
    | unassigned code => exact show questionMark ∉ ascii "DecodeError" by decide
    | _ => decide
  have hreason : questionMark ∉ e.reason := questionMark_notMem_reason h
  rw [DecodeError.message_of_native h]
  simp only [List.mem_append, not_or, questionMark_notMem_decimal, hkind, hreason, not_false_eq_true, true_and,
    and_true]
  decide

namespace Dump

/-- What a warning adds where a newer kernel would explain the fault. -/
def newerKernelHint : Bytes :=
  ascii " (kernel protocol newer than --minor?)"

/-- A warning ends in the hint where the fault suggests a newer kernel, and only there: a message is longer than
the question mark and the bracket that the hint ends in, and holds no question mark. -/
theorem hint_suffix_warning_iff {e : DecodeError} (h : e.fault.Native) (path buffer : Bytes) :
    newerKernelHint <:+ (warning path buffer e).text ↔ e.kind = .unknownOpcode ∨ e.kind = .lengthMismatch := by
  have hsuggests : suggestsNewerKernel e.kind ↔ e.kind = .unknownOpcode ∨ e.kind = .lengthMismatch := by
    rw [suggestsNewerKernel, Bool.or_eq_true, beq_iff_eq, beq_iff_eq]
  rw [← hsuggests, warning]
  constructor
  · intro hsuffix
    by_contra hno
    rw [if_neg hno, List.append_nil] at hsuffix
    have hend : [questionMark, 41] <:+ newerKernelHint := by decide
    have hmessage : e.message <:+ path ++ ascii ": unique=" ++ decimal (uniqueOf buffer) ++ ascii ": " ++ e.message :=
      List.suffix_append _ _
    have hlength : 2 ≤ e.message.length := by
      have hcolon : (ascii "): ").length = 3 := rfl
      simp only [DecodeError.message, List.length_append, hcolon]
      omega
    have hmark := List.suffix_of_suffix_length_le (hend.trans hsuffix) hmessage hlength
    exact questionMark_notMem_message h (hmark.subset List.mem_cons_self)
  · intro hyes
    rw [if_pos hyes]
    exact List.suffix_append _ _

/-! ## The level -/

/-- A report in which the lines below a level are left out of the log. -/
def Report.keep (level : Level) (report : Report) : Report :=
  { report with log := report.log.filter (LogLine.kept level) }

namespace Report

variable (level : Level)

theorem keep_append (a b : Report) : (a ++ b).keep level = a.keep level ++ b.keep level := by
  show Report.mk _ _ _ _ = Report.mk _ _ _ _
  rw [append_log, List.filter_append]
  rfl

theorem keep_concat (reports : List Report) : (concat reports).keep level = concat (reports.map (keep level)) := by
  induction reports with
  | nil => rfl
  | cons a rest ih => rw [concat_cons, keep_append, ih, List.map_cons, concat_cons]

end Report

section Level

variable (settings : Settings) (contents : Bytes → Option File)

/-- The settings with every log line kept. -/
def Settings.traced (settings : Settings) : Settings :=
  { settings with threshold := .trace }

/-- A request is shown alike at every level, and the level says which of its log lines are kept. -/
theorem dumpRequest_eq_keep (path buffer : Bytes) :
    dumpRequest settings path buffer =
      (dumpRequest settings.traced path buffer).keep settings.threshold := by
  cases h : Request.decode settings.minor buffer with
  | ok request =>
    rw [dumpRequest_of_ok settings path h, dumpRequest_of_ok settings.traced path h, Report.keep, Settings.traced,
      LogLine.filter_emit_trace]
  | error e =>
    rw [dumpRequest_of_error settings path h, dumpRequest_of_error settings.traced path h, Report.keep,
      Settings.traced, List.filter_append, LogLine.filter_emit_trace, LogLine.filter_emit_trace]

theorem dumpFile_eq_keep (path file : Bytes) :
    dumpFile settings path file = (dumpFile settings.traced path file).keep settings.threshold := by
  have hstream : settings.traced.stream = settings.stream := rfl
  rw [dumpFile, dumpFile, hstream]
  split
  · have hframed := Frames.framed_split file
    rw [dumpStream_of_framed settings path hframed, dumpStream_of_framed settings.traced path hframed,
      Report.keep_append, Report.keep_concat, List.map_map]
    have hframes : dumpRequest settings path =
        Report.keep settings.threshold ∘ dumpRequest settings.traced path :=
      funext (dumpRequest_eq_keep settings path)
    rw [hframes]
    rfl
  · exact dumpRequest_eq_keep settings path file

theorem dumpFiles_eq_keep (files : List Bytes) :
    dumpFiles settings contents files =
      (dumpFiles settings.traced contents files).keep settings.threshold := by
  induction files with
  | nil => rfl
  | cons path rest ih =>
    cases hfile : fileBytes path (contents path) with
    | error complaint =>
      rw [dumpFiles_cons_of_error settings hfile, dumpFiles_cons_of_error settings.traced hfile]
      rfl
    | ok file =>
      rw [dumpFiles_cons_of_ok settings hfile, dumpFiles_cons_of_ok settings.traced hfile, Report.keep_append,
        ← dumpFile_eq_keep, ← ih]

/-- Options are carried out alike at every level that is known. -/
theorem runOptions_eq_keep (program : Bytes) (options : Options) {name : Bytes} {level : Level}
    (h : threshold? name = some level) :
    runOptions program (options.atLevel name) contents =
      (runOptions program (options.atLevel (ascii "trace")) contents).keep level := by
  have htrace : threshold? (ascii "trace") = some .trace := by decide
  by_cases hfiles : options.files = []
  · simp only [runOptions_eq, Options.atLevel, hfiles, List.isEmpty_nil, if_true]
    rfl
  · cases hminor : Minor.ofNumber options.minor with
    | error unsupported =>
      simp only [runOptions_eq, Options.atLevel, List.isEmpty_iff, hfiles, if_false, h, htrace, hminor]
      rfl
    | ok minor =>
      simp only [runOptions_eq, Options.atLevel, List.isEmpty_iff, hfiles, if_false, h, htrace, hminor]
      exact dumpFiles_eq_keep { minor, threshold := level, stream := options.stream } contents options.files

end Level

/-! ## The lines -/

/-- What is logged of a request where every line is kept. -/
def Visit.log (visit : Visit) : List LogLine :=
  match Request.decode visit.minor visit.buffer with
  | .ok request => [Request.logLine (.ok request)]
  | .error e => [Request.logLine (.error e), warning visit.path visit.buffer e]

/-- A request that is refused. -/
def refused (request : Minor × Bytes) : Bool :=
  !(Request.decode request.1 request.2).isOk

section Lines

variable (settings : Settings) (contents : Bytes → Option File)

theorem dumpRequest_traced_log (path buffer : Bytes) :
    (dumpRequest settings.traced path buffer).log = (Visit.mk settings.minor path buffer).log := by
  unfold Visit.log
  cases h : Request.decode settings.minor buffer with
  | ok request =>
    rw [dumpRequest_of_ok settings.traced path h]
    exact LogLine.emit_trace _
  | error e =>
    rw [dumpRequest_of_error settings.traced path h]
    exact congrArg₂ (· ++ ·) (LogLine.emit_trace _) (LogLine.emit_trace _)

theorem dumpFile_traced_log (path file : Bytes) :
    (dumpFile settings.traced path file).log =
      ((requestsIn settings.stream file).map (Visit.mk settings.minor path)).flatMap Visit.log := by
  have hstream : settings.traced.stream = settings.stream := rfl
  rw [dumpFile, requestsIn, hstream, List.flatMap_map]
  split
  · rw [dumpStream_of_framed settings.traced path (Frames.framed_split file), Report.append_log,
      Report.concat_log, List.flatMap_map, List.append_nil]
    simp only [dumpRequest_traced_log]
  · rw [dumpRequest_traced_log, List.flatMap_singleton]

theorem dumpFiles_traced_log (files : List Bytes) :
    (dumpFiles settings.traced contents files).log =
      (visits settings.minor settings.stream contents files).flatMap Visit.log := by
  induction files with
  | nil => rfl
  | cons path rest ih =>
    cases hfile : fileBytes path (contents path) with
    | error complaint =>
      rw [dumpFiles_cons_of_error settings.traced hfile, visits_cons_of_error path contents hfile]
      rfl
    | ok file =>
      rw [dumpFiles_cons_of_ok settings.traced hfile, visits_cons_of_ok path contents hfile, Report.append_log,
        dumpFile_traced_log, ih, List.flatMap_append]

/-- With every line kept, options log the lines of the requests that they hand to the decoder. -/
theorem runOptions_traced_log (program : Bytes) (options : Options) {name : Bytes} {level : Level}
    (h : threshold? name = some level) :
    (runOptions program (options.atLevel (ascii "trace")) contents).log =
      match (options.atLevel name).settings? with
      | none => []
      | some settings => (visits settings.minor settings.stream contents options.files).flatMap Visit.log := by
  have htrace : threshold? (ascii "trace") = some .trace := by decide
  by_cases hfiles : options.files = []
  · simp only [runOptions_eq, Options.settings?, Options.atLevel, hfiles, List.isEmpty_nil, if_true]
    rfl
  · cases hminor : Minor.ofNumber options.minor with
    | error unsupported =>
      simp only [runOptions_eq, Options.settings?, Options.atLevel, List.isEmpty_iff, hfiles, if_false, h, htrace,
        hminor]
      rfl
    | ok minor =>
      simp only [runOptions_eq, Options.settings?, Options.atLevel, List.isEmpty_iff, hfiles, if_false, h, htrace,
        hminor]
      exact dumpFiles_traced_log { minor, threshold := level, stream := options.stream } contents options.files

end Lines

/-- All runs of command lines that differ in their levels alone come of one report with every line kept. -/
theorem exists_traced (base : List Bytes) (program : Bytes) (contents : Bytes → Option File) :
    ∃ report : Report, ∀ arguments level, Options.withoutLevel arguments = base →
      threshold? (Options.levelIn [] arguments) = some level →
        run program arguments contents = report.keep level ∧
          report.log = (visited arguments contents).flatMap Visit.log := by
  cases hbase : Options.ofArguments base with
  | error halt =>
    refine ⟨run program base contents, fun arguments level hsame hlevel => ?_⟩
    have harguments : Options.ofArguments arguments = .error halt := Options.ofArguments_of_error (hsame ▸ hbase)
    rw [run_of_error program contents harguments, run_of_error program contents hbase,
      visited_of_error contents harguments]
    cases halt <;> exact ⟨rfl, rfl⟩
  | ok options =>
    refine ⟨runOptions program (options.atLevel (ascii "trace")) contents, fun arguments level hsame hlevel => ?_⟩
    have harguments := Options.ofArguments_of_ok (hsame ▸ hbase)
    rw [run_of_ok program contents harguments, visited_of_ok contents harguments]
    refine ⟨runOptions_eq_keep contents program options hlevel, ?_⟩
    rw [runOptions_traced_log contents program options hlevel]
    cases (options.atLevel (Options.levelIn [] arguments)).settings? <;> rfl

/-- A run that is turned down for its minor hands nothing to the decoder. -/
theorem visited_of_unsupported {arguments : List Bytes} {options : Options} {unsupported : Minor.Unsupported}
    (h : Options.ofArguments arguments = .ok options) (hminor : Minor.ofNumber options.minor = .error unsupported)
    (contents : Bytes → Option File) : visited arguments contents = [] := by
  have hsettings : options.settings? = none := by
    unfold Options.settings?
    rw [hminor]
    split
    · rfl
    · cases threshold? options.logLevel <;> rfl
  rw [visited_of_ok contents h, hsettings]

/-- Of the lines of some requests, a default run keeps one for each that is refused. -/
theorem length_filter_log (requests : List Visit) :
    ((requests.flatMap Visit.log).filter (LogLine.kept .warning)).length =
      requests.countP fun visit => refused (visit.minor, visit.buffer) := by
  induction requests with
  | nil => rfl
  | cons visit rest ih =>
    rw [List.flatMap_cons, List.filter_append, List.length_append, ih, List.countP_cons, Nat.add_comm]
    congr 1
    rw [Visit.log, refused]
    cases Request.decode visit.minor visit.buffer with
    | ok request => rfl
    | error e => rfl

/-- The lines of a request: one for a request that is decoded; for one that is refused a line for the fault and
a warning, which hints at a newer kernel where the opcode is not known or the length is wrong. -/
theorem log_lines (visit : Visit) :
    (∀ request, Request.decode visit.minor visit.buffer = .ok request →
      ∃ text, visit.log = [{ level := .trace, text }]) ∧
    ∀ e, Request.decode visit.minor visit.buffer = .error e →
      ∃ text warned, visit.log = [{ level := .debug, text }, { level := .warning, text := warned }] ∧
        (newerKernelHint <:+ warned ↔ e.kind = .unknownOpcode ∨ e.kind = .lengthMismatch) := by
  refine ⟨fun request h => ?_, fun e h => ?_⟩
  · refine ⟨(Request.logLine (.ok request)).text, ?_⟩
    rw [Visit.log, h]
    rfl
  · have hhint := hint_suffix_warning_iff (Request.native_of_decode h) visit.path visit.buffer
    refine ⟨(Request.logLine (.error e)).text, (warning visit.path visit.buffer e).text, ?_, hhint⟩
    rw [Visit.log, h]
    rfl

/-- Two command lines that differ in their levels alone show the same and end alike, and the log at one level is
what that level keeps of the log with every line. That log is made of the lines of the requests that are handed
to the decoder, in order: one for each that is decoded, and two for each that is refused, of which the second
warns and ends in the hint just where the opcode is not known or the length is wrong. A run that is given no
level keeps the warnings, so it logs as many lines as requests are refused; and a run that is turned down for its
minor logs nothing. -/
theorem run_log {arguments arguments' : List Bytes}
    (hsame : Options.withoutLevel arguments' = Options.withoutLevel arguments) {level level' : Level}
    (hlevel : threshold? (Options.levelIn [] arguments) = some level)
    (hlevel' : threshold? (Options.levelIn [] arguments') = some level') (program : Bytes)
    (contents : Bytes → Option File) :
    (run program arguments' contents).stdout = (run program arguments contents).stdout ∧
    (run program arguments' contents).stderr = (run program arguments contents).stderr ∧
    (run program arguments' contents).status = (run program arguments contents).status ∧
    (level' = .trace →
      (run program arguments contents).log =
        (run program arguments' contents).log.filter (fun line => level ≤ line.level) ∧
      (run program arguments' contents).log = (visited arguments contents).flatMap Visit.log) ∧
    handed arguments contents =
      (visited arguments contents).map (fun visit => (visit.minor, visit.buffer)) ∧
    (∀ visit ∈ visited arguments contents,
      (∀ request, Request.decode visit.minor visit.buffer = .ok request →
        ∃ text, visit.log = [{ level := .trace, text }]) ∧
      ∀ e, Request.decode visit.minor visit.buffer = .error e →
        ∃ text warned, visit.log = [{ level := .debug, text }, { level := .warning, text := warned }] ∧
          (newerKernelHint <:+ warned ↔ e.kind = .unknownOpcode ∨ e.kind = .lengthMismatch)) ∧
    (Options.levelIn [] arguments = [] → level = .warning) ∧
    (level = .warning →
      (run program arguments contents).log.length = (handed arguments contents).countP refused) ∧
    ∀ options unsupported, Options.ofArguments arguments = .ok options →
      Minor.ofNumber options.minor = .error unsupported → (run program arguments contents).log = [] := by
  obtain ⟨report, hreport⟩ := exists_traced (Options.withoutLevel arguments) program contents
  obtain ⟨hrun, hlog⟩ := hreport arguments level rfl hlevel
  obtain ⟨hrun', -⟩ := hreport arguments' level' hsame hlevel'
  rw [hrun, hrun']
  refine ⟨rfl, rfl, rfl, ?_, rfl, fun visit _ => log_lines visit, ?_, ?_, ?_⟩
  · rintro rfl
    have hall : report.log.filter (LogLine.kept .trace) = report.log :=
      List.filter_eq_self.mpr fun line _ => decide_eq_true (Level.trace_le line.level)
    exact ⟨congrArg (List.filter (LogLine.kept level)) hall.symm, hall.trans hlog⟩
  · intro hnone
    rw [hnone] at hlevel
    exact (Option.some.inj hlevel).symm
  · rintro rfl
    rw [handed, List.countP_map, Report.keep, hlog, length_filter_log]
    rfl
  · intro options unsupported h hminor
    rw [Report.keep, hlog, visited_of_unsupported h hminor]
    rfl

/-- A request without the name that it needs is warned about, and where every line is kept its fault is logged
before that; the line that is shown for it is the same. -/
theorem run_log_lookup :
    (run (ascii "dump") [ascii "a", ascii "--log-level", ascii "trace"] fun _ => some (bareRequest .lookup)).stdout =
      (run (ascii "dump") [ascii "a"] fun _ => some (bareRequest .lookup)).stdout ∧
    (run (ascii "dump") [ascii "a"] fun _ => some (bareRequest .lookup)).log.length = 1 ∧
    (run (ascii "dump") [ascii "a", ascii "--log-level", ascii "trace"]
      fun _ => some (bareRequest .lookup)).log.map LogLine.level = [.debug, .warning] := by
  have hsame : Options.withoutLevel [ascii "a", ascii "--log-level", ascii "trace"] =
      Options.withoutLevel [ascii "a"] := by decide
  have hlevel : threshold? (Options.levelIn [] [ascii "a"]) = some .warning := rfl
  have hlevel' : threshold? (Options.levelIn [] [ascii "a", ascii "--log-level", ascii "trace"]) = some .trace := by
    decide
  obtain ⟨hstdout, -, -, -, -, -, -, hlength, -⟩ :=
    run_log hsame hlevel hlevel' (ascii "dump") fun _ => some (bareRequest .lookup)
  exact ⟨hstdout, (hlength rfl).trans (by decide), by decide⟩

end Dump

end FuseAbi
