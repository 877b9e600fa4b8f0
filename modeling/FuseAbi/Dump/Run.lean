import FuseAbi.Dump.Options
import FuseAbi.Dump.Report
import FuseAbi.Dump.Summary
import FuseAbi.Frames

/-!
# Running the dump

The dump reads files of requests and prints a line for each request, decoded or refused. A refused request is
also warned about in the log, with a hint where a newer kernel would explain it. It stops no later request.
A file that cannot be opened, or not be read to its end, does end the run, with the status of a run that could
not be done.

The run is written once, for any way of opening files (`runM`): a file is opened when its turn comes, and nothing
is opened before the whole command line was found to be in order. Where it is known what the files hold, a run is
a function of that and of the command line (`run`).

**What is left out.** The environment may set the level of the log as well, through the variable that the usage
names; it counts as unset here. A command line that gives a level overrides it in any case.
-/

namespace FuseAbi.Dump

/-- What a run decodes with. -/
structure Settings where
  minor : Minor
  /-- From where on log lines are kept. -/
  threshold : Level
  stream : Bool
deriving DecidableEq, Repr

/-! ## One request -/

/-- The number of a request that may not even hold a header: the eight bytes at the place of the number, or
zero where they are not all there. -/
def uniqueOf (buffer : Bytes) : Nat :=
  if buffer.length < 16 then 0 else ofLittleEndian ((buffer.drop 8).take 8)

/-- The line for a request that decodes. Nothing separates the node from a summary that is empty, and the
summary is printed as a text that ends at its first zero byte. -/
def requestLine (request : Request) : Bytes :=
  let summary := request.operation.summary
  ascii "unique=" ++ decimal request.header.unique.toNat ++ ascii " " ++ ascii request.operation.name ++
    ascii " nodeid=" ++ decimal request.header.nodeid.toNat ++
    (if summary.isEmpty then [] else ascii " ") ++ untilZero summary ++ ascii "\n"

def errorLine (buffer : Bytes) (e : DecodeError) : Bytes :=
  ascii "unique=" ++ decimal (uniqueOf buffer) ++ ascii " error: " ++ e.message ++ ascii "\n"

/-- Whether a fault could be due to a kernel that speaks a newer protocol. -/
def suggestsNewerKernel (kind : ErrorKind) : Bool :=
  kind == .unknownOpcode || kind == .lengthMismatch

def warning (path buffer : Bytes) (e : DecodeError) : LogLine where
  level := .warning
  text :=
    path ++ ascii ": unique=" ++ decimal (uniqueOf buffer) ++ ascii ": " ++ e.message ++
      (if suggestsNewerKernel e.kind then ascii " (kernel protocol newer than --minor?)" else [])

/-- Decodes a request and shows it. -/
def dumpRequest (settings : Settings) (path buffer : Bytes) : Report :=
  let outcome := Request.decode settings.minor buffer
  let logged := (Request.logLine outcome).emit settings.threshold
  match outcome with
  | .ok request => { stdout := requestLine request, log := logged }
  | .error e =>
    { stdout := errorLine buffer e
      log := logged ++ (warning path buffer e).emit settings.threshold
      status := 1 }

/-! ## One file -/

/-- The complaint about a stream in which no further frame fits. -/
def frameComplaint (path : Bytes) (place : Nat) (left : Bytes) : Bytes :=
  path ++ ascii ": cannot frame request at offset " ++ decimal place ++ ascii " (len=" ++
    decimal (Frames.declaredLength left) ++ ascii ", " ++ decimal left.length ++ ascii " bytes left)\n"

/-- Shows reports of parts one after the other. -/
def Report.concat (reports : List Report) : Report :=
  reports.foldr (· ++ ·) {}

/-- Shows the requests of a stream, and complains about what is left over. -/
def dumpStream (settings : Settings) (path stream : Bytes) : Report :=
  let (frames, left) := Frames.split stream
  let shown := Report.concat (frames.map (dumpRequest settings path))
  if left.isEmpty then shown
  else
    shown ++ { stderr := frameComplaint path (stream.length - left.length) left, status := 1 }

def dumpFile (settings : Settings) (path contents : Bytes) : Report :=
  if settings.stream then dumpStream settings path contents
  else dumpRequest settings path contents

/-! ## All files -/

/-- What comes of reading a file that was opened. -/
inductive File where
  /-- All of it was read. -/
  | whole (bytes : Bytes)
  /-- Reading broke off. The system has words for it, or the file is found broken and nothing more is known. -/
  | failed (words : Option Bytes)
deriving DecidableEq, Repr

/-- Bytes are a file that was read. -/
instance : Coe Bytes File := ⟨.whole⟩

/-- Paths with bytes list files that were read. -/
instance : Coe (List (Bytes × Bytes)) (List (Bytes × File)) :=
  ⟨List.map fun file => (file.1, .whole file.2)⟩

/-- The bytes of a file, or what is said of one that was not opened or not read to its end. -/
def fileBytes (path : Bytes) : Option File → Except Bytes Bytes
  | none => .error (ascii "cannot open '" ++ path ++ ascii "'")
  | some (.failed (some words)) => .error words
  | some (.failed none) => .error (ascii "read error on '" ++ path ++ ascii "'")
  | some (.whole bytes) => .ok bytes

section Files

variable {m : Type → Type} [Monad m]

/-- Shows files in order, up to the first that cannot be read. -/
def dumpFilesM (settings : Settings) (openFile : Bytes → m (Option File)) : List Bytes → m Report
  | [] => return {}
  | path :: rest => do
    match fileBytes path (← openFile path) with
    | .error complaint => return .failure (ascii "error: " ++ complaint ++ ascii "\n")
    | .ok bytes => return dumpFile settings path bytes ++ (← dumpFilesM settings openFile rest)

end Files

/-! ## The command line -/

/-- What is said about how to call the program. -/
def usage (program : Bytes) : Bytes :=
  ascii "Usage: " ++ program ++ ascii " [options] FILE...\n\n" ++
  ascii "Decode raw FUSE requests captured from /dev/fuse and print one line\n" ++
  ascii "per request.\n\n" ++
  ascii "Options:\n" ++
  ascii "  --minor <n>          Negotiated protocol minor, 23..31 (default 31)\n" ++
  ascii "  --log-level <level>  trace, debug, info, warn, err, critical, off\n" ++
  ascii "                       (default warn; SPDLOG_LEVEL is also honoured)\n" ++
  ascii "  --stream             Files hold back-to-back requests framed by their\n" ++
  ascii "                       header length (default: one request per file)\n"

/-- The threshold that a level's name stands for. Warnings and graver lines are kept where no name is given,
and a name that is not known is no threshold. -/
def threshold? (name : Bytes) : Option Level :=
  if name.isEmpty then some .warning
  else if Level.ofName name = .off ∧ name ≠ ascii Level.off.name then none
  else some (Level.ofName name)

/-- What a run shows that ends with the reading of its command line. -/
def Halt.report (program : Bytes) : Halt → Report
  | .help => { stderr := usage program }
  | .unknown argument => .failure (ascii "unknown argument: " ++ argument ++ ascii "\n" ++ usage program)

section Run

variable {m : Type → Type} [Monad m]

/-- Shows the files that are asked for. Options that are out of order are complained about before a file is
opened. -/
def runOptionsM (program : Bytes) (options : Options) (openFile : Bytes → m (Option File)) : m Report :=
  if options.files.isEmpty then return .failure (usage program)
  else
    match threshold? options.logLevel with
    | none => return .failure (ascii "unknown log level: " ++ options.logLevel ++ ascii "\n")
    | some threshold =>
      match Minor.ofNumber options.minor with
      | .error unsupported => return .failure (ascii "error: " ++ unsupported.message ++ ascii "\n")
      | .ok minor => dumpFilesM { minor, threshold, stream := options.stream } openFile options.files

/-- Runs the dump. `openFile` opens a file and reads it; it gives `none` for one that cannot be opened. -/
def runM (program : Bytes) (arguments : List Bytes) (openFile : Bytes → m (Option File)) : m Report :=
  match Options.ofArguments arguments with
  | .error halt => return halt.report program
  | .ok options => runOptionsM program options openFile

end Run

/-! ## Runs over known files

`contents` says of every path what opening and reading it comes to. -/

def dumpFiles (settings : Settings) (contents : Bytes → Option File) (files : List Bytes) : Report :=
  Id.run (dumpFilesM settings (fun path => pure (contents path)) files)

def runOptions (program : Bytes) (options : Options) (contents : Bytes → Option File) : Report :=
  Id.run (runOptionsM program options fun path => pure (contents path))

def run (program : Bytes) (arguments : List Bytes) (contents : Bytes → Option File) : Report :=
  Id.run (runM program arguments fun path => pure (contents path))

end FuseAbi.Dump
