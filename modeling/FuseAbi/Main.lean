import FuseAbi.Dump.Run

/-!
# The command line

Runs the dump on the files that the command line names, and shows its report. Everything that is decided is
decided by `Dump.runM`, also which files are opened and when; here are only the files and the streams.
-/

namespace FuseAbi.Dump

/-- The bytes of an argument. -/
def argumentBytes (argument : String) : Bytes :=
  argument.toUTF8.toList

/-- Opens a file that an argument names, and reads it. -/
def openArgument (arguments : List String) (path : Bytes) : IO (Option File) := do
  let some argument := arguments.find? (argumentBytes · == path) | return none
  let handle? ←
    try some <$> IO.FS.Handle.mk argument .read
    catch _ => pure none
  let some handle := handle? | return none
  try return some (.whole (← handle.readBinToEnd).toList)
  catch e => return some (.failed (some (argumentBytes (toString e))))

/-- A log line as it is shown. -/
def showLog (line : LogLine) : Bytes :=
  ascii "[" ++ ascii line.level.name ++ ascii "] " ++ line.text ++ ascii "\n"

end FuseAbi.Dump

open FuseAbi FuseAbi.Dump in
/-- Shows the requests in the files that the arguments name. -/
def main (args : List String) : IO UInt32 := do
  let program := argumentBytes ((← IO.appPath).fileName.getD "fuse-dump")
  let report ← runM program (args.map argumentBytes) (openArgument args)
  let out ← IO.getStdout
  let err ← IO.getStderr
  out.write ⟨report.stdout.toArray⟩
  err.write ⟨(report.log.flatMap showLog).toArray⟩
  err.write ⟨report.stderr.toArray⟩
  return report.status.toUInt32
