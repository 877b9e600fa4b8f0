import FuseAbi.Log

/-!
# Reports

What a run of the dump shows: the two output streams, the log, and the exit status. Reports of parts add up
to the report of the whole: texts and logs follow each other, and the graver status wins.
-/

namespace FuseAbi.Dump

/-- What a run shows. -/
structure Report where
  stdout : Bytes := []
  stderr : Bytes := []
  /-- The log lines that were kept. -/
  log : List LogLine := []
  /-- Zero if all went well, one if a request was refused, two if the run could not be done. -/
  status : Nat := 0
deriving DecidableEq, Repr

namespace Report

/-- One report after the other. -/
protected def append (a b : Report) : Report where
  stdout := a.stdout ++ b.stdout
  stderr := a.stderr ++ b.stderr
  log := a.log ++ b.log
  status := max a.status b.status

instance : Append Report := ⟨Report.append⟩

/-- A run that could not be done, with what is said about it. -/
def failure (complaint : Bytes) : Report where
  stderr := complaint
  status := 2

end Report

end FuseAbi.Dump
