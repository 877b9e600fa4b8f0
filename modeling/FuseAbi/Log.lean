import FuseAbi.Request

/-!
# Log lines

Decoding is observed by a log. Each line has a level, and a threshold says from which level on lines are
kept; it never changes what is decoded. A request that decodes gives a line at the lowest level, one that is
refused a line at the next.

Lines are handed to the logging library `spdlog`, which is not a part of this library. `Level` and `LogLine.emit`
stand for what its documentation says of it: the order of its levels, the names under which `from_str` knows them,
and that a line is kept from the current level on. Its clock, its colours and the pattern of its lines are left
out, and so are levels that are set through the environment.
-/

namespace FuseAbi

/-- How grave a log line is, or from where on lines are kept. -/
inductive Level where
  | trace | debug | info | warning | error | critical | off
deriving DecidableEq, Repr

namespace Level

/-- The place of a level among the others. -/
def rank : Level → Nat
  | trace => 0
  | debug => 1
  | info => 2
  | warning => 3
  | error => 4
  | critical => 5
  | off => 6

instance : LE Level where
  le a b := a.rank ≤ b.rank

instance (a b : Level) : Decidable (a ≤ b) :=
  inferInstanceAs (Decidable (a.rank ≤ b.rank))

def name : Level → String
  | trace => "trace"
  | debug => "debug"
  | info => "info"
  | warning => "warning"
  | error => "error"
  | critical => "critical"
  | off => "off"

/-- The names under which levels are known; two of them have a short one too. -/
def names : List (String × Level) :=
  [trace, debug, info, warning, error, critical, off].map (fun level => (level.name, level)) ++
    [("warn", warning), ("err", error)]

/-- The level with the given name, letter for letter. Any other name stands for `off`, as it does for `spdlog`. -/
def ofName (name : Bytes) : Level :=
  ((names.find? fun entry => ascii entry.1 == name).map Prod.snd).getD off

end Level

/-- A line of the log. -/
structure LogLine where
  level : Level
  text : Bytes
deriving DecidableEq, Repr

/-- The log of one line: the line, or nothing where it is below the threshold. -/
def LogLine.emit (threshold : Level) (line : LogLine) : List LogLine :=
  if threshold ≤ line.level then [line] else []

/-- The line that says how decoding a request went. -/
def Request.logLine : Except DecodeError Request → LogLine
  | .ok request =>
    { level := .trace
      text := ascii "fuse: unique=" ++ decimal request.header.unique.toNat ++ ascii " " ++
        ascii request.operation.name ++ ascii " nodeid=" ++ decimal request.header.nodeid.toNat }
  | .error e =>
    { level := .debug, text := ascii "fuse: decode failed: " ++ e.message }

end FuseAbi
