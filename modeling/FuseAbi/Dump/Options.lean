import FuseAbi.Text

/-!
# Arguments of the dump

The command line is read once from left to right. An option that takes a value takes the argument behind it,
whatever that is; without one it is no option. A later option overrides an earlier one. Asking for help, or an
argument that starts with a dash and is no option, ends the reading on the spot.

The number of a minor is meant to fit into 32 bits with a sign (see `leadingInt`). It is kept as a word, so a
negative number is a great one, and no minor.
-/

namespace FuseAbi.Dump

/-- What the command line asks for. -/
structure Options where
  /-- The number given as the protocol minor. -/
  minor : UInt32 := 31
  /-- The name given as the log level; an empty one counts as not given. -/
  logLevel : Bytes := []
  /-- Whether files hold requests back to back. -/
  stream : Bool := false
  files : List Bytes := []
deriving DecidableEq, Repr

/-- Why the reading of the command line ended early. -/
inductive Halt where
  | help
  /-- An argument looks like an option and is none. -/
  | unknown (argument : Bytes)
deriving DecidableEq, Repr

namespace Options

/-- Reads an argument that takes no value. -/
def readWord (options : Options) (argument : Bytes) : Except Halt Options :=
  if argument = ascii "--stream" then .ok { options with stream := true }
  else if argument = ascii "--help" then .error .help
  else if argument.head? = some 45 then .error (.unknown argument)
  else .ok { options with files := options.files ++ [argument] }

/-- Reads the rest of a command line on top of what was read so far. -/
def readFrom (options : Options) : List Bytes → Except Halt Options
  | [] => .ok options
  | [argument] => options.readWord argument
  | argument :: value :: rest =>
    if argument = ascii "--minor" then
      readFrom { options with minor := UInt32.ofInt (leadingInt value) } rest
    else if argument = ascii "--log-level" then
      readFrom { options with logLevel := value } rest
    else
      match options.readWord argument with
      | .ok options => readFrom options (value :: rest)
      | .error halt => .error halt

def ofArguments (arguments : List Bytes) : Except Halt Options :=
  readFrom {} arguments

end Options

end FuseAbi.Dump
