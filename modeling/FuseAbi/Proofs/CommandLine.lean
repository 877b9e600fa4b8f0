import FuseAbi.Proofs.Files

/-!
# Levels on the command line

A command line may say how much is logged, anywhere and more than once. What else it says does not hang on
that: with its levels left out (`Options.withoutLevel`) it is read as before, and the last of the levels is the
one that counts (`Options.levelIn`). The law is one equation, `Options.ofArguments_eq`, and it holds of command
lines that end the reading too.

An argument is a level only where the reading comes to the option in front of it. One that is taken as the value
of another option is not, and the two functions below follow the reading in this.
-/

namespace FuseAbi.Dump.Options

variable {options : Options} {argument : Bytes}

/-- A command line with its levels left out. -/
def withoutLevel : List Bytes → List Bytes
  | [] => []
  | [argument] => [argument]
  | argument :: value :: rest =>
    if argument = ascii "--minor" then argument :: value :: withoutLevel rest
    else if argument = ascii "--log-level" then withoutLevel rest
    else argument :: withoutLevel (value :: rest)

/-- The level that a command line gives last, or the one given before where it gives none. -/
def levelIn (given : Bytes) : List Bytes → Bytes
  | [] => given
  | [_] => given
  | argument :: value :: rest =>
    if argument = ascii "--minor" then levelIn given rest
    else if argument = ascii "--log-level" then levelIn value rest
    else levelIn given (value :: rest)

/-- The same options at another level. -/
def atLevel (options : Options) (name : Bytes) : Options :=
  { options with logLevel := name }

/-- A level makes no difference to an argument that takes no value. -/
theorem readWord_atLevel (options : Options) (name argument : Bytes) :
    (options.atLevel name).readWord argument = (options.readWord argument).map (·.atLevel name) := by
  unfold readWord
  split
  · rfl
  · split
    · rfl
    · split <;> rfl

/-- An argument that is no option with a value is read alone, and the rest on top of it. -/
theorem readFrom_cons_of_ne (hminor : argument ≠ ascii "--minor") (hlevel : argument ≠ ascii "--log-level")
    (options : Options) (rest : List Bytes) :
    readFrom options (argument :: rest) = (options.readWord argument).bind (readFrom · rest) := by
  cases rest with
  | nil =>
    rw [readFrom]
    cases options.readWord argument <;> rfl
  | cons value rest =>
    rw [readFrom, if_neg hminor, if_neg hlevel]
    cases options.readWord argument <;> rfl

/-- Levels are read apart from all the rest. -/
theorem readFrom_atLevel (options : Options) (given : Bytes) (arguments : List Bytes) :
    readFrom (options.atLevel given) arguments =
      (readFrom options (withoutLevel arguments)).map (·.atLevel (levelIn given arguments)) := by
  fun_induction withoutLevel arguments generalizing options given with
  | case1 => rfl
  | case2 argument => exact readWord_atLevel options given argument
  | case3 value rest ih => exact ih { options with minor := UInt32.ofInt (leadingInt value) } given
  | case4 value rest hne ih => exact ih options value
  | case5 argument value rest hminor hlevel ih =>
    rw [readFrom_cons_of_ne hminor hlevel, readFrom_cons_of_ne hminor hlevel, levelIn, if_neg hminor,
      if_neg hlevel, readWord_atLevel]
    cases options.readWord argument with
    | error halt => rfl
    | ok options' => exact ih options' given

/-- A command line is read as without its levels, and then at the last of them. -/
theorem ofArguments_eq (arguments : List Bytes) :
    ofArguments arguments =
      (ofArguments (withoutLevel arguments)).map (·.atLevel (levelIn [] arguments)) :=
  readFrom_atLevel {} [] arguments

theorem ofArguments_of_ok {arguments : List Bytes} (h : ofArguments (withoutLevel arguments) = .ok options) :
    ofArguments arguments = .ok (options.atLevel (levelIn [] arguments)) := by
  rw [ofArguments_eq, h]
  rfl

theorem ofArguments_of_error {arguments : List Bytes} {halt : Halt}
    (h : ofArguments (withoutLevel arguments) = .error halt) : ofArguments arguments = .error halt := by
  rw [ofArguments_eq, h]
  rfl

end FuseAbi.Dump.Options
