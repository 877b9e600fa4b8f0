import FuseAbi.Proofs.CommandLine
import Mathlib.Data.List.Induction

/-!
# Groups of arguments

A command line is a row of groups: an option with the value behind it, an option alone, or a file. Groups of
different kinds say nothing about each other, so they change places freely (`ArgumentGroup.apply_comm`), and of
the groups of one kind the last one holds, unless they are files (`ArgumentGroup.apply_apply`). So every row of
groups is read as its short form, `ArgumentGroup.canonical`.

What stands behind an option that takes a value is that value, whatever it looks like. Where a row of groups ends
is therefore said without the reader: at the first place where no group starts (`ArgumentGroup.Stuck`). Every
command line falls into groups and such a rest, in just one way (`exists_groups`, `groups_unique`). Where there is
a rest, the reading ends with its first argument, and no file is opened.
-/

namespace FuseAbi.Dump

inductive GroupKind where
  | minor | logLevel | stream | file
deriving DecidableEq, Repr

/-- Arguments that are read together. -/
inductive ArgumentGroup where
  | minor (value : Bytes)
  | logLevel (value : Bytes)
  | stream
  /-- A file; its path does not start with a dash. -/
  | file (path : Bytes) (hpath : path.head? ≠ some 45)
deriving DecidableEq, Repr

namespace ArgumentGroup

def kind : ArgumentGroup → GroupKind
  | minor _ => .minor
  | logLevel _ => .logLevel
  | stream => .stream
  | file .. => .file

/-- A group as it stands on a command line. -/
def arguments : ArgumentGroup → List Bytes
  | minor value => [ascii "--minor", value]
  | logLevel value => [ascii "--log-level", value]
  | stream => [ascii "--stream"]
  | file path _ => [path]

def commandLine (groups : List ArgumentGroup) : List Bytes :=
  groups.flatMap arguments

/-- The options, with what a group says on top. -/
def apply (options : Options) : ArgumentGroup → Options
  | minor value => { options with minor := UInt32.ofInt (leadingInt value) }
  | logLevel value => { options with logLevel := value }
  | stream => { options with stream := true }
  | file path _ => { options with files := options.files ++ [path] }

/-! ## The short form -/

def ofKind (kind : GroupKind) (groups : List ArgumentGroup) : List ArgumentGroup :=
  groups.filter (·.kind = kind)

/-- The last group of a kind, where there is one. -/
def lastOf (kind : GroupKind) (groups : List ArgumentGroup) : List ArgumentGroup :=
  (ofKind kind groups).getLast?.toList

/-- The short form of a row of groups: the last minor, the last level, once the option for streams, and then all
files in their order. -/
def canonical (groups : List ArgumentGroup) : List ArgumentGroup :=
  lastOf .minor groups ++ (lastOf .logLevel groups ++ (lastOf .stream groups ++ ofKind .file groups))

section Order

variable {group group' : ArgumentGroup} {groups : List ArgumentGroup} {kind' : GroupKind}

/-- Groups of different kinds may change places. -/
theorem apply_comm (h : group.kind ≠ group'.kind) (options : Options) :
    apply (apply options group) group' = apply (apply options group') group := by
  cases group <;> cases group' <;> grind [apply, kind]

/-- Of two groups of one kind that are no files, the later one holds. -/
theorem apply_apply (h : group.kind = group'.kind) (hfile : group'.kind ≠ .file) (options : Options) :
    apply (apply options group) group' = apply options group' := by
  cases group <;> cases group' <;> grind [apply, kind]

/-- A group may be put behind a row of groups of other kinds. -/
theorem foldl_apply_comm (h : ∀ other ∈ groups, other.kind ≠ group.kind) (options : Options) :
    groups.foldl apply (apply options group) = apply (groups.foldl apply options) group := by
  induction groups generalizing options with
  | nil => rfl
  | cons other rest ih =>
    obtain ⟨hother, hrest⟩ := List.forall_mem_cons.mp h
    rw [List.foldl_cons, List.foldl_cons, apply_comm hother.symm, ih hrest]

theorem kind_of_mem_ofKind (h : group ∈ ofKind kind' groups) : group.kind = kind' :=
  of_decide_eq_true (List.mem_filter.mp h).2

theorem kind_of_mem_lastOf (h : group ∈ lastOf kind' groups) : group.kind = kind' :=
  kind_of_mem_ofKind (List.mem_of_getLast? (Option.mem_toList.mp h))

theorem ofKind_concat (kind' : GroupKind) (groups : List ArgumentGroup) (group : ArgumentGroup) :
    ofKind kind' (groups ++ [group]) =
      if group.kind = kind' then ofKind kind' groups ++ [group] else ofKind kind' groups := by
  rw [ofKind, List.filter_append, List.filter_cons, List.filter_nil, ofKind]
  split <;> simp_all

theorem lastOf_concat (kind' : GroupKind) (groups : List ArgumentGroup) (group : ArgumentGroup) :
    lastOf kind' (groups ++ [group]) = if group.kind = kind' then [group] else lastOf kind' groups := by
  rw [lastOf, ofKind_concat]
  split
  next => rw [List.getLast?_concat, Option.toList_some]
  next => rfl

/-- A group makes up for the last one of its kind. -/
theorem apply_foldl_lastOf (hfile : group.kind ≠ .file) (groups : List ArgumentGroup) (options : Options) :
    apply ((lastOf group.kind groups).foldl apply options) group = apply options group := by
  rw [lastOf]
  cases hlast : (ofKind group.kind groups).getLast? with
  | none => rfl
  | some other => exact apply_apply (kind_of_mem_ofKind (List.mem_of_getLast? hlast)) hfile options

/-- With one more group, the short form has it in the place of the last one of its kind. -/
theorem exists_canonical_concat (hfile : group.kind ≠ .file) (groups : List ArgumentGroup) :
    ∃ front back, canonical groups = front ++ (lastOf group.kind groups ++ back) ∧
      canonical (groups ++ [group]) = front ++ group :: back ∧ ∀ other ∈ back, other.kind ≠ group.kind := by
  have hlast {kind' kind'' : GroupKind} (hne : kind' ≠ kind'') :
      ∀ other ∈ lastOf kind' groups, other.kind ≠ kind'' :=
    fun other hmem => (kind_of_mem_lastOf hmem).symm ▸ hne
  have hfiles {kind'' : GroupKind} (hne : .file ≠ kind'') :
      ∀ other ∈ ofKind .file groups, other.kind ≠ kind'' :=
    fun other hmem => (kind_of_mem_ofKind hmem).symm ▸ hne
  simp only [canonical, lastOf_concat, ofKind_concat]
  cases hkind : group.kind with
  | minor =>
    refine ⟨[], lastOf .logLevel groups ++ (lastOf .stream groups ++ ofKind .file groups), rfl, rfl, ?_⟩
    refine List.forall_mem_append.mpr ⟨hlast (by decide), ?_⟩
    exact List.forall_mem_append.mpr ⟨hlast (by decide), hfiles (by decide)⟩
  | logLevel =>
    refine ⟨lastOf .minor groups, lastOf .stream groups ++ ofKind .file groups, rfl, rfl, ?_⟩
    exact List.forall_mem_append.mpr ⟨hlast (by decide), hfiles (by decide)⟩
  | stream =>
    refine ⟨lastOf .minor groups ++ lastOf .logLevel groups, ofKind .file groups, ?_, ?_, hfiles (by decide)⟩
    · exact (List.append_assoc _ _ _).symm
    · exact (List.append_assoc _ _ _).symm
  | file => exact absurd hkind hfile

/-- The short form says the same. The induction is on the last group, since that is the one that holds. -/
theorem foldl_canonical (options : Options) (groups : List ArgumentGroup) :
    (canonical groups).foldl apply options = groups.foldl apply options := by
  induction groups using List.reverseRecOn with
  | nil => rfl
  | append_singleton groups group ih =>
    rw [List.foldl_append, ← ih, List.foldl_cons, List.foldl_nil]
    by_cases hfile : group.kind = .file
    · have hmore : canonical (groups ++ [group]) = canonical groups ++ [group] := by
        simp [canonical, lastOf_concat, ofKind_concat, hfile]
      rw [hmore, List.foldl_append, List.foldl_cons, List.foldl_nil]
    · obtain ⟨front, back, hbefore, hafter, hback⟩ := exists_canonical_concat hfile groups
      rw [hbefore, hafter, List.foldl_append, List.foldl_append, List.foldl_append, List.foldl_cons,
        ← foldl_apply_comm hback, apply_foldl_lastOf hfile]

end Order

/-! ## The cut into groups -/

/-- No group starts here. -/
def Stuck (left : List Bytes) : Prop :=
  ∀ group : ArgumentGroup, ¬ group.arguments <+: left

section Cut

variable {group group' : ArgumentGroup} {groups groups' : List ArgumentGroup} {left left' : List Bytes}

theorem commandLine_cons_append (group : ArgumentGroup) (groups : List ArgumentGroup) (left : List Bytes) :
    commandLine (group :: groups) ++ left = group.arguments ++ (commandLine groups ++ left) := by
  rw [commandLine, List.flatMap_cons, List.append_assoc, commandLine]

theorem length_arguments_pos (group : ArgumentGroup) : 0 < group.arguments.length := by
  cases group <;> exact Nat.succ_pos _

/-- A group is told by its first argument: no two options have one name, and an option is no file. -/
theorem arguments_append_inj (h : group.arguments ++ left = group'.arguments ++ left') :
    group = group' ∧ left = left' := by
  have hminorLevel : ascii "--minor" ≠ ascii "--log-level" := by decide
  have hminorStream : ascii "--minor" ≠ ascii "--stream" := by decide
  have hlevelStream : ascii "--log-level" ≠ ascii "--stream" := by decide
  have hminor : (ascii "--minor").head? = some 45 := rfl
  have hlevel : (ascii "--log-level").head? = some 45 := rfl
  have hstream : (ascii "--stream").head? = some 45 := rfl
  cases group <;> cases group' <;> grind [arguments]

/-- Every command line is a row of groups and a rest where none starts. -/
theorem exists_groups (line : List Bytes) :
    ∃ groups left, line = commandLine groups ++ left ∧ Stuck left := by
  induction hlength : line.length using Nat.strongRecOn generalizing line with
  | ind n ih =>
    by_cases hstuck : Stuck line
    · exact ⟨[], line, rfl, hstuck⟩
    · simp only [Stuck, not_forall, not_not] at hstuck
      obtain ⟨group, rest, rfl⟩ := hstuck
      have hshorter : rest.length < n := by
        have hpos := group.length_arguments_pos
        rw [List.length_append] at hlength
        omega
      obtain ⟨groups, left, rfl, hleft⟩ := ih _ hshorter rest rfl
      exact ⟨group :: groups, left, (commandLine_cons_append group groups left).symm, hleft⟩

/-- There is just one such cut. -/
theorem groups_unique (h : commandLine groups ++ left = commandLine groups' ++ left') (hleft : Stuck left)
    (hleft' : Stuck left') : groups = groups' ∧ left = left' := by
  induction groups generalizing groups' with
  | nil =>
    cases groups' with
    | nil => exact ⟨rfl, h⟩
    | cons group' groups' =>
      rw [commandLine_cons_append] at h
      exact absurd ⟨_, h.symm⟩ (hleft group')
  | cons group groups ih =>
    rw [commandLine_cons_append] at h
    cases groups' with
    | nil => exact absurd ⟨_, h⟩ (hleft' group)
    | cons group' groups' =>
      rw [commandLine_cons_append] at h
      obtain ⟨rfl, hrest⟩ := arguments_append_inj h
      obtain ⟨rfl, rfl⟩ := ih hrest
      exact ⟨rfl, rfl⟩

/-- Where no group starts, there is an argument that looks like an option. It is none, or it lacks its value. -/
theorem Stuck.argument {argument : Bytes} {rest : List Bytes} (h : Stuck (argument :: rest)) :
    argument.head? = some 45 ∧ argument ≠ ascii "--stream" ∧
      (argument = ascii "--minor" ∨ argument = ascii "--log-level" → rest = []) := by
  refine ⟨?_, ?_, ?_⟩
  · by_contra hpath
    exact h (.file argument hpath) ⟨rest, rfl⟩
  · rintro rfl
    exact h .stream ⟨rest, rfl⟩
  · intro hoption
    cases rest with
    | nil => rfl
    | cons value rest =>
      rcases hoption with rfl | rfl
      · exact absurd ⟨rest, rfl⟩ (h (.minor value))
      · exact absurd ⟨rest, rfl⟩ (h (.logLevel value))

end Cut

end ArgumentGroup

/-! ## Reading groups -/

namespace Options

open ArgumentGroup

/-- A group is read alone, and the rest on top of it. -/
theorem readFrom_arguments_append (options : Options) (group : ArgumentGroup) (rest : List Bytes) :
    readFrom options (group.arguments ++ rest) = readFrom (apply options group) rest := by
  cases group with
  | minor value => rfl
  | logLevel value => rfl
  | stream => exact readFrom_cons_word readWord_stream rest
  | file path hpath => exact readFrom_cons_word (readWord_file hpath) rest

theorem readFrom_commandLine_append (options : Options) (groups : List ArgumentGroup) (left : List Bytes) :
    readFrom options (commandLine groups ++ left) = readFrom (groups.foldl apply options) left := by
  induction groups generalizing options with
  | nil => rfl
  | cons group groups ih =>
    rw [commandLine_cons_append, readFrom_arguments_append, ih, List.foldl_cons]

/-- A row of groups is read as what its groups say, one on top of the other. -/
theorem ofArguments_commandLine (groups : List ArgumentGroup) :
    ofArguments (commandLine groups) = .ok (groups.foldl apply {}) := by
  have hread := readFrom_commandLine_append {} groups []
  rwa [List.append_nil] at hread

/-- Where no group starts, the reading ends. -/
theorem readFrom_of_stuck {argument : Bytes} {rest : List Bytes} (h : Stuck (argument :: rest))
    (options : Options) :
    readFrom options (argument :: rest) =
      .error (if argument = ascii "--help" then .help else .unknown argument) := by
  obtain ⟨hdash, hstream, hvalue⟩ := h.argument
  have hword : options.readWord argument =
      .error (if argument = ascii "--help" then .help else .unknown argument) := by
    rw [readWord, if_neg hstream, if_pos hdash]
    split <;> rfl
  cases rest with
  | nil => exact hword
  | cons value rest =>
    have hminor : argument ≠ ascii "--minor" := fun heq => List.cons_ne_nil _ _ (hvalue (.inl heq))
    have hlevel : argument ≠ ascii "--log-level" := fun heq => List.cons_ne_nil _ _ (hvalue (.inr heq))
    rw [readFrom_cons_of_ne hminor hlevel, hword]
    rfl

end Options

open ArgumentGroup in
/-- The order of options does not count. A command line that is a row of groups is run like its short form: the
last minor, the last level, the option for streams if it is there, and then the files in their order; a value may
look like anything. Any other command line falls in just one way into groups and a rest where none starts, which
is an argument with a dash in front and what stands behind it. There the run ends: well, where the argument asks
for help, and otherwise as one that could not be done. Nothing but a complaint is shown, whatever the files
hold, and none of them is opened. -/
theorem run_groups (program : Bytes) :
    (∀ groups contents,
      run program (commandLine groups) contents = run program (commandLine (canonical groups)) contents) ∧
    ∀ line, (∀ groups, line ≠ commandLine groups) →
      ∃ groups argument rest, line = commandLine groups ++ argument :: rest ∧ Stuck (argument :: rest) ∧
        (∀ groups' left, line = commandLine groups' ++ left → Stuck left →
          groups' = groups ∧ left = argument :: rest) ∧
        argument.head? = some 45 ∧
        ∀ contents, opened program line contents = [] ∧ run program line contents =
          { stdout := []
            stderr :=
              if argument = ascii "--help" then usage program
              else ascii "unknown argument: " ++ argument ++ ascii "\n" ++ usage program
            log := []
            status := if argument = ascii "--help" then 0 else 2 } := by
  refine ⟨fun groups contents => ?_, fun line hline => ?_⟩
  · rw [run_of_ok program contents (Options.ofArguments_commandLine groups),
      run_of_ok program contents (Options.ofArguments_commandLine (canonical groups)), foldl_canonical]
  · obtain ⟨groups, left, rfl, hstuck⟩ := exists_groups line
    cases left with
    | nil => exact absurd (List.append_nil _) (hline groups)
    | cons argument rest =>
      refine ⟨groups, argument, rest, rfl, hstuck, fun groups' left h hleft => ?_, hstuck.argument.1,
        fun contents => ?_⟩
      · obtain ⟨rfl, rfl⟩ := groups_unique h hstuck hleft
        exact ⟨rfl, rfl⟩
      · have hread : Options.ofArguments (commandLine groups ++ argument :: rest) =
            .error (if argument = ascii "--help" then .help else .unknown argument) :=
          (Options.readFrom_commandLine_append {} groups _).trans (Options.readFrom_of_stuck hstuck _)
        refine ⟨opened_of_error program hread contents, (run_of_error program contents hread).trans ?_⟩
        by_cases hhelp : argument = ascii "--help"
        · simp only [if_pos hhelp]
          rfl
        · simp only [if_neg hhelp]
          rfl

/-- A level that looks like a call for help is a level, and the one behind it holds; a minor that lacks its value
ends the run. -/
theorem run_groups_levelNamedHelp :
    run (ascii "dump")
        [ascii "b", ascii "--log-level", ascii "--help", ascii "--stream", ascii "--log-level", ascii "off"]
        emptyAndStatfs =
      run (ascii "dump") [ascii "--log-level", ascii "off", ascii "--stream", ascii "b"] emptyAndStatfs ∧
    (∀ groups, [ascii "b", ascii "--minor"] ≠ ArgumentGroup.commandLine groups) ∧
    opened (ascii "dump") [ascii "b", ascii "--minor"] emptyAndStatfs = [] ∧
    (run (ascii "dump") [ascii "b", ascii "--minor"] emptyAndStatfs).stdout = [] ∧
    (run (ascii "dump") [ascii "b", ascii "--minor"] emptyAndStatfs).status = 2 := by
  obtain ⟨hordered, hhalted⟩ := run_groups (ascii "dump")
  have hline : ∀ groups, [ascii "b", ascii "--minor"] ≠ ArgumentGroup.commandLine groups := by
    intro groups h
    have hread := Options.ofArguments_commandLine groups
    rw [← h] at hread
    cases hread
  obtain ⟨groups, argument, rest, -, -, -, -, hrun⟩ := hhalted _ hline
  obtain ⟨hopened, hreport⟩ := hrun emptyAndStatfs
  refine ⟨?_, hline, hopened, ?_, ?_⟩
  · exact hordered
      [.file (ascii "b") (by decide), .logLevel (ascii "--help"), .stream, .logLevel (ascii "off")] emptyAndStatfs
  · rw [hreport]
  · decide

end FuseAbi.Dump
