import FuseAbi.Proofs.Soundness
import FuseAbi.Proofs.Stream

/-!
# Lines of the dump

A request is shown by one text that ends in a newline. Whether it is one line is another matter: a name is
shown as it is, so a newline in a name starts another line. Everything else that is shown is worded by this
library and printable (`Operation.shows_summary`), so that the newlines of a line are counted by its names alone
(`newlines_lineOf`).

For a whole run this is said of the requests that are handed to the decoder (`handed`), which is defined
without the reports: what is shown is their lines in order, and there are as many lines as requests if, and
only if, no shown name holds a newline.
-/

namespace FuseAbi

def newline : UInt8 := 10

/-- The names among what is shown of an operation, in the order in which they are shown. -/
def Operation.shownNames : Operation → List Bytes
  | lookup entry | unlink entry | rmdir entry => [entry.name]
  | mknod entry .. | mkdir entry .. | create entry .. => [entry.name]
  | symlink entry target => [entry.name, target]
  | rename source target _ => [source.name, target.name]
  | link _ target => [target.name]
  | setxattr _ name .. | getxattr _ name _ | removexattr _ name => [name]
  | _ => []

/-! ## Control bytes in a summary -/

section Control

variable {b : UInt8} (hb : b < 32)

include hb in
theorem Printable.count_eq_zero {s : Bytes} (h : Printable s) : s.count b = 0 :=
  List.count_eq_zero_of_not_mem (h.notMem hb)

include hb in
theorem count_word {text : String} (h : Printable (ascii text)) : (ascii text).count b = 0 :=
  h.count_eq_zero hb

include hb in
theorem count_decimal (n : Nat) : (decimal n).count b = 0 :=
  (printable_decimal n).count_eq_zero hb

include hb in
/-- The quotes around a name add no control byte to it. -/
theorem count_quoted (name : Bytes) : (quoted name).count b = name.count b := by
  have hquote : (ascii "\"").count b = 0 := count_word hb (by decide)
  rw [quoted, List.count_append, List.count_append, hquote, Nat.zero_add, Nat.add_zero]

namespace Summary

theorem printable_item {label : String} (h : Printable (ascii label)) (n : Nat) : Printable (item label n) := by
  have hsign : Printable (ascii "=") := by decide
  simp only [item, printable_append, h, hsign, printable_decimal, and_true]

theorem printable_more {label : String} (h : Printable (ascii label)) (n : Nat) : Printable (more label n) := by
  have hblank : Printable (ascii " ") := by decide
  exact printable_append.mpr ⟨hblank, printable_item h n⟩

theorem printable_word {text : String} (h : Printable (ascii text)) (applies : Bool) :
    Printable (word applies text) := by
  have hblank : Printable (ascii " ") := by decide
  cases applies with
  | false => exact List.forall_mem_nil _
  | true => exact printable_append.mpr ⟨hblank, h⟩

/-- What is shown of a value that may be absent. -/
theorem printable_getD {α : Type} {render : α → Bytes} (h : ∀ a, Printable (render a)) (value : Option α) :
    Printable ((value.map render).getD []) := by
  cases value with
  | none => exact List.forall_mem_nil _
  | some a => exact h a

theorem printable_point (p : FilePoint) : Printable (point p) :=
  printable_append.mpr ⟨printable_item (by decide) _, printable_more (by decide) _⟩

theorem printable_change (c : AttrChange) : Printable (change c) := by
  have hlabel : Printable (ascii "valid=0x") := by decide
  simp only [change, printable_append, hlabel, printable_hexadecimal, true_and]
  refine ⟨⟨⟨?_, ?_⟩, ?_⟩, ?_⟩
  · exact printable_getD (fun mode : UInt32 => printable_more (by decide) mode.toNat) _
  · exact printable_getD (fun size : UInt64 => printable_more (by decide) size.toNat) _
  · exact printable_word (by decide) _
  · exact printable_word (by decide) _

theorem printable_lock (handle : Handle) (l : FileLock) : Printable (lock handle l) := by
  have hdots : Printable (ascii "..") := by decide
  simp only [lock, printable_append, hdots, printable_decimal, and_true]
  exact ⟨⟨printable_item (by decide) _, printable_more (by decide) _⟩, printable_more (by decide) _⟩

end Summary

open Summary in
/-- An operation that shows no name shows no control byte. -/
theorem Operation.printable_summary {op : Operation} (h : op.shownNames = []) : Printable op.summary := by
  cases op with
  | lookup | symlink | mknod | mkdir | unlink | rmdir | rename | link | setxattr | getxattr | removexattr
  | create => cases h
  | readlink | statfs => exact List.forall_mem_nil _
  | forget | batchForget | openFile | openDir | listxattr | flush | releasedir | access | interrupt | bmap =>
    exact printable_item (by decide) _
  | getattr => exact printable_getD (fun fh : UInt64 => printable_item (by decide) fh.toNat) _
  | setattr => exact printable_change _
  | read | write | readdir | fallocate =>
    exact printable_append.mpr ⟨printable_point _, printable_more (by decide) _⟩
  | release | fsync | fsyncdir =>
    exact printable_append.mpr ⟨printable_item (by decide) _, printable_word (by decide) _⟩
  | getlk | setlk => exact printable_lock _ _
  | flock | poll | notifyReply =>
    exact printable_append.mpr ⟨printable_item (by decide) _, printable_more (by decide) _⟩
  | copyFileRange =>
    have harrow : Printable (ascii "-> ") := by decide
    exact printable_append.mpr
      ⟨printable_append.mpr ⟨harrow, printable_decimal _⟩, printable_more (by decide) _⟩

end Control

/-! ## Names in a text -/

/-- `Shows names text`: the text holds the names one after the other, each in full between quotes, and everything
around them is printable. -/
inductive Shows : (names : List Bytes) → (text : Bytes) → Prop
  | plain {text : Bytes} (h : Printable text) : Shows [] text
  | name {names : List Bytes} {front rest : Bytes} (name : Bytes) (hfront : Printable front)
      (h : Shows names rest) : Shows (name :: names) (front ++ (quoted name ++ rest))

namespace Shows

variable {names names' : List Bytes} {text text' : Bytes}

theorem single (name : Bytes) : Shows [name] (quoted name) := by
  have hnothing : Printable [] := List.forall_mem_nil _
  have hshows := Shows.name name hnothing (.plain hnothing)
  rwa [List.nil_append, List.append_nil] at hshows

/-- Printable text in front of a text adds no name. -/
theorem behind {front : Bytes} (hfront : Printable front) (h : Shows names text) : Shows names (front ++ text) := by
  cases h with
  | plain hplain => exact .plain (printable_append.mpr ⟨hfront, hplain⟩)
  | name name hfront' hrest =>
    rw [← List.append_assoc]
    exact .name name (printable_append.mpr ⟨hfront, hfront'⟩) hrest

theorem append (h : Shows names text) (h' : Shows names' text') : Shows (names ++ names') (text ++ text') := by
  induction h with
  | plain hplain => exact h'.behind hplain
  | name name hfront hrest ih =>
    rw [List.append_assoc, List.append_assoc]
    exact .name name hfront ih

/-- The control bytes of a text are those of the names in it. -/
theorem count_eq (h : Shows names text) {b : UInt8} (hb : b < 32) : text.count b = names.flatten.count b := by
  induction h with
  | plain hplain => exact hplain.count_eq_zero hb
  | name name hfront hrest ih =>
    rw [List.count_append, List.count_append, hfront.count_eq_zero hb, count_quoted hb, ih, Nat.zero_add,
      List.flatten_cons, List.count_append]

end Shows

open Summary in
/-- A summary shows its names. -/
theorem Operation.shows_summary (op : Operation) : Shows op.shownNames op.summary := by
  have hmore {label : String} (h : Printable (ascii label)) (n : Nat) : Shows [] (more label n) :=
    .plain (printable_more h n)
  have harrow : Printable (ascii " -> ") := by decide
  have hplace (entry : Entry) : Shows [entry.name] (place entry) := by
    have hslash : Printable (ascii "/") := by decide
    exact (Shows.single _).behind (printable_append.mpr ⟨printable_decimal _, hslash⟩)
  cases op with
  | lookup | unlink | rmdir | removexattr => exact .single _
  | mkdir | setxattr | getxattr => exact (Shows.single _).append (hmore (by decide) _)
  | mknod | create => exact ((Shows.single _).append (hmore (by decide) _)).append (hmore (by decide) _)
  | symlink entry target => exact ((Shows.single _).append (.plain harrow)).append (.single target)
  | link _ target =>
    have hpointer : Printable (ascii "-> ") := by decide
    exact (hplace target).behind hpointer
  | rename source target flags =>
    -- flags are shown where there are any, and hold no name in either case
    have hflags : Shows [] (if flags = 0 then [] else more "flags" flags.toNat) := by
      split
      · exact .plain (List.forall_mem_nil _)
      · exact hmore (by decide) _
    exact (((Shows.single _).append (.plain harrow)).append (hplace target)).append hflags
  | _ => exact .plain (printable_summary rfl)

/-! ## The line of a request -/

/-- No name of a request that is decoded holds a zero byte. -/
theorem Kernel.zero_notMem_shownNames {header : Header} {op : Opcode} {operation : Operation}
    (h : WellFormed header op operation) : ∀ name ∈ operation.shownNames, 0 ∉ name := by
  cases operation with
  | lookup | unlink | rmdir | mknod | mkdir | create | link | setxattr | getxattr | removexattr =>
    exact List.forall_mem_singleton.mpr h.2.2.1
  | symlink | rename =>
    obtain ⟨-, hsource, htarget⟩ := h
    exact List.forall_mem_cons.mpr ⟨hsource.2.1, List.forall_mem_singleton.mpr htarget.1⟩
  | _ => exact List.forall_mem_nil _

namespace Dump

/-- The newlines in the names that are shown of a request; a request that is refused shows none. -/
def namedNewlines (minor : Minor) (buffer : Bytes) : Nat :=
  match Request.decode minor buffer with
  | .ok request => request.operation.shownNames.flatten.count newline
  | .error _ => 0

section Request

variable {minor : Minor} {buffer : Bytes} {request : Request}

theorem zero_notMem_shownNames (h : Request.decode minor buffer = .ok request) :
    ∀ name ∈ request.operation.shownNames, 0 ∉ name := by
  obtain ⟨op, -, -, hwell, -⟩ := Kernel.agreeOn_encode h
  exact Kernel.zero_notMem_shownNames hwell

theorem zero_notMem_summary (h : Request.decode minor buffer = .ok request) :
    0 ∉ request.operation.summary := by
  have hzero : 0 ∉ request.operation.shownNames.flatten := by
    intro hmem
    obtain ⟨name, hname, hzero⟩ := List.mem_flatten.mp hmem
    exact zero_notMem_shownNames h name hname hzero
  refine List.count_eq_zero.mp ?_
  rw [request.operation.shows_summary.count_eq (by decide), List.count_eq_zero_of_not_mem hzero]

/-- A summary is shown in full: it is printed up to its first zero byte, and it has none. -/
theorem untilZero_summary (h : Request.decode minor buffer = .ok request) :
    untilZero request.operation.summary = request.operation.summary :=
  untilZero_of_notMem (zero_notMem_summary h)

end Request

/-- A request is shown by a text that ends in a newline, and the newlines before that are those in its names. -/
theorem newlines_lineOf (minor : Minor) (buffer : Bytes) :
    ∃ line, lineOf minor buffer = line ++ [newline] ∧ line.count newline = namedNewlines minor buffer := by
  have hb : newline < 32 := by decide
  have hend : ascii "\n" = [newline] := by decide
  cases h : Request.decode minor buffer with
  | ok request =>
    have hname : (ascii request.operation.name).count newline = 0 :=
      (Opcode.printable_name _).count_eq_zero hb
    have hblank : (if request.operation.summary.isEmpty then [] else ascii " ").count newline = 0 := by
      split
      · rfl
      · exact count_word hb (by decide)
    rw [lineOf, namedNewlines, h]
    refine ⟨_, congrArg (_ ++ ·) hend, ?_⟩
    rw [untilZero_summary h]
    simp (disch := decide) only [List.count_append, request.operation.shows_summary.count_eq hb, count_word hb,
      count_decimal hb, hname, hblank, Nat.zero_add]
  | error e =>
    have hmessage : e.message.count newline = 0 :=
      (DecodeError.printable_message (Request.native_of_decode h)).count_eq_zero hb
    rw [lineOf, namedNewlines, h]
    refine ⟨_, congrArg (_ ++ ·) hend, ?_⟩
    simp (disch := decide) only [List.count_append, count_word hb, count_decimal hb, hmessage, Nat.zero_add]

/-! ## The lines of a run -/

/-- The requests in a file. -/
def requestsIn (stream : Bool) (file : Bytes) : List Bytes :=
  if stream then (Frames.split file).1 else [file]

/-- A request that is handed to the decoder, with the minor that it is decoded at and the file that it is in. -/
structure Visit where
  minor : Minor
  path : Bytes
  buffer : Bytes
deriving DecidableEq, Repr

/-- The requests in files, up to the first file that cannot be read. -/
def visits (minor : Minor) (stream : Bool) (contents : Bytes → Option File) : List Bytes → List Visit
  | [] => []
  | path :: rest =>
    match fileBytes path (contents path) with
    | .error _ => []
    | .ok file => (requestsIn stream file).map (Visit.mk minor path) ++ visits minor stream contents rest

/-- What the files are read with, where there are any and level and minor are known. -/
def Options.settings? (options : Options) : Option Settings :=
  if options.files.isEmpty then none
  else
    match threshold? options.logLevel, Minor.ofNumber options.minor with
    | some threshold, .ok minor => some { minor, threshold, stream := options.stream }
    | _, _ => none

/-- The requests that a run hands to the decoder. -/
def visited (arguments : List Bytes) (contents : Bytes → Option File) : List Visit :=
  match Options.ofArguments arguments with
  | .error _ => []
  | .ok options =>
    match options.settings? with
    | none => []
    | some settings => visits settings.minor settings.stream contents options.files

/-- These requests without their files. -/
def handed (arguments : List Bytes) (contents : Bytes → Option File) : List (Minor × Bytes) :=
  (visited arguments contents).map fun visit => (visit.minor, visit.buffer)

section Run

variable (settings : Settings) (path : Bytes) (contents : Bytes → Option File)

theorem visits_cons_of_ok {file : Bytes} (h : fileBytes path (contents path) = .ok file) (minor : Minor)
    (stream : Bool) (rest : List Bytes) :
    visits minor stream contents (path :: rest) =
      (requestsIn stream file).map (Visit.mk minor path) ++ visits minor stream contents rest := by
  rw [visits, h]

theorem visits_cons_of_error {complaint : Bytes} (h : fileBytes path (contents path) = .error complaint)
    (minor : Minor) (stream : Bool) (rest : List Bytes) : visits minor stream contents (path :: rest) = [] := by
  rw [visits, h]

theorem dumpFile_stdout (file : Bytes) :
    (dumpFile settings path file).stdout =
      (requestsIn settings.stream file).flatMap (lineOf settings.minor) := by
  rw [dumpFile, requestsIn]
  split
  · rw [dumpStream_of_framed settings path (Frames.framed_split file), Report.append_stdout,
      Report.concat_stdout, List.flatMap_map, List.append_nil]
    simp only [dumpRequest_stdout]
  · rw [dumpRequest_stdout, List.flatMap_singleton]

theorem dumpFiles_stdout (files : List Bytes) :
    (dumpFiles settings contents files).stdout =
      (visits settings.minor settings.stream contents files).flatMap fun visit => lineOf visit.minor visit.buffer := by
  induction files with
  | nil => rfl
  | cons path rest ih =>
    cases hfile : fileBytes path (contents path) with
    | error complaint =>
      rw [dumpFiles_cons_of_error settings hfile, visits_cons_of_error path contents hfile]
      rfl
    | ok file =>
      rw [dumpFiles_cons_of_ok settings hfile, visits_cons_of_ok path contents hfile, Report.append_stdout,
        dumpFile_stdout, ih, List.flatMap_append, List.flatMap_map]

end Run

section Visited

variable {arguments : List Bytes} (contents : Bytes → Option File)

theorem visited_of_ok {options : Options} (h : Options.ofArguments arguments = .ok options) :
    visited arguments contents =
      match options.settings? with
      | none => []
      | some settings => visits settings.minor settings.stream contents options.files := by
  rw [visited, h]

theorem visited_of_error {halt : Halt} (h : Options.ofArguments arguments = .error halt) :
    visited arguments contents = [] := by
  rw [visited, h]

end Visited

/-- Options that are in order have their files shown, and others show nothing but a complaint. -/
theorem runOptions_stdout (program : Bytes) (options : Options) (contents : Bytes → Option File) :
    (runOptions program options contents).stdout =
      match options.settings? with
      | none => []
      | some settings => (dumpFiles settings contents options.files).stdout := by
  rw [runOptions_eq, Options.settings?]
  split
  · rfl
  · cases threshold? options.logLevel with
    | none => rfl
    | some threshold =>
      cases Minor.ofNumber options.minor with
      | error unsupported => rfl
      | ok minor => rfl

/-- What a run shows is the lines of the requests that it hands to the decoder, in order. -/
theorem run_stdout (program : Bytes) (arguments : List Bytes) (contents : Bytes → Option File) :
    (run program arguments contents).stdout =
      (handed arguments contents).flatMap fun request => lineOf request.1 request.2 := by
  rw [handed, List.flatMap_map]
  cases h : Options.ofArguments arguments with
  | error halt =>
    rw [run_of_error program contents h, visited_of_error contents h]
    cases halt <;> rfl
  | ok options =>
    rw [run_of_ok program contents h, runOptions_stdout, visited_of_ok contents h]
    cases options.settings? with
    | none => rfl
    | some settings => exact dumpFiles_stdout settings contents options.files

theorem namedNewlines_eq_zero_iff {minor : Minor} {buffer : Bytes} :
    namedNewlines minor buffer = 0 ↔
      ∀ request, Request.decode minor buffer = .ok request →
        ∀ name ∈ request.operation.shownNames, newline ∉ name := by
  unfold namedNewlines
  cases h : Request.decode minor buffer with
  | ok request =>
    simp only [Except.ok.injEq, forall_eq', List.count_eq_zero, List.mem_flatten, not_exists, not_and]
  | error e => simp only [reduceCtorEq, false_imp_iff, implies_true]

/-- The newlines in the lines of some requests are one for each request, and those in the names. -/
theorem count_newline_lines (requests : List (Minor × Bytes)) :
    (requests.flatMap fun request => lineOf request.1 request.2).count newline =
      requests.length + (requests.map fun request => namedNewlines request.1 request.2).sum := by
  induction requests with
  | nil => rfl
  | cons request rest ih =>
    obtain ⟨line, hline, hcount⟩ := newlines_lineOf request.1 request.2
    rw [List.flatMap_cons, List.count_append, ih, hline, List.count_append, hcount, List.count_singleton_self,
      List.length_cons, List.map_cons, List.sum_cons]
    omega

/-- A request is shown by a text that ends in a newline, and any other newline in it stands in a name; so it is
one line just if it shows no name with a newline. What a run shows is the lines of the requests that are handed
to the decoder, in order, with a newline for each of them and one for each newline in the names of those that
are decoded; it has as many lines as requests just if there is no newline in a name. -/
theorem stdout_newlines (settings : Settings) (path buffer program : Bytes) (arguments : List Bytes)
    (contents : Bytes → Option File) :
    (∃ line, (dumpRequest settings path buffer).stdout = line ++ [newline] ∧
      line.count newline = namedNewlines settings.minor buffer ∧
      (newline ∉ line ↔
        ∀ request, Request.decode settings.minor buffer = .ok request →
          ∀ name ∈ request.operation.shownNames, newline ∉ name)) ∧
    (run program arguments contents).stdout =
      (handed arguments contents).flatMap (fun request => lineOf request.1 request.2) ∧
    (run program arguments contents).stdout.count newline =
      (handed arguments contents).length +
        ((handed arguments contents).map fun request => namedNewlines request.1 request.2).sum ∧
    ((run program arguments contents).stdout.count newline = (handed arguments contents).length ↔
      ∀ buffer ∈ handed arguments contents, ∀ request,
        Request.decode buffer.1 buffer.2 = .ok request →
          ∀ name ∈ request.operation.shownNames, newline ∉ name) := by
  have hcount := count_newline_lines (handed arguments contents)
  rw [← run_stdout program] at hcount
  refine ⟨?_, run_stdout program arguments contents, hcount, ?_⟩
  · obtain ⟨line, hline, hnamed⟩ := newlines_lineOf settings.minor buffer
    refine ⟨line, (dumpRequest_stdout settings path buffer).trans hline, hnamed, ?_⟩
    rw [← List.count_eq_zero, hnamed, namedNewlines_eq_zero_iff]
  · rw [hcount, Nat.add_eq_left, List.sum_eq_zero_iff_forall_eq_nat]
    simp only [List.forall_mem_map, namedNewlines_eq_zero_iff]

/-- A lookup of a name that holds a newline. -/
def lookupOfTwoLines : Bytes :=
  littleEndian 4 44 ++ littleEndian 4 1 ++ littleEndian 8 1 ++ littleEndian 8 1 ++ List.replicate 16 0 ++
    [97, 10, 98, 0]

/-- One request, and two lines. -/
theorem stdout_lookupOfTwoLines :
    handed [ascii "a"] (fun _ => some lookupOfTwoLines) = [(.newest, lookupOfTwoLines)] ∧
      (run (ascii "dump") [ascii "a"] fun _ => some lookupOfTwoLines).stdout =
        ascii "unique=1 LOOKUP nodeid=1 \"a\nb\"\n" ∧
      (run (ascii "dump") [ascii "a"] fun _ => some lookupOfTwoLines).stdout.count newline = 2 := by
  decide

end Dump

end FuseAbi
