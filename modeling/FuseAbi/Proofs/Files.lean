import FuseAbi.Proofs.Stream

/-!
# Runs over several files

A run over several files is made of runs over the single files, with the same options. Files are shown one
after the other, up to and including the first whose own run could not be done (`reached`), and the gravest
status is that of the whole (`run_files`). Options that are out of order are complained about before any file
is opened, so then each file's own run is that complaint, and the first of them is all there is. A request that
is refused ends no run. A file that is opened and then not read to its end does, like one that is not opened.

That later files are not touched is said of the run that notes what it opens (`opened`). It is the same program
for another way of opening files, and so no more than a second look at the run (`dumpFilesM_noting`).

That there is a command line for each single file is said by `Options.exists_single`: files may be left out of
a command line, and what remains is read as before. `Options.Reads` gives the command lines as a grammar, so
that this is an induction over the arguments.
-/

namespace FuseAbi.Dump

/-! ## Command lines -/

namespace Options

/-- `Reads options arguments options'`: on top of `options`, the arguments are read as `options'`. -/
inductive Reads : Options → List Bytes → Options → Prop
  | nil (options : Options) : Reads options [] options
  | minor {options options' : Options} {rest : List Bytes} (value : Bytes)
      (h : Reads { options with minor := UInt32.ofInt (leadingInt value) } rest options') :
      Reads options (ascii "--minor" :: value :: rest) options'
  | logLevel {options options' : Options} {rest : List Bytes} (value : Bytes)
      (h : Reads { options with logLevel := value } rest options') :
      Reads options (ascii "--log-level" :: value :: rest) options'
  | stream {options options' : Options} {rest : List Bytes}
      (h : Reads { options with stream := true } rest options') :
      Reads options (ascii "--stream" :: rest) options'
  | file {options options' : Options} {rest : List Bytes} {path : Bytes} (hpath : path.head? ≠ some 45)
      (h : Reads { options with files := options.files ++ [path] } rest options') :
      Reads options (path :: rest) options'

variable {options options' options'' : Options} {arguments arguments' : List Bytes} {argument : Bytes}

/-- An argument that takes no value turns streams on or is a file. -/
theorem ok_of_readWord (h : options.readWord argument = .ok options') :
    (argument = ascii "--stream" ∧ options' = { options with stream := true }) ∨
      (argument.head? ≠ some 45 ∧ options' = { options with files := options.files ++ [argument] }) := by
  unfold readWord at h
  split at h
  next hstream =>
    cases h
    exact .inl ⟨hstream, rfl⟩
  next =>
    split at h
    next => cases h
    next =>
      split at h
      next => cases h
      next hdash =>
        cases h
        exact .inr ⟨hdash, rfl⟩

theorem readWord_stream : options.readWord (ascii "--stream") = .ok { options with stream := true } :=
  rfl

theorem readWord_file (h : argument.head? ≠ some 45) :
    options.readWord argument = .ok { options with files := options.files ++ [argument] } := by
  have hstream : argument ≠ ascii "--stream" := fun heq => h (heq ▸ rfl)
  have hhelp : argument ≠ ascii "--help" := fun heq => h (heq ▸ rfl)
  rw [readWord, if_neg hstream, if_neg hhelp, if_neg h]

/-- An argument that takes no value is read alone, whatever follows it. -/
theorem readFrom_cons_word (h : options.readWord argument = .ok options') (rest : List Bytes) :
    readFrom options (argument :: rest) = readFrom options' rest := by
  cases rest with
  | nil => exact h
  | cons value rest =>
    have hminor : argument ≠ ascii "--minor" := by
      rintro rfl
      cases h
    have hlevel : argument ≠ ascii "--log-level" := by
      rintro rfl
      cases h
    rw [readFrom, if_neg hminor, if_neg hlevel, h]

theorem readFrom_eq_ok_iff : readFrom options arguments = .ok options' ↔ Reads options arguments options' := by
  constructor
  · intro h
    fun_induction readFrom options arguments with
    | case1 options =>
      cases h
      exact .nil _
    | case2 options argument =>
      rcases ok_of_readWord h with ⟨rfl, rfl⟩ | ⟨hpath, rfl⟩
      · exact .stream (.nil _)
      · exact .file hpath (.nil _)
    | case3 options value rest ih => exact .minor value (ih h)
    | case4 options value rest hne ih => exact .logLevel value (ih h)
    | case5 options argument value rest hminor hlevel next hword ih =>
      rcases ok_of_readWord hword with ⟨rfl, rfl⟩ | ⟨hpath, rfl⟩
      · exact .stream (ih h)
      · exact .file hpath (ih h)
    | case6 => cases h
  · intro h
    induction h with
    | nil options => rfl
    | minor value h ih => exact ih
    | logLevel value h ih => exact ih
    | stream h ih => exact (readFrom_cons_word readWord_stream _).trans ih
    | file hpath h ih => exact (readFrom_cons_word (readWord_file hpath) _).trans ih

namespace Reads

theorem append (h : Reads options arguments options') (h' : Reads options' arguments' options'') :
    Reads options (arguments ++ arguments') options'' := by
  induction h with
  | nil options => exact h'
  | minor value h ih => exact .minor value (ih h')
  | logLevel value h ih => exact .logLevel value (ih h')
  | stream h ih => exact .stream (ih h')
  | file hpath h ih => exact .file hpath (ih h')

/-- With its files left out, a command line is read as before. -/
theorem withoutFiles (h : Reads options arguments options') :
    ∃ arguments', Reads { options with files := [] } arguments' { options' with files := [] } := by
  induction h with
  | nil options => exact ⟨[], .nil _⟩
  | minor value h ih =>
    obtain ⟨arguments', ih⟩ := ih
    exact ⟨_, .minor value ih⟩
  | logLevel value h ih =>
    obtain ⟨arguments', ih⟩ := ih
    exact ⟨_, .logLevel value ih⟩
  | stream h ih =>
    obtain ⟨arguments', ih⟩ := ih
    exact ⟨_, .stream ih⟩
  | file hpath h ih => exact ih

/-- Nothing that starts with a dash is read as a file. -/
theorem head?_ne_of_mem (h : Reads options arguments options')
    (hfiles : ∀ path ∈ options.files, path.head? ≠ some 45) :
    ∀ path ∈ options'.files, path.head? ≠ some 45 := by
  induction h with
  | nil options => exact hfiles
  | minor value h ih => exact ih hfiles
  | logLevel value h ih => exact ih hfiles
  | stream h ih => exact ih hfiles
  | file hpath h ih =>
    refine ih fun path hmem => ?_
    rcases List.mem_append.mp hmem with hmem | hmem
    · exact hfiles path hmem
    · cases List.mem_singleton.mp hmem
      exact hpath

end Reads

/-- Of the files on a command line, there is a command line for each alone, with the same options. -/
theorem exists_single (h : ofArguments arguments = .ok options) {path : Bytes} (hpath : path ∈ options.files) :
    ∃ arguments', ofArguments arguments' = .ok { options with files := [path] } := by
  have hreads := readFrom_eq_ok_iff.mp h
  obtain ⟨arguments', hrest⟩ := hreads.withoutFiles
  have hname := hreads.head?_ne_of_mem (List.forall_mem_nil _) path hpath
  exact ⟨arguments' ++ [path], readFrom_eq_ok_iff.mpr (hrest.append (.file hname (.nil _)))⟩

end Options

/-! ## One file -/

/-- A run with the same options over one file. -/
def alone (program : Bytes) (options : Options) (contents : Bytes → Option File) (path : Bytes) : Report :=
  runOptions program { options with files := [path] } contents

/-- All that a file holds is decoded: the request that it is, or the frames that make it up. -/
def Decoded (stream : Bool) (minor : Minor) (file : Bytes) : Prop :=
  if stream then
    ∃ frames, Framed file frames [] ∧ ∀ frame ∈ frames, ∃ request, Request.decode minor frame = .ok request
  else ∃ request, Request.decode minor file = .ok request

section File

variable (settings : Settings) (contents : Bytes → Option File) {path file : Bytes}

theorem dumpFile_status_le (path file : Bytes) : (dumpFile settings path file).status ≤ 1 := by
  rw [dumpFile]
  split
  · exact dumpStream_status_le settings path (Frames.framed_split file)
  · exact dumpRequest_status_le settings path file

/-- A file goes well when all of it is decoded. -/
theorem dumpFile_status_eq_zero_iff (path file : Bytes) :
    (dumpFile settings path file).status = 0 ↔ Decoded settings.stream settings.minor file := by
  rw [dumpFile, Decoded]
  split
  · rw [dumpStream_status_eq_zero_iff settings path (Frames.framed_split file)]
    constructor
    · rintro ⟨hleft, hframes⟩
      have hframed := Frames.framed_split file
      rw [hleft] at hframed
      exact ⟨_, hframed, hframes⟩
    · rintro ⟨frames, hframed, hframes⟩
      rw [Frames.split_eq_of_framed hframed]
      exact ⟨rfl, hframes⟩
  · exact dumpRequest_status_eq_zero_iff settings path

theorem dumpFiles_single_of_ok (h : fileBytes path (contents path) = .ok file) :
    dumpFiles settings contents [path] = dumpFile settings path file :=
  (dumpFiles_cons_of_ok settings h []).trans (Report.append_empty _)

/-- One file ends a run when it cannot be opened or read, and goes well when all of it is decoded. -/
theorem dumpFiles_single_status (path : Bytes) :
    (dumpFiles settings contents [path]).status ≤ 2 ∧
    ((dumpFiles settings contents [path]).status = 2 ↔
      contents path = none ∨ ∃ words, contents path = some (.failed words)) ∧
    ((dumpFiles settings contents [path]).status = 0 ↔
      ∃ file, contents path = some (.whole file) ∧ Decoded settings.stream settings.minor file) := by
  cases hfile : fileBytes path (contents path) with
  | error complaint =>
    rw [dumpFiles_cons_of_error settings hfile]
    refine ⟨Nat.le_refl 2, iff_of_true rfl (exists_fileBytes_eq_error_iff.mp ⟨complaint, hfile⟩),
      iff_of_false (Nat.succ_ne_zero 1) ?_⟩
    rintro ⟨file, hwhole, -⟩
    cases hfile.symm.trans (fileBytes_eq_ok_iff.mpr hwhole)
  | ok file =>
    have hwhole := fileBytes_eq_ok_iff.mp hfile
    rw [dumpFiles_single_of_ok settings contents hfile, dumpFile_status_eq_zero_iff, hwhole]
    have hle := dumpFile_status_le settings path file
    refine ⟨by omega, iff_of_false (by omega) ?_, ?_⟩
    · rintro (hnone | ⟨words, hfailed⟩)
      · cases hnone
      · cases hfailed
    · simp only [Option.some.injEq, File.whole.injEq, exists_eq_left']

end File

/-! ## Options in order and out of order -/

section Options

variable (program : Bytes) {minor : UInt32} {logLevel : Bytes}

/-- With options in order, the files are shown. -/
theorem runOptionsM_of_valid {m : Type → Type} [Monad m] {threshold : Level}
    (hlevel : threshold? logLevel = some threshold) {minor' : Minor} (hminor : Minor.ofNumber minor = .ok minor')
    (stream : Bool) {files : List Bytes} (hfiles : files ≠ []) (openFile : Bytes → m (Option File)) :
    runOptionsM program { minor, logLevel, stream, files } openFile =
      dumpFilesM { minor := minor', threshold, stream } openFile files := by
  simp only [runOptionsM, List.isEmpty_iff, if_neg hfiles, hlevel, hminor]

theorem runOptions_of_valid {threshold : Level} (hlevel : threshold? logLevel = some threshold)
    {minor' : Minor} (hminor : Minor.ofNumber minor = .ok minor') (stream : Bool) {files : List Bytes}
    (hfiles : files ≠ []) (contents : Bytes → Option File) :
    runOptions program { minor, logLevel, stream, files } contents =
      dumpFiles { minor := minor', threshold, stream } contents files :=
  congrArg Id.run (runOptionsM_of_valid program hlevel hminor stream hfiles _)

theorem alone_of_valid {options : Options} {threshold : Level}
    (hlevel : threshold? options.logLevel = some threshold) {minor : Minor}
    (hminor : Minor.ofNumber options.minor = .ok minor) (contents : Bytes → Option File) :
    alone program options contents =
      fun path => dumpFiles { minor, threshold, stream := options.stream } contents [path] :=
  funext fun path =>
    runOptions_of_valid program hlevel hminor options.stream (List.cons_ne_nil path []) contents

/-- With options out of order, that is all that is said, whatever the files are, and none is opened. -/
theorem runOptionsM_of_invalid
    (h : threshold? logLevel = none ∨ ∃ unsupported, Minor.ofNumber minor = .error unsupported) :
    ∃ complaint, ∀ (m : Type → Type) [Monad m] (stream : Bool), ∀ files ≠ [],
      ∀ openFile : Bytes → m (Option File),
        runOptionsM program { minor, logLevel, stream, files } openFile = pure (.failure complaint) := by
  cases hlevel : threshold? logLevel with
  | none =>
    refine ⟨ascii "unknown log level: " ++ logLevel ++ ascii "\n", fun m _ stream files hfiles openFile => ?_⟩
    simp only [runOptionsM, List.isEmpty_iff, if_neg hfiles, hlevel]
  | some threshold =>
    obtain ⟨unsupported, hminor⟩ := h.resolve_left (by rw [hlevel]; exact nofun)
    refine ⟨ascii "error: " ++ unsupported.message ++ ascii "\n", fun m _ stream files hfiles openFile => ?_⟩
    simp only [runOptionsM, List.isEmpty_iff, if_neg hfiles, hlevel, hminor]

theorem runOptions_of_invalid
    (h : threshold? logLevel = none ∨ ∃ unsupported, Minor.ofNumber minor = .error unsupported) :
    ∃ complaint, ∀ stream, ∀ files ≠ [], ∀ contents,
      runOptions program { minor, logLevel, stream, files } contents = .failure complaint := by
  obtain ⟨complaint, hcomplaint⟩ := runOptionsM_of_invalid program h
  exact ⟨complaint, fun stream files hfiles contents => congrArg Id.run (hcomplaint Id stream files hfiles _)⟩

/-- Options are in order when they name a level and a minor, and out of order when not. -/
theorem valid_or_invalid (minor : UInt32) (logLevel : Bytes) :
    (∃ threshold minor', threshold? logLevel = some threshold ∧ Minor.ofNumber minor = .ok minor') ∨
      (threshold? logLevel = none ∨ ∃ unsupported, Minor.ofNumber minor = .error unsupported) := by
  cases threshold? logLevel with
  | none => exact .inr (.inl rfl)
  | some threshold =>
    cases Minor.ofNumber minor with
    | error unsupported => exact .inr (.inr ⟨unsupported, rfl⟩)
    | ok minor' => exact .inl ⟨threshold, minor', rfl, rfl⟩

/-- A run over one file could not be done when its options are out of order or the file cannot be opened or read,
and goes well when the file can be read and all of it is decoded. -/
theorem alone_status (options : Options) (contents : Bytes → Option File) (path : Bytes) :
    (alone program options contents path).status ≤ 2 ∧
    ((alone program options contents path).status = 2 ↔
      threshold? options.logLevel = none ∨ (∃ unsupported, Minor.ofNumber options.minor = .error unsupported) ∨
        contents path = none ∨ ∃ words, contents path = some (.failed words)) ∧
    ((alone program options contents path).status = 0 ↔
      ∃ threshold minor file, threshold? options.logLevel = some threshold ∧
        Minor.ofNumber options.minor = .ok minor ∧ contents path = some (.whole file) ∧
        Decoded options.stream minor file) := by
  rcases valid_or_invalid options.minor options.logLevel with ⟨threshold, minor, hlevel, hminor⟩ | hinvalid
  · obtain ⟨hle, htwo, hzero⟩ :=
      dumpFiles_single_status { minor, threshold, stream := options.stream } contents path
    simp only [alone_of_valid program hlevel hminor, hlevel, hminor, Option.some.injEq, Except.ok.injEq, reduceCtorEq, exists_false, false_or,
      exists_and_left, exists_eq_left']
    exact ⟨hle, htwo, hzero⟩
  · obtain ⟨complaint, hfailure⟩ := runOptions_of_invalid program hinvalid
    have halone : alone program options contents path = .failure complaint :=
      hfailure options.stream _ (List.cons_ne_nil path []) contents
    rw [halone]
    refine ⟨Nat.le_refl 2, iff_of_true rfl (hinvalid.imp_right .inl), iff_of_false (Nat.succ_ne_zero 1) ?_⟩
    rintro ⟨threshold, minor, file, hlevel, hminor, -⟩
    rcases hinvalid with hnone | ⟨unsupported, herror⟩
    · cases hnone.symm.trans hlevel
    · cases herror.symm.trans hminor

end Options

/-! ## All files -/

/-- The files that a run opens: those up to and including the first whose own run could not be done. -/
def reached (report : Bytes → Report) : List Bytes → List Bytes
  | [] => []
  | path :: rest => if (report path).status = 2 then [path] else path :: reached report rest

section Reached

variable {report report' : Bytes → Report} {files : List Bytes}

/-- Where every file's own run could be done, all files are reached. -/
theorem reached_eq_self (h : ∀ path ∈ files, (report path).status ≤ 1) : reached report files = files := by
  induction files with
  | nil => rfl
  | cons path rest ih =>
    obtain ⟨hpath, hrest⟩ := List.forall_mem_cons.mp h
    rw [reached, if_neg (by omega), ih hrest]

/-- Which files are reached hangs on those that are reached. -/
theorem reached_congr (h : ∀ path ∈ reached report files, report' path = report path) :
    reached report' files = reached report files := by
  induction files with
  | nil => rfl
  | cons path rest ih =>
    rw [reached] at h ⊢
    by_cases hstatus : (report path).status = 2
    · rw [if_pos hstatus] at h
      rw [reached, h path List.mem_cons_self, if_pos hstatus, if_pos hstatus]
    · rw [if_neg hstatus] at h
      obtain ⟨hpath, hrest⟩ := List.forall_mem_cons.mp h
      rw [reached, hpath, if_neg hstatus, if_neg hstatus, ih hrest]

/-- Of the statuses of all files, none is graver than those of the files that are reached. -/
theorem forall_reached_status_le_iff (h : ∀ path, (report path).status ≤ 2) {bound : Nat} :
    (∀ path ∈ reached report files, (report path).status ≤ bound) ↔
      ∀ path ∈ files, (report path).status ≤ bound := by
  induction files with
  | nil => exact Iff.rfl
  | cons path rest ih =>
    rw [reached]
    by_cases hstatus : (report path).status = 2
    · rw [if_pos hstatus]
      constructor
      · intro hbound other _
        exact Nat.le_trans (h other) (hstatus ▸ hbound path List.mem_cons_self)
      · intro hbound other hmem
        cases List.mem_singleton.mp hmem
        exact hbound path List.mem_cons_self
    · rw [if_neg hstatus, List.forall_mem_cons, List.forall_mem_cons, ih]

/-- So the gravest of all is that of the files that are reached, put together. -/
theorem max?_status (h : ∀ path, (report path).status ≤ 2) (hfiles : files ≠ []) :
    (files.map fun path => (report path).status).max? =
      some (Report.concat ((reached report files).map report)).status := by
  have hne : (files.map fun path => (report path).status) ≠ [] := by
    rw [ne_eq, List.map_eq_nil_iff]
    exact hfiles
  obtain ⟨gravest, hgravest⟩ := Option.isSome_iff_exists.mp (List.isSome_max?_of_ne_nil hne)
  rw [hgravest]
  refine congrArg some (eq_of_forall_ge_iff fun bound => ?_)
  rw [List.max?_le_iff hgravest, Report.concat_status_le_iff, List.forall_mem_map, List.forall_mem_map,
    forall_reached_status_le_iff h]

end Reached

section Alone

variable (settings : Settings) {contents : Bytes → Option File} {path file complaint : Bytes} (rest : List Bytes)

/-- Behind a file that is read the next files are reached. -/
theorem reached_cons_of_ok (h : fileBytes path (contents path) = .ok file) :
    reached (fun path => dumpFiles settings contents [path]) (path :: rest) =
      path :: reached (fun path => dumpFiles settings contents [path]) rest := by
  have hle := dumpFile_status_le settings path file
  rw [reached, dumpFiles_single_of_ok settings contents h, if_neg (by omega)]

theorem reached_cons_of_error (h : fileBytes path (contents path) = .error complaint) :
    reached (fun path => dumpFiles settings contents [path]) (path :: rest) = [path] := by
  rw [reached, dumpFiles_cons_of_error settings h]
  exact if_pos rfl

end Alone

/-- Files are shown up to the first that cannot be read, each as it is shown alone. -/
theorem dumpFiles_eq_concat (settings : Settings) (contents : Bytes → Option File) (files : List Bytes) :
    dumpFiles settings contents files =
      Report.concat ((reached (fun path => dumpFiles settings contents [path]) files).map
        fun path => dumpFiles settings contents [path]) := by
  induction files with
  | nil => rfl
  | cons path rest ih =>
    cases hfile : fileBytes path (contents path) with
    | error complaint =>
      rw [reached_cons_of_error settings rest hfile, List.map_singleton, Report.concat_cons, Report.concat_nil,
        Report.append_empty, dumpFiles_cons_of_error settings hfile, dumpFiles_cons_of_error settings hfile]
    | ok file =>
      rw [reached_cons_of_ok settings rest hfile, List.map_cons, Report.concat_cons, ← ih,
        dumpFiles_single_of_ok settings contents hfile, dumpFiles_cons_of_ok settings hfile]

/-- A run shows what the runs over the files it reaches show. -/
theorem runOptions_eq_concat (program : Bytes) {options : Options} (hfiles : options.files ≠ [])
    (contents : Bytes → Option File) :
    runOptions program options contents =
      Report.concat ((reached (alone program options contents) options.files).map
        (alone program options contents)) := by
  rcases valid_or_invalid options.minor options.logLevel with ⟨threshold, minor, hlevel, hminor⟩ | hinvalid
  · rw [alone_of_valid program hlevel hminor, ← dumpFiles_eq_concat]
    exact runOptions_of_valid program hlevel hminor options.stream hfiles contents
  · obtain ⟨complaint, hfailure⟩ := runOptions_of_invalid program hinvalid
    have halone : alone program options contents = fun _ => .failure complaint :=
      funext fun path => hfailure options.stream _ (List.cons_ne_nil path []) contents
    obtain ⟨path, rest, hcons⟩ := List.exists_cons_of_ne_nil hfiles
    refine (hfailure options.stream _ hfiles contents).trans ?_
    rw [halone, hcons]
    exact (Report.append_empty _).symm

/-- A run over one file hangs on what that file holds. -/
theorem alone_congr {program : Bytes} {options : Options} {contents contents' : Bytes → Option File}
    {path : Bytes} (h : contents' path = contents path) :
    alone program options contents' path = alone program options contents path := by
  simp only [alone, runOptions, runOptionsM, dumpFilesM, pure_bind, h]

/-- A run hangs on what the files hold that it reaches. -/
theorem runOptions_congr (program : Bytes) {options : Options} (hfiles : options.files ≠ [])
    {contents contents' : Bytes → Option File}
    (h : ∀ path ∈ reached (alone program options contents) options.files, contents' path = contents path) :
    runOptions program options contents' = runOptions program options contents := by
  have hsame : ∀ path ∈ reached (alone program options contents) options.files,
      alone program options contents' path = alone program options contents path :=
    fun path hmem => alone_congr (h path hmem)
  rw [runOptions_eq_concat program hfiles, runOptions_eq_concat program hfiles, reached_congr hsame,
    List.map_congr_left hsame]

/-! ## What is opened -/

/-- Opens a file and notes its path. -/
def noting (contents : Bytes → Option File) (path : Bytes) : StateM (List Bytes) (Option File) := do
  modify (· ++ [path])
  return contents path

/-- The files that a run opens, in order. -/
def opened (program : Bytes) (arguments : List Bytes) (contents : Bytes → Option File) : List Bytes :=
  ((runM program arguments (noting contents)).run []).run.2

/-- Files are opened just as they are reached, and noting that changes nothing in what is shown. -/
theorem dumpFilesM_noting (settings : Settings) (contents : Bytes → Option File) (files noted : List Bytes) :
    ((dumpFilesM settings (noting contents) files).run noted).run =
      (dumpFiles settings contents files,
        noted ++ reached (fun path => dumpFiles settings contents [path]) files) := by
  induction files generalizing noted with
  | nil =>
    rw [reached, List.append_nil]
    rfl
  | cons path rest ih =>
    have hstep : ((noting contents path).run noted).run = (contents path, noted ++ [path]) := rfl
    cases hfile : fileBytes path (contents path) with
    | error complaint =>
      rw [reached_cons_of_error settings rest hfile, dumpFiles_cons_of_error settings hfile]
      simp only [dumpFilesM, StateT.run_bind, Id.run_bind, hstep, hfile]
      rfl
    | ok file =>
      rw [reached_cons_of_ok settings rest hfile, dumpFiles_cons_of_ok settings hfile, List.append_cons]
      simp only [dumpFilesM, StateT.run_bind, Id.run_bind, hstep, hfile, ih]
      rfl

/-- A run that ends with the reading of its command line opens no file. -/
theorem opened_of_error (program : Bytes) {arguments : List Bytes} {halt : Halt}
    (h : Options.ofArguments arguments = .error halt) (contents : Bytes → Option File) :
    opened program arguments contents = [] := by
  simp only [opened, runM, h]
  rfl

section Opened

variable (program : Bytes) {arguments : List Bytes} {options : Options}
  (h : Options.ofArguments arguments = .ok options) (hfiles : options.files ≠ []) (contents : Bytes → Option File)

include h

theorem opened_eq :
    opened program arguments contents = ((runOptionsM program options (noting contents)).run []).run.2 := by
  simp only [opened, runM, h]

include hfiles

/-- With options in order, a run opens the files that it reaches. -/
theorem opened_of_valid {threshold : Level} (hlevel : threshold? options.logLevel = some threshold)
    {minor : Minor} (hminor : Minor.ofNumber options.minor = .ok minor) :
    opened program arguments contents = reached (alone program options contents) options.files := by
  have hrun := runOptionsM_of_valid program hlevel hminor options.stream hfiles (noting contents)
  rw [opened_eq program h, hrun, dumpFilesM_noting, alone_of_valid program hlevel hminor, List.nil_append]

/-- With options out of order, it opens none. -/
theorem opened_of_invalid
    (hinvalid : threshold? options.logLevel = none ∨ ∃ unsupported, Minor.ofNumber options.minor = .error unsupported) :
    opened program arguments contents = [] := by
  obtain ⟨complaint, hcomplaint⟩ := runOptionsM_of_invalid program hinvalid
  have hrun := hcomplaint (StateM (List Bytes)) options.stream options.files hfiles (noting contents)
  rw [opened_eq program h, hrun]
  rfl

end Opened

/-! ## The whole run -/

/-- A run over files is made of the runs over each file with the same options, for each of which there is a
command line. Its status is the gravest of theirs. What it shows and logs is what they show and log, in order,
up to and including the first that could not be done; later files are not opened, and what they hold makes no
difference. Where each could be done, all are shown, whatever was refused in them. A run over one file could not
be done when level or minor are not known or the file cannot be opened or not be read to its end, and goes well
when the file can be read and all of it is decoded. -/
theorem run_files {arguments : List Bytes} {options : Options} (h : Options.ofArguments arguments = .ok options)
    (hfiles : options.files ≠ []) (program : Bytes) (contents : Bytes → Option File) :
    (∀ path ∈ options.files, ∃ arguments',
      Options.ofArguments arguments' = .ok { options with files := [path] } ∧
        run program arguments' contents = alone program options contents path) ∧
    (options.files.map fun path => (alone program options contents path).status).max? =
      some (run program arguments contents).status ∧
    (run program arguments contents).stdout =
      (reached (alone program options contents) options.files).flatMap
        (fun path => (alone program options contents path).stdout) ∧
    (run program arguments contents).stderr =
      (reached (alone program options contents) options.files).flatMap
        (fun path => (alone program options contents path).stderr) ∧
    (run program arguments contents).log =
      (reached (alone program options contents) options.files).flatMap
        (fun path => (alone program options contents path).log) ∧
    (∀ threshold minor, threshold? options.logLevel = some threshold → Minor.ofNumber options.minor = .ok minor →
      opened program arguments contents = reached (alone program options contents) options.files) ∧
    (threshold? options.logLevel = none ∨ (∃ unsupported, Minor.ofNumber options.minor = .error unsupported) →
      opened program arguments contents = []) ∧
    (∀ contents',
      (∀ path ∈ reached (alone program options contents) options.files, contents' path = contents path) →
        run program arguments contents' = run program arguments contents) ∧
    ((∀ path ∈ options.files, (alone program options contents path).status ≤ 1) →
      reached (alone program options contents) options.files = options.files) ∧
    ∀ path,
      (alone program options contents path).status ≤ 2 ∧
      ((alone program options contents path).status = 2 ↔
        threshold? options.logLevel = none ∨
          (∃ unsupported, Minor.ofNumber options.minor = .error unsupported) ∨
          contents path = none ∨ ∃ words, contents path = some (.failed words)) ∧
      ((alone program options contents path).status = 0 ↔
        ∃ threshold minor file, threshold? options.logLevel = some threshold ∧
          Minor.ofNumber options.minor = .ok minor ∧ contents path = some (.whole file) ∧
          Decoded options.stream minor file) := by
  have hrun (contents : Bytes → Option File) := run_of_ok program contents h
  have hstatus := alone_status program options contents
  simp only [hrun]
  refine ⟨fun path hmem => ?_, ?_, ?_, ?_, ?_, ?_, opened_of_invalid program h hfiles contents, ?_, reached_eq_self,
    hstatus⟩
  · obtain ⟨arguments', h'⟩ := Options.exists_single h hmem
    exact ⟨arguments', h', run_of_ok program contents h'⟩
  · rw [runOptions_eq_concat program hfiles]
    exact max?_status (fun path => (hstatus path).1) hfiles
  · rw [runOptions_eq_concat program hfiles, Report.concat_stdout, List.flatMap_map]
  · rw [runOptions_eq_concat program hfiles, Report.concat_stderr, List.flatMap_map]
  · rw [runOptions_eq_concat program hfiles, Report.concat_log, List.flatMap_map]
  · exact fun threshold minor hlevel hminor => opened_of_valid program h hfiles contents hlevel hminor
  · exact fun contents' hsame => runOptions_congr program hfiles hsame

/-- A request that is a header alone. -/
def bareRequest (op : Opcode) : Bytes :=
  littleEndian 4 40 ++ littleEndian 4 op.code.toNat ++ List.replicate 32 0

/-- An empty file and one that holds a request; all others are missing. -/
def emptyAndStatfs (path : Bytes) : Option File :=
  if path = ascii "a" then some (.whole [])
  else if path = ascii "b" then some (.whole (bareRequest .statfs))
  else none

/-- The empty file is refused and stops nothing; a missing one ends the run in front of the last. -/
theorem run_files_emptyAndStatfs :
    Options.ofArguments [ascii "a", ascii "b", ascii "c", ascii "b"] =
      .ok { files := [ascii "a", ascii "b", ascii "c", ascii "b"] } ∧
    (run (ascii "dump") [ascii "a", ascii "b", ascii "c", ascii "b"] emptyAndStatfs).status = 2 ∧
    (run (ascii "dump") [ascii "a", ascii "b", ascii "c", ascii "b"] emptyAndStatfs).stdout =
      ascii "unique=0 error: Truncated (opcode=0, offset=0): request shorter than header (0 bytes)\n" ++
        ascii "unique=0 STATFS nodeid=0\n" ∧
    opened (ascii "dump") [ascii "a", ascii "b", ascii "c", ascii "b"] emptyAndStatfs =
      [ascii "a", ascii "b", ascii "c"] := by
  have h : Options.ofArguments [ascii "a", ascii "b", ascii "c", ascii "b"] =
      .ok { files := [ascii "a", ascii "b", ascii "c", ascii "b"] } := by decide
  obtain ⟨-, hstatus, hstdout, -, -, hopened, -⟩ :=
    run_files h (List.cons_ne_nil _ _) (ascii "dump") emptyAndStatfs
  have hminor : Minor.ofNumber 31 = .ok .newest := rfl
  refine ⟨h, Option.some.inj (hstatus.symm.trans ?_), hstdout.trans ?_, (hopened .warning .newest rfl hminor).trans ?_⟩
  · decide
  · decide
  · decide

/-- The only path is that of a directory, which is opened like a file and cannot be read. -/
def directory (path : Bytes) : Option File :=
  if path = ascii "." then some (.failed (some (ascii "Is a directory"))) else none

/-- To be opened is not enough for a run to be done: over a directory it is not, with level and minor in order. -/
theorem status_directory :
    Options.ofArguments [ascii "."] = .ok { files := [ascii "."] } ∧
    ¬((run (ascii "dump") [ascii "."] directory).status = 2 ↔
      threshold? [] = none ∨ (∃ unsupported, Minor.ofNumber 31 = .error unsupported) ∨
        directory (ascii ".") = none) := by
  have hstatus : (run (ascii "dump") [ascii "."] directory).status = 2 := by decide
  have hopen : directory (ascii ".") ≠ none := by decide
  refine ⟨by decide, fun h => ?_⟩
  rcases h.mp hstatus with hlevel | ⟨unsupported, hminor⟩ | hnone
  · cases hlevel
  · cases hminor
  · exact hopen hnone

end FuseAbi.Dump
