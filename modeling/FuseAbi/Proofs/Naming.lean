import FuseAbi.Proofs.Soundness

/-!
# The name of a decoded request

An operation keeps no opcode: its name is made up from its fields again. Here that name is compared with the
opcode on the wire, whatever the fields are. The two agree for the opcodes that have an operation of their own,
and for those that share one as far as the operation tells them apart: a listing by its mode, a lock by whether
the caller waits, which for a lock on a whole file is a bit of its command.

A rename is told apart by its flags alone. Under `RENAME2` without flags the kernel asks for what it asks for
under `RENAME`; both are decoded to one operation, and that is named `RENAME` (`Request.name_of_decode`).
-/

namespace FuseAbi

/-- A call on a whole file waits just if it lacks the bit that keeps it from waiting. -/
theorem Kernel.hasBit_flockCommands {command : UInt32} {sleep : Bool} (h : command ∈ flockCommands sleep) :
    hasBit command Flock.nonblocking = !sleep := by
  cases sleep <;> simp only [flockCommands, flockCalls, List.map_cons, List.map_nil, List.mem_cons,
    List.not_mem_nil, or_false] at h <;> rcases h with rfl | rfl | rfl <;> decide

/-- Whatever is written under an opcode other than `RENAME2` answers to that opcode. -/
theorem Kernel.WellFormed.opcode_eq {header : Header} {op : Opcode} {operation : Operation}
    (h : WellFormed header op operation) (hop : op ≠ .rename2) : operation.opcode = op := by
  cases operation with
  | rename source target flags =>
    rcases h.1 with ⟨rfl, rfl⟩ | ⟨rfl, -⟩
    · rfl
    · exact absurd rfl hop
  | readdir source size mode =>
    rcases h.1 with ⟨rfl, rfl⟩ | ⟨rfl, rfl⟩ <;> rfl
  | setlk handle owner lock sleep =>
    rcases h.1 with ⟨rfl, rfl⟩ | ⟨rfl, rfl⟩ <;> rfl
  | flock handle owner command =>
    rcases h.1 with ⟨rfl, hcommand⟩ | ⟨rfl, hcommand⟩
    · have hcommand : command ∈ flockCommands false := hcommand
      rw [Operation.opcode, hasBit_flockCommands hcommand]
      rfl
    · rw [← flockCommands_true] at hcommand
      rw [Operation.opcode, hasBit_flockCommands hcommand]
      rfl
  | batchForget | interrupt => exact h.symm
  | _ => exact h.1.symm

namespace Request

variable {minor : Minor} {buffer : Bytes} {request : Request}

/-- Under `RENAME2` a rename is decoded, with the flags that stand behind the target's directory. -/
theorem rename2_of_decode (h : decode minor buffer = .ok request)
    (hopcode : request.header.opcode = Opcode.rename2.code) :
    ∃ source target, request.operation = .rename source target (wordAt buffer 48) := by
  obtain ⟨-, -, -, format, hformat, hspell⟩ := decode_eq_ok_iff.mp h
  obtain ⟨op, hop, hopformat, -⟩ := Minor.format_eq_ok_iff.mp hformat
  rw [hopcode, Opcode.ofCode?_code] at hop
  cases hop
  cases hopformat
  obtain ⟨fixed, ⟨old, new, ⟨⟩⟩, -, hfixed, -, -, -, hoperation⟩ := hspell
  have hflags : fixed.flags = wordAt buffer 48 := by
    rw [hfixed]
    exact Rename2Args.flags_ofBytes buffer
  refine ⟨{ parent := request.header.nodeid, name := old }, { parent := fixed.newdir, name := new }, ?_⟩
  rw [hoperation, ← hflags]
  rfl

/-- The name of a decoded operation is that of the opcode on the wire, unless this is `RENAME2` and its flags
are zero; then the operation is a rename without flags, as it is decoded under `RENAME`, and has that name. -/
theorem name_of_decode (h : decode minor buffer = .ok request) :
    ∃ op, Opcode.ofCode? request.header.opcode = some op ∧
      (op = .rename2 ∧ wordAt buffer 48 = 0 → ∃ source target, request.operation = .rename source target 0) ∧
      request.operation.name = (if op = .rename2 ∧ wordAt buffer 48 = 0 then Opcode.rename else op).name ∧
      (request.operation.name = op.name ↔ ¬ (op = .rename2 ∧ wordAt buffer 48 = 0)) := by
  obtain ⟨op, hopcode, -, hwell, -⟩ := Kernel.agreeOn_encode h
  refine ⟨op, Opcode.ofCode?_eq_some_iff.mpr hopcode, ?_, ?_⟩
  · rintro ⟨rfl, hflags⟩
    obtain ⟨source, target, hoperation⟩ := rename2_of_decode h hopcode.symm
    rw [hflags] at hoperation
    exact ⟨source, target, hoperation⟩
  by_cases hop : op = .rename2
  · subst hop
    obtain ⟨source, target, hoperation⟩ := rename2_of_decode h hopcode.symm
    have hname : request.operation.name =
        (if wordAt buffer 48 = 0 then Opcode.rename else Opcode.rename2).name := by
      rw [hoperation]
      rfl
    simp only [hname, true_and]
    split
    next hflags => exact iff_of_false (by decide) (not_not_intro hflags)
    next hflags => exact iff_of_true rfl hflags
  · have hname : request.operation.name = op.name := congrArg Opcode.name (hwell.opcode_eq hop)
    simp only [hname, hop, false_and, if_false, not_false_eq_true, and_self]

/-- A request to move `a` to `b` within a directory, under `RENAME2` with the given flags. -/
def moveWithFlags (flags : UInt32) : Bytes :=
  littleEndian 4 60 ++ littleEndian 4 45 ++ littleEndian 8 1 ++ littleEndian 8 5 ++ List.replicate 16 0 ++
    (littleEndian 8 5 ++ littleEndian 4 flags.toNat ++ List.replicate 4 0) ++ [97, 0, 98, 0]

/-- A move that must not replace anything is named after its opcode. -/
theorem name_of_decode_moveWithFlags :
    ∃ request, decode .newest (moveWithFlags 1) = .ok request ∧ request.operation.name = "RENAME2" := by
  have h : decode .newest (moveWithFlags 1) =
      .ok { header := { len := 60, opcode := 45, unique := 1, nodeid := 5, uid := 0, gid := 0, pid := 0 }
            operation := .rename ⟨5, [97]⟩ ⟨5, [98]⟩ 1 } := by decide
  obtain ⟨op, hop, -, -, hname⟩ := name_of_decode h
  obtain rfl : Opcode.rename2 = op := Option.some.inj (hop ▸ rfl)
  exact ⟨_, h, hname.mpr (by decide)⟩

/-- Without flags the same move is named after another opcode than the one on the wire. -/
theorem name_moveWithoutFlags :
    ∃ request op, decode .newest (moveWithFlags 0) = .ok request ∧
      Opcode.ofCode? request.header.opcode = some op ∧ request.operation.name ≠ op.name :=
  ⟨{ header := { len := 60, opcode := 45, unique := 1, nodeid := 5, uid := 0, gid := 0, pid := 0 }
     operation := .rename ⟨5, [97]⟩ ⟨5, [98]⟩ 0 }, .rename2, by decide, by decide, by decide⟩

end Request

end FuseAbi
