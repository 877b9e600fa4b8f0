import FuseAbi.Proofs.Lines

/-!
# What a line says of its request

The line of a request starts with its number. That number is read in two ways: from the header, where there is one,
and otherwise from the bytes at its place, where they are there. Both are the same number wherever both can be read
(`uniqueOf_of_decode`), so the start of a line does not hang on how the request went (`prefix_lineOf`).

The rest of the line of a request that is decoded is what the operation asks for, and none of it is lost: a line is
printed up to a zero byte, and no name of such a request holds one (`lineOf_of_ok`).

**What it does not say.** Names are not escaped, so a line can be taken apart again only where they hold no quote.
-/

namespace FuseAbi.Dump

variable {minor : Minor} {buffer : Bytes}

/-- The bytes at the place of the number are peeked at where they are all there. -/
theorem uniqueOf_eq (buffer : Bytes) :
    uniqueOf buffer = if 16 ≤ buffer.length then (longAt buffer 8).toNat else 0 := by
  rw [uniqueOf, toNat_longAt]
  by_cases hlong : 16 ≤ buffer.length
  · rw [if_neg (Nat.not_lt.mpr hlong), if_pos hlong]
  · rw [if_pos (Nat.lt_of_not_le hlong), if_neg hlong]

/-- The header of a request that is decoded has the number and the node that stand in the bytes. -/
theorem header_of_decode {request : Request} (h : Request.decode minor buffer = .ok request) :
    request.header.unique = longAt buffer 8 ∧ request.header.nodeid = longAt buffer 16 := by
  obtain ⟨-, -, hheader, -⟩ := Request.ok_of_decode h
  rw [hheader]
  exact ⟨Header.peek_unique buffer, Header.peek_nodeid buffer⟩

/-- Such a request is long enough for its number to be peeked at. -/
theorem uniqueOf_of_decode {request : Request} (h : Request.decode minor buffer = .ok request) :
    uniqueOf buffer = (longAt buffer 8).toNat := by
  have hsize : Header.size ≤ buffer.length := (Request.ok_of_decode h).1
  rw [uniqueOf_eq, if_pos (Nat.le_trans (by decide) hsize)]

/-- The line of a request that is decoded, with nothing of its summary cut off. -/
theorem lineOf_of_ok {request : Request} (h : Request.decode minor buffer = .ok request) :
    lineOf minor buffer =
      ascii "unique=" ++ decimal (uniqueOf buffer) ++ ascii " " ++ ascii request.operation.name ++
        ascii " nodeid=" ++ decimal (longAt buffer 16).toNat ++
        (if request.operation.summary = [] then [] else ascii " " ++ request.operation.summary) ++
        ascii "\n" := by
  obtain ⟨hunique, hnodeid⟩ := header_of_decode h
  have hshown : (if request.operation.summary.isEmpty then [] else ascii " ") ++ request.operation.summary =
      if request.operation.summary = [] then [] else ascii " " ++ request.operation.summary := by
    by_cases hempty : request.operation.summary = []
    · rw [hempty]
      rfl
    · rw [if_neg hempty, List.isEmpty_eq_false_iff.mpr hempty]
      rfl
  rw [lineOf, h]
  dsimp only
  rw [requestLine, untilZero_summary h, hunique, hnodeid, uniqueOf_of_decode h, ← hshown]
  simp only [List.append_assoc]

theorem lineOf_of_error {e : DecodeError} (h : Request.decode minor buffer = .error e) :
    lineOf minor buffer =
      ascii "unique=" ++ decimal (uniqueOf buffer) ++ ascii " error: " ++ e.message ++ ascii "\n" := by
  rw [lineOf, h]
  rfl

/-- Every line starts with the number of its request. -/
theorem prefix_lineOf (minor : Minor) (buffer : Bytes) :
    ascii "unique=" ++ decimal (uniqueOf buffer) ++ ascii " " <+: lineOf minor buffer := by
  cases h : Request.decode minor buffer with
  | ok request =>
    simp only [lineOf_of_ok h, List.append_assoc, List.prefix_append_right_inj]
    exact List.prefix_append _ _
  | error e =>
    have hblank : ascii " error: " = ascii " " ++ ascii "error: " := rfl
    simp only [lineOf_of_error h, hblank, List.append_assoc, List.prefix_append_right_inj]
    exact List.prefix_append _ _

/-- A line says what its request is. It starts with the number at bytes 8 to 15, or with zero where the request is
too short for one, whether the request is decoded or not. Of a request that is decoded no name holds a zero byte,
and an operation has no other text than these names, so its summary holds none either. Its line is the number, the
name of the operation and the node, and then the whole summary if there is any, which shows every name in full
between quotes. The line of a request that is refused is the number and the whole message. -/
theorem stdout_faithful (settings : Settings) (path buffer : Bytes) :
    ascii "unique=" ++ decimal (if 16 ≤ buffer.length then (longAt buffer 8).toNat else 0) ++ ascii " " <+:
      (dumpRequest settings path buffer).stdout ∧
    (∀ request, Request.decode settings.minor buffer = .ok request →
      (∀ name ∈ request.operation.shownNames, 0 ∉ name) ∧ 0 ∉ request.operation.summary ∧
      Shows request.operation.shownNames request.operation.summary ∧
      request.header.unique = longAt buffer 8 ∧ request.header.nodeid = longAt buffer 16 ∧
      (dumpRequest settings path buffer).stdout =
        ascii "unique=" ++ decimal request.header.unique.toNat ++ ascii " " ++ ascii request.operation.name ++
          ascii " nodeid=" ++ decimal request.header.nodeid.toNat ++
          (if request.operation.summary = [] then [] else ascii " " ++ request.operation.summary) ++
          ascii "\n") ∧
    ∀ e, Request.decode settings.minor buffer = .error e →
      (dumpRequest settings path buffer).stdout =
        ascii "unique=" ++ decimal (if 16 ≤ buffer.length then (longAt buffer 8).toNat else 0) ++
          ascii " error: " ++ e.message ++ ascii "\n" := by
  rw [dumpRequest_stdout, ← uniqueOf_eq]
  refine ⟨prefix_lineOf settings.minor buffer, fun request h => ?_, fun e h => lineOf_of_error h⟩
  obtain ⟨hunique, hnodeid⟩ := header_of_decode h
  refine ⟨zero_notMem_shownNames h, zero_notMem_summary h, request.operation.shows_summary, hunique, hnodeid, ?_⟩
  rw [lineOf_of_ok h, hunique, hnodeid, uniqueOf_of_decode h]

/-- Sixteen bytes are no header, and yet they hold a number. -/
example : lineOf .newest (List.replicate 8 0 ++ littleEndian 8 7) =
    ascii "unique=7 error: Truncated (opcode=0, offset=16): request shorter than header (16 bytes)\n" := by
  decide

end FuseAbi.Dump
