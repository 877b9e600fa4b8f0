import FuseAbi.Proofs.Part
import FuseAbi.Request

/-!
# Reading arguments

`Format.read` walks over a format once, so the outcome of reading arguments is said once for all
opcodes. A read that goes through is described in full by `decodeArguments_eq_ok_iff`: the
arguments start with a record that is not refused, and what follows is just the bytes of legible
parts. A read that fails meets one of a few faults and blames a place of the arguments
(`Format.Regular.lawful_read`, `decodeArguments_eq_error`).

Both need two properties of a format, `Format.Regular`. Every format of an opcode has them
(`Opcode.regular_format`), and all but one have parts that say where they end
(`Opcode.isDelimited_tail`).
-/

namespace FuseAbi

/-- The faults that arguments are refused for, leftover bytes apart. -/
def Fault.InArguments (fault : Fault) : Prop :=
  fault.OfKind .truncated ∨ fault.OfKind .invalidString ∨ fault.OfKind .malformedArgument

namespace Argument

theorem Part.Meets.inArguments {part : Part} {fault : Fault} (h : part.Meets fault) :
    fault.InArguments := by
  cases part with
  | name limit => exact .inr (.inl h)
  | data size => exact .inl h
  | forgets count => exact .inr (.inr h)

namespace Format

variable {format : Format} {header : Header} {c d : Cursor}

/-! ## The outcomes of a read -/

/-- Too few bytes for the record: the read stops inside it. -/
theorem read_of_lt (h : c.unread.length < Record.size format.Fixed) :
    (format.read header).run c =
      .error
        { fault := .short (layoutStop (Record.layout format.Fixed) c.unread.length).2
            (c.unread.length - (layoutStop (Record.layout format.Fixed) c.unread.length).1)
          offset :=
            c.offset + UInt64.ofNat (layoutStop (Record.layout format.Fixed) c.unread.length).1 }
        (c.advance (layoutStop (Record.layout format.Fixed) c.unread.length).1) :=
  (Scan.run_bind_of_ok (s := Scan.offset) rfl).trans (Scan.run_bind_of_error (Record.read_of_lt h))

/-- With a record in front, the read goes on with what the record says. -/
theorem read_of_le (h : Record.size format.Fixed ≤ c.unread.length) :
    (format.read header).run c =
      (match format.objection (Record.ofBytes c.unread) with
      | some objection => throw { fault := objection.fault, offset := c.offset + objection.place }
      | none => do
        let parts ← Parts.read (format.tail (Record.ofBytes c.unread))
        return format.toOperation header (Record.ofBytes c.unread) parts : Scan Operation).run
        (c.advance (Record.size format.Fixed)) :=
  (Scan.run_bind_of_ok (s := Scan.offset) rfl).trans (Scan.run_bind_of_ok (Record.read_of_le h))

/-- A record that is refused is refused before anything behind it is looked at. -/
theorem read_of_objection (h : Record.size format.Fixed ≤ c.unread.length) {objection : Objection}
    (hobj : format.objection (Record.ofBytes c.unread) = some objection) :
    (format.read header).run c =
      .error { fault := objection.fault, offset := c.offset + objection.place }
        (c.advance (Record.size format.Fixed)) := by
  rw [read_of_le h, hobj]
  rfl

/-- A record that is not refused leaves the rest to the parts. -/
theorem read_of_noObjection (format : Format) (header : Header) {fixed : format.Fixed}
    (h : Record.size format.Fixed ≤ c.unread.length) (hfixed : Record.ofBytes c.unread = fixed)
    (hobj : format.objection fixed = none) :
    (format.read header).run c =
      (format.toOperation header fixed <$> Parts.read (format.tail fixed)).run
        (c.advance (Record.size format.Fixed)) := by
  subst hfixed
  rw [read_of_le h, hobj, ← bind_pure_comp]

/-- Behind a record that is not refused, the outcome is that of the parts. -/
theorem read_of_parts_ok (h : Record.size format.Fixed ≤ c.unread.length)
    (hobj : format.objection (Record.ofBytes c.unread) = none)
    {parts : Parts (format.tail (Record.ofBytes c.unread))}
    (hparts : (Parts.read _).run (c.advance (Record.size format.Fixed)) = .ok parts d) :
    (format.read header).run c = .ok (format.toOperation header (Record.ofBytes c.unread) parts) d := by
  rw [read_of_le h, hobj]
  exact Scan.run_bind_of_ok hparts

theorem read_of_parts_error (h : Record.size format.Fixed ≤ c.unread.length)
    (hobj : format.objection (Record.ofBytes c.unread) = none) {e : DecodeError}
    (hparts : (Parts.read (format.tail (Record.ofBytes c.unread))).run
      (c.advance (Record.size format.Fixed)) = .error e d) :
    (format.read header).run c = .error e d := by
  rw [read_of_le h, hobj]
  exact Scan.run_bind_of_error hparts

/-- What a read that goes through has met. -/
theorem ok_of_read {operation : Operation} (h : (format.read header).run c = .ok operation d) :
    Record.size format.Fixed ≤ c.unread.length ∧
      format.objection (Record.ofBytes c.unread) = none ∧
      ∃ parts, (Parts.read (format.tail (Record.ofBytes c.unread))).run
          (c.advance (Record.size format.Fixed)) = .ok parts d ∧
        operation = format.toOperation header (Record.ofBytes c.unread) parts := by
  by_cases hsize : Record.size format.Fixed ≤ c.unread.length
  · refine ⟨hsize, ?_⟩
    cases hobj : format.objection (Record.ofBytes c.unread) with
    | some objection =>
      rw [read_of_objection hsize hobj] at h
      cases h
    | none =>
      cases hparts : (Parts.read (format.tail (Record.ofBytes c.unread))).run
          (c.advance (Record.size format.Fixed)) with
      | error e d' =>
        rw [read_of_parts_error hsize hobj hparts] at h
        cases h
      | ok parts d' =>
        rw [read_of_parts_ok hsize hobj hparts] at h
        cases h
        exact ⟨rfl, parts, rfl, rfl⟩
  · rw [read_of_lt (by omega)] at h
    cases h

/-- What a read that fails has met: too few bytes for the record, a value in the record that is refused, or
whatever the parts behind the record were refused for. -/
theorem error_of_read {e : DecodeError} (h : (format.read header).run c = .error e d) :
    (c.unread.length < Record.size format.Fixed ∧ (Record.read : Scan format.Fixed).run c = .error e d) ∨
    (Record.size format.Fixed ≤ c.unread.length ∧ d = c.advance (Record.size format.Fixed) ∧
      ∃ objection, format.objection (Record.ofBytes c.unread) = some objection ∧
        e = { fault := objection.fault, offset := c.offset + objection.place }) ∨
    (Record.size format.Fixed ≤ c.unread.length ∧
      (Parts.read (format.tail (Record.ofBytes c.unread))).run (c.advance (Record.size format.Fixed)) =
        .error e d) := by
  by_cases hsize : Record.size format.Fixed ≤ c.unread.length
  · cases hobj : format.objection (Record.ofBytes c.unread) with
    | some objection =>
      rw [read_of_objection hsize hobj] at h
      cases h
      exact .inr (.inl ⟨hsize, rfl, objection, rfl, rfl⟩)
    | none =>
      cases hparts : (Parts.read (format.tail (Record.ofBytes c.unread))).run
          (c.advance (Record.size format.Fixed)) with
      | ok parts d' =>
        rw [read_of_parts_ok hsize hobj hparts] at h
        cases h
      | error e' d' =>
        rw [read_of_parts_error hsize hobj hparts] at h
        cases h
        exact .inr (.inr ⟨hsize, rfl⟩)
  · have hlt := Nat.lt_of_not_le hsize
    rw [read_of_lt hlt] at h
    cases h
    exact .inl ⟨hlt, Record.read_of_lt hlt⟩

/-! ## Regular formats -/

/-- A format whose objections are blamed on places inside its record, and whose parts are delimited.
Forget records are the exception, and then they are all there is behind the record. -/
structure Regular (format : Format) : Prop where
  /-- A value that is refused stands inside the record. -/
  objection_inside : ∀ {fixed objection}, format.objection fixed = some objection →
    objection.place.toNat ≤ Record.size format.Fixed ∧ objection.fault.OfKind .malformedArgument
  /-- The parts say where they end, or they are forget records alone. -/
  tail_shape : ∀ fixed, (∀ part ∈ format.tail fixed, part.isDelimited) ∨
    ∃ count, format.tail fixed = [.forgets count]

/-- The law of the cursor for arguments: every failure is blamed on a place in them. -/
theorem Regular.lawful_read (hreg : format.Regular) (header : Header) :
    Scan.Lawful Fault.InArguments (format.read header) where
  ok {c operation d} h := by
    obtain ⟨hsize, -, parts, hparts, -⟩ := ok_of_read h
    exact (Cursor.reaches_advance hsize).trans ((Parts.lawful_read _).ok hparts)
  error {c e d} h := by
    rcases error_of_read h with ⟨-, hread⟩ | ⟨hsize, rfl, objection, hobj, rfl⟩ | ⟨hsize, hparts⟩
    · obtain ⟨hd, hblame, hfault⟩ := Record.lawful_read.error hread
      exact ⟨hd, hblame, .inl hfault⟩
    · obtain ⟨hplace, hkind⟩ := hreg.objection_inside hobj
      refine ⟨Cursor.reaches_advance hsize, ⟨rfl, objection.place.toNat, by omega, ?_⟩, .inr (.inr hkind)⟩
      rw [UInt64.ofNat_toNat]
    · have hrecord : c.Reaches (c.advance (Record.size format.Fixed)) := Cursor.reaches_advance hsize
      obtain ⟨hd, hblame, part, -, hmeets⟩ := (Parts.lawful_read _).error hparts
      exact ⟨hrecord.trans hd, hblame.of_reaches hrecord, hmeets.inArguments⟩

/-- Behind a record that is not refused, bytes that follow the region are left to the parts. -/
theorem read_extend (hsize : Record.size format.Fixed ≤ c.unread.length)
    (hobj : format.objection (Record.ofBytes c.unread) = none) (more : Bytes) :
    (format.read header).run (c.extend more) =
      (do
        let parts ← Parts.read (format.tail (Record.ofBytes c.unread))
        return format.toOperation header (Record.ofBytes c.unread) parts : Scan Operation).run
        ((c.advance (Record.size format.Fixed)).extend more) := by
  have hmore : Record.size format.Fixed ≤ (c.extend more).unread.length := by
    rw [Cursor.extend_unread, List.length_append]
    omega
  have hfixed : (Record.ofBytes (c.extend more).unread : format.Fixed) = Record.ofBytes c.unread :=
    Record.ofBytes_append hsize more
  rw [read_of_le hmore, hfixed, hobj, Cursor.extend_advance hsize]

/-- Arguments without forget records are read alike whatever follows them. -/
theorem extends_read (hd : ∀ fixed, ∀ part ∈ format.tail fixed, part.isDelimited) (header : Header) :
    Scan.Extends (format.read header) := by
  intro c operation d h more
  obtain ⟨hsize, hobj, parts, hparts, rfl⟩ := ok_of_read h
  rw [read_extend hsize hobj]
  exact Scan.run_bind_of_ok (Parts.extends_read (hd _) hparts more)

end Format

end Argument

/-! ## The formats of the opcodes -/

namespace Argument

/-- A lock is refused for its type or its range, and both stand inside its record. -/
theorem lockObjection_inside {a : LockArgs} {objection : Objection} (h : lockObjection a = some objection) :
    objection.place.toNat ≤ Record.size LockArgs ∧ objection.fault.OfKind .malformedArgument := by
  unfold lockObjection at h
  split at h
  · cases h
    exact ⟨show (32 : UInt64).toNat ≤ 48 by decide, rfl, trivial⟩
  · split at h
    · cases h
      exact ⟨show (16 : UInt64).toNat ≤ 48 by decide, rfl, trivial⟩
    · cases h

theorem renameObjection_inside {a : Rename2Args} {objection : Objection}
    (h : rename2.objection a = some objection) :
    objection.place.toNat ≤ Record.size Rename2Args ∧ objection.fault.OfKind .malformedArgument := by
  have hcases : (if hasBit a.flags (~~~renameFlags) then
      some { place := 8, fault := .renameFlags a.flags } else none) = some objection := h
  split at hcases
  · cases hcases
    exact ⟨show (8 : UInt64).toNat ≤ 16 by decide, rfl, trivial⟩
  · cases hcases

/-- A time that is refused is blamed on the start of its record. -/
theorem setattrObjection_inside {a : SetattrArgs} {objection : Objection}
    (h : setattr.objection a = some objection) :
    objection.place.toNat ≤ Record.size SetattrArgs ∧ objection.fault.OfKind .malformedArgument := by
  obtain ⟨⟨field, time⟩, -, rfl⟩ := Option.map_eq_some_iff.mp h
  exact ⟨show (0 : UInt64).toNat ≤ 88 by decide, rfl, trivial⟩

end Argument

/-- Only forget records hang on what follows them, and only one opcode has them. -/
theorem Opcode.isDelimited_tail {op : Opcode} {format : Argument.Format} (h : op.format? = some format)
    (hop : op ≠ .batchForget) (fixed : format.Fixed) : ∀ part ∈ format.tail fixed, part.isDelimited := by
  apply List.all_eq_true.mp
  cases op with
  | batchForget => exact absurd rfl hop
  | _ => cases h <;> rfl

theorem Opcode.objection_inside {op : Opcode} {format : Argument.Format} (h : op.format? = some format)
    {fixed : format.Fixed} {objection : Argument.Objection}
    (hobj : format.objection fixed = some objection) :
    objection.place.toNat ≤ Record.size format.Fixed ∧ objection.fault.OfKind .malformedArgument := by
  cases op with
  | setattr => cases h; exact Argument.setattrObjection_inside hobj
  | rename2 => cases h; exact Argument.renameObjection_inside hobj
  | getlk | setlk | setlkw => cases h; exact Argument.lockObjection_inside hobj
  | _ => cases h <;> cases hobj

/-- Every opcode's format is regular. -/
theorem Opcode.regular_format {op : Opcode} {format : Argument.Format} (h : op.format? = some format) :
    format.Regular where
  objection_inside hobj := Opcode.objection_inside h hobj
  tail_shape fixed := by
    by_cases hop : op = .batchForget
    · subst hop
      cases h
      exact .inr ⟨_, rfl⟩
    · exact .inl (Opcode.isDelimited_tail h hop fixed)

/-! ## Whole arguments -/

namespace Request

open Argument

variable {format : Format} {header : Header} {arguments : Bytes}

/-- The cursor at the start of the arguments. -/
def argumentCursor (arguments : Bytes) : Cursor where
  offset := UInt64.ofNat Header.size
  unread := arguments

theorem decodeArguments_of_read_error {e : DecodeError} {d : Cursor}
    (h : (format.read header).run (argumentCursor arguments) = .error e d) :
    decodeArguments format header arguments = .error e :=
  Scan.eval_of_error (Scan.run_bind_of_error h)

/-- Arguments that are read to the last byte are decoded. -/
theorem decodeArguments_of_read_end {operation : Operation} {d : Cursor}
    (h : (format.read header).run (argumentCursor arguments) = .ok operation d) (hend : d.unread = []) :
    decodeArguments format header arguments = .ok operation := by
  have hfinish : Scan.finish.run d = .ok () d := by
    simp only [Scan.finish, EStateM.run, hend, List.isEmpty_nil, if_true]
  exact Scan.eval_of_ok ((Scan.run_bind_of_ok h).trans (Scan.run_bind_of_ok hfinish))

/-- Behind arguments that were read, bytes that are left over are refused. -/
theorem decodeArguments_of_read_left {operation : Operation} {d : Cursor}
    (h : (format.read header).run (argumentCursor arguments) = .ok operation d) (hleft : d.unread ≠ []) :
    decodeArguments format header arguments =
      .error { fault := .unread d.unread.length, offset := d.offset } := by
  have hfinish : Scan.finish.run d =
      .error { fault := .unread d.unread.length, offset := d.offset } d := by
    simp only [Scan.finish, EStateM.run, List.isEmpty_iff, hleft, if_false]
  exact Scan.eval_of_error ((Scan.run_bind_of_ok h).trans (Scan.run_bind_of_error hfinish))

/-- Arguments are decoded when they are read to the last byte, and only then. -/
theorem decodeArguments_eq_ok {operation : Operation} :
    decodeArguments format header arguments = .ok operation ↔
      ∃ d, (format.read header).run (argumentCursor arguments) = .ok operation d ∧ d.unread = [] := by
  constructor
  · intro h
    cases hread : (format.read header).run (argumentCursor arguments) with
    | error e d => cases h.symm.trans (decodeArguments_of_read_error hread)
    | ok operation' d =>
      by_cases hend : d.unread = []
      · cases h.symm.trans (decodeArguments_of_read_end hread hend)
        exact ⟨d, rfl, hend⟩
      · cases h.symm.trans (decodeArguments_of_read_left hread hend)
  · rintro ⟨d, hread, hend⟩
    exact decodeArguments_of_read_end hread hend

/-- Arguments that spell an operation: a record that is not refused, and behind it the bytes of legible
parts and nothing else. -/
def Spell (format : Format) (header : Header) (arguments : Bytes) (operation : Operation) : Prop :=
  ∃ (fixed : format.Fixed) (parts : Parts (format.tail fixed)),
    Record.size format.Fixed ≤ arguments.length ∧ fixed = Record.ofBytes arguments ∧
    format.objection fixed = none ∧ Parts.Legible _ parts ∧
    arguments.drop (Record.size format.Fixed) = Parts.encode _ parts ∧
    operation = format.toOperation header fixed parts

/-- The arguments that are decoded are just those that spell an operation. -/
theorem decodeArguments_eq_ok_iff (hreg : format.Regular) {operation : Operation} :
    decodeArguments format header arguments = .ok operation ↔
      Spell format header arguments operation := by
  rw [decodeArguments_eq_ok]
  constructor
  · rintro ⟨d, hread, hend⟩
    obtain ⟨hsize, hobj, parts, hparts, hoperation⟩ := Format.ok_of_read hread
    obtain ⟨hlegible, hbytes, -⟩ := Parts.ok_of_read hparts
    rw [hend, List.append_nil] at hbytes
    exact ⟨_, parts, hsize, rfl, hobj, hlegible, hbytes, hoperation⟩
  · rintro ⟨_, parts, hsize, rfl, hobj, hlegible, hbytes, hoperation⟩
    have hdelimited : ∀ part ∈ (format.tail (Record.ofBytes arguments)).dropLast, part.isDelimited := by
      intro part hmem
      rcases hreg.tail_shape (Record.ofBytes arguments) with hall | ⟨count, htail⟩
      · exact hall part (List.dropLast_subset _ hmem)
      · rw [htail] at hmem
        cases hmem
    have hparts := Parts.read_encode hdelimited hlegible
      (c := (argumentCursor arguments).advance (Record.size format.Fixed)) hbytes
    refine ⟨_, (Format.read_of_parts_ok hsize hobj hparts).trans (by rw [hoperation]; rfl), ?_⟩
    rw [Cursor.advance_unread, List.drop_length]

/-- Arguments are refused for what reading them met, or for what was left over behind them. -/
theorem error_of_decodeArguments {e : DecodeError} (h : decodeArguments format header arguments = .error e) :
    (∃ d, (format.read header).run (argumentCursor arguments) = .error e d) ∨
      ∃ operation d, (format.read header).run (argumentCursor arguments) = .ok operation d ∧
        d.unread ≠ [] ∧ e = { fault := .unread d.unread.length, offset := d.offset } := by
  cases hread : (format.read header).run (argumentCursor arguments) with
  | error e' d =>
    cases h.symm.trans (decodeArguments_of_read_error hread)
    exact .inl ⟨d, rfl⟩
  | ok operation d =>
    by_cases hend : d.unread = []
    · cases h.symm.trans (decodeArguments_of_read_end hread hend)
    · cases h.symm.trans (decodeArguments_of_read_left hread hend)
      exact .inr ⟨operation, d, rfl, hend, rfl⟩

/-- Arguments that are refused are blamed on a place in them; leftover bytes on a place before the end. -/
theorem decodeArguments_eq_error (hreg : format.Regular) {e : DecodeError}
    (h : decodeArguments format header arguments = .error e) :
    e.BlamedIn (argumentCursor arguments) ∧ e.fault.InArguments ∨
      e.opcode = 0 ∧ e.fault.OfKind .trailingData ∧
        ∃ n < arguments.length, e.offset = (argumentCursor arguments).offset + UInt64.ofNat n := by
  rcases error_of_decodeArguments h with ⟨d, hread⟩ | ⟨operation, d, hread, hleft, rfl⟩
  · obtain ⟨-, hblame, hfault⟩ := (hreg.lawful_read header).error hread
    exact .inl ⟨hblame, hfault⟩
  · obtain ⟨n, hn, rfl⟩ := (hreg.lawful_read header).ok hread
    refine .inr ⟨rfl, ⟨rfl, trivial⟩, n, ?_, rfl⟩
    by_contra hge
    exact hleft (List.drop_eq_nil_of_le (Nat.le_of_not_lt hge))

end Request

end FuseAbi
