import FuseAbi.Proofs.Classification
import FuseAbi.Proofs.Truncation

/-!
# What an opcode can be refused for

Where the header is right, a refusal is about the arguments, and which kinds of refusal there can be depends on
the opcode. Arguments are refused in one of four places (`Request.kind_of_decodeArguments`): in the record for
want of bytes, in the record for a value, in a part behind it, or behind the parts. Each part meets faults of
one kind (`Part.faultKind`), so what remains to be said of an opcode is which parts it has, whether it has a
record, and which values of the record it refuses (`Opcode.Refuses`).

A read that lacks bytes tells the truth about it, whatever the opcode: the bytes it counts are those from the
blamed place to the end, and it needs more (`Scan.Candid`).
-/

namespace FuseAbi

/-! ## Want of bytes -/

/-- Blamed on a cursor for want of bytes: as many are counted as are ahead of it, and more are needed. -/
def DecodeError.ShortAt (e : DecodeError) (d : Cursor) : Prop :=
  e.offset = d.offset ∧ ∃ need, d.unread.length < need ∧ e.fault = .short need d.unread.length

namespace Scan

variable {α β : Type}

/-- A read that fails for want of bytes blames the place where it stopped. -/
def Candid (s : Scan α) : Prop :=
  ∀ ⦃c e d⦄, s.run c = .error e d → e.kind = .truncated → e.ShortAt d

theorem candid_pure (a : α) : Candid (pure a : Scan α) := by
  intro c e d h
  cases h

theorem Candid.bind {s : Scan α} {f : α → Scan β} (hs : Candid s) (hf : ∀ a, Candid (f a)) :
    Candid (s >>= f) := by
  intro c e d h hkind
  cases hrun : s.run c with
  | ok a c' =>
    rw [run_bind_of_ok hrun] at h
    exact hf a h hkind
  | error e' c' =>
    rw [run_bind_of_error hrun] at h
    cases h
    exact hs hrun hkind

/-- A read whose faults are of another kind never fails for want of bytes. -/
theorem Lawful.candid {s : Scan α} {kind : ErrorKind} (hs : Lawful (Fault.OfKind kind) s)
    (hne : kind ≠ .truncated) : Candid s := by
  intro c e d h hkind
  obtain ⟨-, -, hfault, -⟩ := hs.error h
  exact absurd (hfault.symm.trans hkind) hne

theorem candid_take (n : Nat) : Candid (take n) := by
  intro c e d h _
  by_cases hle : n ≤ c.unread.length
  · cases h.symm.trans (take_of_le hle)
  · have hlt := Nat.lt_of_not_le hle
    cases h.symm.trans (take_of_lt hlt)
    exact ⟨rfl, n, hlt, rfl⟩

end Scan

/-- A record lacks bytes for the field that it stops at. -/
theorem Record.candid_read {α : Type} [Record α] : Scan.Candid (read : Scan α) := by
  intro c e d h _
  by_cases hle : size α ≤ c.unread.length
  · cases h.symm.trans (read_of_le hle)
  · have hlt := Nat.lt_of_not_le hle
    cases h.symm.trans (read_of_lt hlt)
    obtain ⟨hstop, hneed⟩ := layoutStop_spec hlt
    rw [DecodeError.ShortAt, Cursor.advance_unread, List.length_drop]
    exact ⟨rfl, _, by omega, rfl⟩

namespace Argument

theorem Part.candid_read (part : Part) : Scan.Candid part.read := by
  cases part with
  | name limit => exact (Part.lawful_read (.name limit)).candid (by decide)
  | data size => exact Scan.candid_take size.toNat
  | forgets count => exact (Part.lawful_read (.forgets count)).candid (by decide)

theorem Parts.candid_read (parts : List Part) : Scan.Candid (read parts) := by
  induction parts with
  | nil => exact Scan.candid_pure ()
  | cons part rest ih => exact part.candid_read.bind fun value => ih.bind fun values => Scan.candid_pure _

/-- Arguments lack bytes only where their record or their parts do. -/
theorem Format.Regular.candid_read {format : Format} (hreg : format.Regular) (header : Header) :
    Scan.Candid (format.read header) := by
  intro c e d h hkind
  rcases error_of_read h with ⟨-, hrecord⟩ | ⟨-, -, objection, hobj, rfl⟩ | ⟨-, hparts⟩
  · exact Record.candid_read hrecord hkind
  · obtain ⟨-, hfault, -⟩ := hreg.objection_inside hobj
    cases hfault.symm.trans hkind
  · exact Parts.candid_read _ hparts hkind

/-! ## Faults of parts -/

/-- The kind of the faults that reading a part can meet. -/
def Part.faultKind : Part → ErrorKind
  | name _ => .invalidString
  | data _ => .truncated
  | forgets _ => .malformedArgument

theorem Part.Meets.kind_eq {part : Part} {fault : Fault} (h : part.Meets fault) :
    fault.kind = part.faultKind := by
  cases part <;> exact h.1

/-- A part that says where it ends is not refused as inconsistent. -/
theorem Part.faultKind_of_isDelimited {part : Part} (h : part.isDelimited) :
    part.faultKind ≠ .malformedArgument := by
  cases part with
  | name limit => exact nofun
  | data size => exact nofun
  | forgets count => cases h

/-- Forget records alone are refused at their start, and read up to the end of their region. -/
theorem Parts.error_of_read_forgets {count : UInt32} {c d : Cursor} {e : DecodeError}
    (h : (read [.forgets count]).run c = .error e d) :
    c.unread.length ≠ count.toNat * Record.size Forget ∧
      e = { fault := Part.forgetsFault count c.unread.length, offset := c.offset } := by
  by_cases hfill : c.unread.length = count.toNat * Record.size Forget
  · have hread : (read [.forgets count]).run c = .ok _ _ := read_cons_of_ok (Part.readForgets_of_eq hfill) rfl
    cases h.symm.trans hread
  · cases h.symm.trans (Scan.run_bind_of_error (Part.readForgets_of_ne hfill))
    exact ⟨hfill, rfl⟩

theorem Parts.unread_of_read_forgets {count : UInt32} {c d : Cursor} {values : Parts [.forgets count]}
    (h : (read [.forgets count]).run c = .ok values d) : d.unread = [] := by
  obtain ⟨d', hpart, hrest⟩ := ok_of_read_cons h
  have hfill := Part.readForgets_of_eq (Part.length_of_readForgets hpart)
  obtain ⟨-, rfl⟩ := EStateM.Result.ok.inj (hpart.symm.trans hfill)
  cases hrest
  exact List.drop_length

end Argument

/-! ## Opcodes -/

namespace Opcode

open Argument

/-- The opcodes that carry a name. -/
def named : List Opcode :=
  [lookup, symlink, mknod, mkdir, unlink, rmdir, rename, rename2, link, setxattr, getxattr, removexattr, create]

/-- The opcodes that carry names alone, or nothing. -/
def unsized : List Opcode :=
  [lookup, unlink, rmdir, symlink, removexattr, readlink, statfs]

variable {op : Opcode} {format : Format}

/-- Only an opcode that carries a name has a part that is refused for one. -/
theorem faultKind_ne_invalidString (h : op.format? = some format) (hop : op ∉ named) (fixed : format.Fixed) :
    ∀ part ∈ format.tail fixed, part.faultKind ≠ .invalidString := by
  have hall : (format.tail fixed).all (fun part => decide (part.faultKind ≠ .invalidString)) = true := by
    cases op with
    | lookup | symlink | mknod | mkdir | unlink | rmdir | rename | rename2 | link | setxattr | getxattr
    | removexattr | create => exact absurd (by decide) hop
    | _ => cases h <;> rfl
  intro part hmem
  exact of_decide_eq_true (List.all_eq_true.mp hall part hmem)

/-- An opcode that carries names alone has nothing whose size is known before it is read. -/
theorem size_eq_zero_of_mem_unsized (h : op.format? = some format) (hop : op ∈ unsized) :
    Record.size format.Fixed = 0 ∧ ∀ fixed, ∀ part ∈ format.tail fixed, part.faultKind ≠ .truncated := by
  have hall : Record.size format.Fixed = 0 ∧
      ∀ fixed, (format.tail fixed).all (fun part => decide (part.faultKind ≠ .truncated)) = true := by
    cases op with
    | lookup | unlink | rmdir | symlink | removexattr | readlink | statfs =>
      cases h
      exact ⟨rfl, fun _ => rfl⟩
    | _ => exact absurd hop (by decide)
  refine ⟨hall.1, fun fixed part hmem => ?_⟩
  exact of_decide_eq_true (List.all_eq_true.mp (hall.2 fixed) part hmem)

end Opcode

/-- The place of a time's nanoseconds in a request to change attributes. -/
def TimeField.place : TimeField → Nat
  | atime => 96
  | mtime => 100
  | ctime => 104

/-- Which values each opcode refuses, and the place that is blamed for them. The values in a fault are those
that stand in the request, and at the blamed place; but times are blamed on the start of their record, and
forget records that do not fill their region on the start of the region. -/
inductive Opcode.Refuses (buffer : Bytes) : Opcode → UInt64 → Fault → Prop
  | nanoseconds (field : TimeField) (h : Argument.nanosecondsPerSecond ≤ wordAt buffer field.place) :
    Refuses buffer .setattr 40 (.nanoseconds field (wordAt buffer field.place))
  | renameFlags (h : hasBit (wordAt buffer 48) (~~~Argument.renameFlags)) :
    Refuses buffer .rename2 48 (.renameFlags (wordAt buffer 48))
  | lockRange {op : Opcode} (hop : op ∈ [.getlk, .setlk, .setlkw]) (h : longAt buffer 64 < longAt buffer 56) :
    Refuses buffer op 56 (.lockRange (longAt buffer 56) (longAt buffer 64))
  | lockType {op : Opcode} (hop : op ∈ [.getlk, .setlk, .setlkw]) (h : wordAt buffer 72 ∉ FileLock.types) :
    Refuses buffer op 72 (.lockType (wordAt buffer 72))
  | forgets (h : buffer.length - 48 ≠ (wordAt buffer 40).toNat * Record.size Forget) :
    Refuses buffer .batchForget 48 (Argument.Part.forgetsFault (wordAt buffer 40) (buffer.length - 48))

/-! ## Values in a record -/

namespace SetattrArgs

/-- The nanoseconds that stand in the record for a time. -/
def nanoseconds (a : SetattrArgs) : TimeField → UInt32
  | .atime => a.atimensec
  | .mtime => a.mtimensec
  | .ctime => a.ctimensec

theorem time?_timeChange {a : SetattrArgs} {bit nowBit : AttrBit} {stated time : Timespec}
    (h : (a.timeChange bit nowBit stated).time? = some time) : time = stated := by
  unfold timeChange at h
  split at h
  · cases h
  · split at h
    · exact (Option.some.inj h).symm
    · cases h

/-- A time that is stated is the one that stands in the record. -/
theorem nanoseconds_of_mem {a : SetattrArgs} {field : TimeField} {time : Timespec}
    (h : (field, time) ∈ a.statedTimes) : time.nanoseconds = a.nanoseconds field := by
  simp only [statedTimes, List.mem_append, Option.mem_toList, Option.map_eq_some_iff, Prod.mk.injEq] at h
  rcases h with (⟨_, hatime, rfl, rfl⟩ | ⟨_, hmtime, rfl, rfl⟩) | ⟨_, hctime, rfl, rfl⟩
  · rw [time?_timeChange hatime]
    rfl
  · rw [time?_timeChange hmtime]
    rfl
  · unfold ctime? field? at hctime
    split at hctime
    · cases hctime
      rfl
    · cases hctime

theorem nanoseconds_ofBytes (buffer : Bytes) (field : TimeField) :
    nanoseconds (Record.ofBytes (buffer.drop Header.size)) field = wordAt buffer field.place := by
  simp only [Record.ofBytes, Record.layout, Values.ofBytes_drop_u32, Values.ofBytes_drop_u64,
    Values.ofBytes_drop_pad]
  cases field <;> rfl

end SetattrArgs

theorem LockArgs.lock_ofBytes (buffer : Bytes) :
    (Record.ofBytes (buffer.drop Header.size) : LockArgs).lock =
      { start := longAt buffer 56, last := longAt buffer 64, type := wordAt buffer 72,
        pid := wordAt buffer 76 } := by
  simp only [Record.ofBytes, Record.layout, Values.ofBytes_drop_u32, Values.ofBytes_drop_u64]
  rfl

theorem BatchForgetArgs.count_ofBytes (buffer : Bytes) :
    (Record.ofBytes (buffer.drop Header.size) : BatchForgetArgs).count = wordAt buffer 40 := by
  simp only [Record.ofBytes, Record.layout, Values.ofBytes_drop_u32]
  rfl

namespace Opcode

open Argument

variable {op : Opcode} {format : Format} {buffer : Bytes} {objection : Objection}

theorem refuses_of_setattr
    (h : Argument.setattr.objection (Record.ofBytes (buffer.drop Header.size)) = some objection) :
    setattr.Refuses buffer (UInt64.ofNat Header.size + objection.place) objection.fault := by
  obtain ⟨⟨field, time⟩, hfind, rfl⟩ := Option.map_eq_some_iff.mp h
  have hstated := SetattrArgs.nanoseconds_of_mem (List.mem_of_find?_eq_some hfind)
  have hvalue : time.nanoseconds = wordAt buffer field.place :=
    hstated.trans (SetattrArgs.nanoseconds_ofBytes buffer field)
  have hfound := List.find?_some hfind
  have hrange : nanosecondsPerSecond ≤ time.nanoseconds := of_decide_eq_true hfound
  dsimp only
  rw [hvalue] at hrange ⊢
  exact .nanoseconds field hrange

theorem refuses_of_rename2
    (h : Argument.rename2.objection (Record.ofBytes (buffer.drop Header.size)) = some objection) :
    rename2.Refuses buffer (UInt64.ofNat Header.size + objection.place) objection.fault := by
  have hcases : (if hasBit (wordAt buffer 48) (~~~renameFlags) then
      some { place := 8, fault := .renameFlags (wordAt buffer 48) } else none) = some objection := by
    rw [← Rename2Args.flags_ofBytes]
    exact h
  split at hcases
  next hunknown =>
    cases hcases
    exact .renameFlags hunknown
  next => cases hcases

theorem refuses_of_lock (hop : op ∈ [.getlk, .setlk, .setlkw])
    (h : lockObjection (Record.ofBytes (buffer.drop Header.size)) = some objection) :
    op.Refuses buffer (UInt64.ofNat Header.size + objection.place) objection.fault := by
  simp only [lockObjection, LockArgs.lock_ofBytes] at h
  split at h
  next htype =>
    cases h
    exact .lockType hop htype
  next =>
    split at h
    next hrange =>
      cases h
      exact .lockRange hop hrange
    next => cases h

/-- Whatever value of a record is refused, the opcode is one that refuses it. -/
theorem refuses_of_objection (h : op.format? = some format)
    (hobj : format.objection (Record.ofBytes (buffer.drop Header.size)) = some objection) :
    op.Refuses buffer (UInt64.ofNat Header.size + objection.place) objection.fault := by
  cases op with
  | setattr => cases h; exact refuses_of_setattr hobj
  | rename2 => cases h; exact refuses_of_rename2 hobj
  | getlk | setlk | setlkw => cases h; exact refuses_of_lock (by decide) hobj
  | _ => cases h <;> cases hobj

end Opcode

/-! ## Whole requests -/

namespace Request

open Argument

section Arguments

variable {op : Opcode} {format : Format} {header : Header} {arguments : Bytes} {e : DecodeError}

/-- Arguments are refused in one of four places, and the place decides the kind. -/
theorem kind_of_decodeArguments (hreg : format.Regular)
    (h : decodeArguments format header arguments = .error e) :
    (e.kind = .truncated ∧ 0 < Record.size format.Fixed) ∨
    (e.kind = .malformedArgument ∧ ∃ objection, format.objection (Record.ofBytes arguments) = some objection ∧
      e = { fault := objection.fault, offset := UInt64.ofNat Header.size + objection.place }) ∨
    (∃ d, ∃ part ∈ format.tail (Record.ofBytes arguments), e.kind = part.faultKind ∧
      (Parts.read (format.tail (Record.ofBytes arguments))).run
        ((argumentCursor arguments).advance (Record.size format.Fixed)) = .error e d) ∨
    (e.kind = .trailingData ∧ ∃ values d, d.unread ≠ [] ∧
      (Parts.read (format.tail (Record.ofBytes arguments))).run
        ((argumentCursor arguments).advance (Record.size format.Fixed)) = .ok values d) := by
  rcases error_of_decodeArguments h with ⟨d, hread⟩ | ⟨operation, d, hread, hleft, rfl⟩
  · rcases Format.error_of_read hread with ⟨hlt, hrecord⟩ | ⟨-, -, objection, hobj, rfl⟩ | ⟨-, hparts⟩
    · obtain ⟨-, -, hkind, -⟩ := Record.lawful_read.error hrecord
      exact .inl ⟨hkind, Nat.zero_lt_of_lt hlt⟩
    · obtain ⟨-, hkind, -⟩ := hreg.objection_inside hobj
      exact .inr (.inl ⟨hkind, objection, hobj, rfl⟩)
    · obtain ⟨-, -, part, hmem, hmeets⟩ := (Parts.lawful_read _).error hparts
      exact .inr (.inr (.inl ⟨d, part, hmem, hmeets.kind_eq, hparts⟩))
  · obtain ⟨-, -, values, hparts, -⟩ := Format.ok_of_read hread
    exact .inr (.inr (.inr ⟨rfl, values, d, hleft, hparts⟩))

/-- A name is refused only under an opcode that carries one. -/
theorem mem_named_of_invalidString (hformat : op.format? = some format)
    (h : decodeArguments format header arguments = .error e) (hkind : e.kind = .invalidString) :
    op ∈ Opcode.named := by
  by_contra hop
  rcases kind_of_decodeArguments (Opcode.regular_format hformat) h with
    ⟨hk, -⟩ | ⟨hk, -⟩ | ⟨-, part, hmem, hk, -⟩ | ⟨hk, -⟩
  · cases hk.symm.trans hkind
  · cases hk.symm.trans hkind
  · exact Opcode.faultKind_ne_invalidString hformat hop _ part hmem (hk.symm.trans hkind)
  · cases hk.symm.trans hkind

/-- Bytes lack only under an opcode with a record or with data. -/
theorem notMem_unsized_of_truncated (hformat : op.format? = some format)
    (h : decodeArguments format header arguments = .error e) (hkind : e.kind = .truncated) :
    op ∉ Opcode.unsized := by
  intro hop
  obtain ⟨hsize, htail⟩ := Opcode.size_eq_zero_of_mem_unsized hformat hop
  rcases kind_of_decodeArguments (Opcode.regular_format hformat) h with
    ⟨-, hpos⟩ | ⟨hk, -⟩ | ⟨-, part, hmem, hk, -⟩ | ⟨hk, -⟩
  · exact hpos.ne' hsize
  · cases hk.symm.trans hkind
  · exact htail _ part hmem (hk.symm.trans hkind)
  · cases hk.symm.trans hkind

/-- Nothing is left behind forget records. -/
theorem ne_batchForget_of_trailingData (hformat : op.format? = some format)
    (h : decodeArguments format header arguments = .error e) (hkind : e.kind = .trailingData) :
    op ≠ .batchForget := by
  rintro rfl
  have hreg := Opcode.regular_format hformat
  cases hformat
  rcases kind_of_decodeArguments hreg h with
    ⟨hk, -⟩ | ⟨hk, -⟩ | ⟨-, part, hmem, hk, -⟩ | ⟨-, values, d, hleft, hparts⟩
  · cases hk.symm.trans hkind
  · cases hk.symm.trans hkind
  · cases List.mem_singleton.mp hmem
    cases hk.symm.trans hkind
  · exact hleft (Parts.unread_of_read_forgets hparts)

/-- Where bytes lack, those that are counted are those from the blamed place on. -/
theorem shortAt_of_truncated (hreg : format.Regular) (h : decodeArguments format header arguments = .error e)
    (hkind : e.kind = .truncated) : ∃ d, (argumentCursor arguments).Reaches d ∧ e.ShortAt d := by
  rcases error_of_decodeArguments h with ⟨d, hread⟩ | ⟨operation, d, -, -, rfl⟩
  · obtain ⟨hreaches, -⟩ := (hreg.lawful_read header).error hread
    exact ⟨d, hreaches, hreg.candid_read header hread hkind⟩
  · cases hkind

end Arguments

variable {minor : Minor} {buffer : Bytes} {e : DecodeError}

/-- Forget records are blamed on their start, and on all bytes from there on. -/
theorem refuses_of_forgets {d : Cursor}
    (h : (Parts.read [.forgets (Record.ofBytes (buffer.drop Header.size) : BatchForgetArgs).count]).run
      ((argumentCursor (buffer.drop Header.size)).advance (Record.size BatchForgetArgs)) = .error e d) :
    Opcode.batchForget.Refuses buffer e.offset e.fault := by
  have hleft : ((argumentCursor (buffer.drop Header.size)).advance
      (Record.size BatchForgetArgs)).unread.length = buffer.length - 48 := by
    rw [Cursor.advance_unread, argumentCursor, List.drop_drop, List.length_drop]
    rfl
  obtain ⟨hne, rfl⟩ := Parts.error_of_read_forgets h
  rw [BatchForgetArgs.count_ofBytes, hleft] at hne ⊢
  exact .forgets hne

/-- A value is refused only under an opcode that refuses it, and where it stands. -/
theorem refuses_of_malformedArgument {op : Opcode} {format : Format} {header : Header}
    (hformat : op.format? = some format)
    (h : decodeArguments format header (buffer.drop Header.size) = .error e)
    (hkind : e.kind = .malformedArgument) : op.Refuses buffer e.offset e.fault := by
  rcases kind_of_decodeArguments (Opcode.regular_format hformat) h with
    ⟨hk, -⟩ | ⟨-, objection, hobj, rfl⟩ | ⟨d, part, hmem, hk, hparts⟩ | ⟨hk, -⟩
  · cases hk.symm.trans hkind
  · exact Opcode.refuses_of_objection hformat hobj
  · by_cases hop : op = .batchForget
    · subst hop
      cases hformat
      exact refuses_of_forgets hparts
    · have hdelimited := Opcode.isDelimited_tail hformat hop _ part hmem
      exact absurd (hk.symm.trans hkind) (Part.faultKind_of_isDelimited hdelimited)
  · cases hk.symm.trans hkind

/-- Where bytes lack, the bytes from the blamed place to the end of the buffer are what is reported as left. -/
theorem need_of_truncated (hsize : buffer.length < 2 ^ 64) (h : Header.size ≤ buffer.length) {format : Format}
    (hreg : format.Regular) {header : Header}
    (he : decodeArguments format header (buffer.drop Header.size) = .error e) (hkind : e.kind = .truncated) :
    e.offset.toNat ≤ buffer.length ∧ ∃ need, buffer.length - e.offset.toNat < need ∧
      e.fault = .short need (buffer.length - e.offset.toNat) := by
  obtain ⟨d, ⟨n, hn, rfl⟩, hoffset, need, hneed, hfault⟩ := shortAt_of_truncated hreg he hkind
  have hdrop := List.length_drop (l := buffer) (i := Header.size)
  have hplace := toNat_argument_offset hsize h hn
  rw [← Cursor.advance_offset, ← hoffset] at hplace
  have hleft : ((argumentCursor (buffer.drop Header.size)).advance n).unread.length =
      buffer.length - e.offset.toNat := by
    rw [Cursor.advance_unread, argumentCursor, List.length_drop, hdrop, hplace, Nat.sub_sub]
  rw [hleft] at hneed hfault
  replace hn : n ≤ (buffer.drop Header.size).length := hn
  exact ⟨by omega, need, hneed, hfault⟩

/-- Which kinds of refusal an opcode can meet, where there is a whole header and its length is right. Values are
refused under a few opcodes, each at a place of its own; names under those that carry one; bytes do not lack
where there are names alone, or nothing; forget records leave nothing over. And where bytes lack, the message
states how many are left from the blamed place on, and a need that is greater. -/
theorem faults_of_opcode {minor : Minor} {buffer : Bytes} (h : 40 ≤ buffer.length)
    (hlen : (wordAt buffer 0).toNat = buffer.length) (hdecodes : minor.Decodes (wordAt buffer 4))
    {e : DecodeError} (he : decode minor buffer = .error e) :
    ∃ op, Opcode.ofCode? (wordAt buffer 4) = some op ∧
      (e.kind = .malformedArgument → op.Refuses buffer e.offset e.fault) ∧
      (e.kind = .invalidString → op ∈
        [.lookup, .symlink, .mknod, .mkdir, .unlink, .rmdir, .rename, .rename2, .link, .setxattr, .getxattr,
          .removexattr, .create]) ∧
      (e.kind = .truncated →
        op ∉ [.lookup, .unlink, .rmdir, .symlink, .removexattr, .readlink, .statfs]) ∧
      (e.kind = .trailingData → op ≠ .batchForget) ∧
      (e.kind = .truncated → e.offset.toNat ≤ buffer.length ∧
        ∃ need, buffer.length - e.offset.toNat < need ∧
          e.reason = ascii "need " ++ decimal need ++ ascii " bytes, " ++
            decimal (buffer.length - e.offset.toNat) ++ ascii " left") := by
  have hsize : buffer.length < 2 ^ 64 := by
    have hword := (wordAt buffer 0).toNat_lt
    omega
  obtain ⟨op, format, e', hop, hformat, hargs, rfl⟩ := error_of_decode h hlen hdecodes he
  have hmalformed := refuses_of_malformedArgument hformat hargs
  have hstring := mem_named_of_invalidString hformat hargs
  have hshort := notMem_unsized_of_truncated hformat hargs
  have hleft := ne_batchForget_of_trailingData hformat hargs
  refine ⟨op, hop, hmalformed, hstring, hshort, hleft, fun hkind => ?_⟩
  obtain ⟨hplace, need, hneed, hfault⟩ :=
    need_of_truncated hsize h (Opcode.regular_format hformat) hargs hkind
  exact ⟨hplace, need, hneed, congrArg Fault.reason hfault⟩

/-- A request to take a lock on a range that ends before it starts. -/
def lockBackwards : Bytes :=
  littleEndian 4 88 ++ littleEndian 4 33 ++ List.replicate 32 0 ++
    (littleEndian 8 9 ++ littleEndian 8 3 ++ littleEndian 8 20 ++ littleEndian 8 10 ++ littleEndian 4 1 ++
      List.replicate 12 0)

/-- A request to write five bytes that holds three. -/
def writeOfTooFew : Bytes :=
  littleEndian 4 83 ++ littleEndian 4 16 ++ List.replicate 32 0 ++
    (littleEndian 8 9 ++ littleEndian 8 0 ++ littleEndian 4 5 ++ List.replicate 20 0 ++ [1, 2, 3])

/-- The range is refused at its own place, and the data at the place where it starts. -/
theorem faults_of_opcode_lockAndWrite :
    (∃ e, decode .newest lockBackwards = .error e ∧
      Opcode.setlkw.Refuses lockBackwards e.offset e.fault ∧ e.offset = 56 ∧ e.fault = .lockRange 20 10) ∧
    ∃ e, decode .newest writeOfTooFew = .error e ∧ e.offset.toNat = 80 ∧
      ∃ need, 3 < need ∧
        e.reason = ascii "need " ++ decimal need ++ ascii " bytes, " ++ decimal 3 ++ ascii " left" := by
  obtain ⟨e, he, hkind, hoffset, hfault⟩ : ∃ e, decode .newest lockBackwards = .error e ∧
      e.kind = .malformedArgument ∧ e.offset = 56 ∧ e.fault = .lockRange 20 10 := ⟨_, rfl, rfl, rfl, rfl⟩
  obtain ⟨e', he', hkind', hoffset'⟩ : ∃ e, decode .newest writeOfTooFew = .error e ∧
      e.kind = .truncated ∧ e.offset.toNat = 80 := ⟨_, rfl, rfl, rfl⟩
  obtain ⟨op, hop, hrefuses, -⟩ := faults_of_opcode (by decide) (by decide)
    ⟨.setlkw, rfl, rfl, by decide⟩ he
  obtain ⟨-, -, -, -, -, -, hneed⟩ := faults_of_opcode (by decide) (by decide)
    ⟨.write, rfl, rfl, by decide⟩ he'
  obtain rfl : Opcode.setlkw = op := Option.some.inj hop
  obtain ⟨-, need, hgreater, hreason⟩ := hneed hkind'
  rw [hoffset'] at hgreater hreason
  exact ⟨⟨e, he, hrefuses hkind, hoffset, hfault⟩, e', he', hoffset', need, hgreater, hreason⟩

end Request

end FuseAbi
