import FuseAbi.Argument.Table
import FuseAbi.Proofs.Record

/-!
# The structs of the protocol

The protocol states the number of bytes of each of its structs (`Kernel.Struct.size`), and a reader goes over the
fields of the struct one by one. Nothing ties the number to the fields but that they agree, which is said here for
all structs (`Kernel.Struct.size_value`), and the arguments of every opcode start with one of them or with none
(`Kernel.Struct.record_of_format`). What a read does follows from that and from the laws of records: it takes
just so many bytes and hangs on no other byte, and where there are fewer it stops in front of the first field, or
run of padding, that does not fit (`Kernel.struct_read_exact`).

Where it stops is a matter of the number of bytes alone. So the field is chosen before the bytes are: one and the
same field for all regions with as many bytes left.
-/

namespace FuseAbi

namespace Kernel

/-- The structs that hold the fixed part of a request, and the two that stand inside others. -/
inductive Struct where
  | inHeader | forget | forgetOne | batchForget | getattr | setattr | mknod | mkdir | rename | rename2 | link
  | openFile | create | read | write | release | flush | fsync | setxattr | getxattr | fileLock | lock | access
  | interrupt | bmap | poll | fallocate | copyFileRange | notifyRetrieve
deriving DecidableEq, Repr

namespace Struct

/-- The number of bytes that the protocol states for a struct. -/
def size : Struct → Nat
  | forget | batchForget | mkdir | rename | link | openFile | setxattr | getxattr | access | interrupt => 8
  | forgetOne | getattr | mknod | rename2 | create | fsync | bmap => 16
  | release | flush | fileLock | poll => 24
  | fallocate => 32
  | inHeader | read | write | notifyRetrieve => 40
  | lock => 48
  | copyFileRange => 56
  | setattr => 88

/-- What a struct is read as, and how that stands on the wire. -/
def record : Struct → (α : Type) × Record α
  | inHeader => ⟨Header, inferInstance⟩
  | forget => ⟨ForgetArgs, inferInstance⟩
  | forgetOne => ⟨Forget, inferInstance⟩
  | batchForget => ⟨BatchForgetArgs, inferInstance⟩
  | getattr => ⟨GetattrArgs, inferInstance⟩
  | setattr => ⟨SetattrArgs, inferInstance⟩
  | mknod => ⟨MknodArgs, inferInstance⟩
  | mkdir => ⟨MkdirArgs, inferInstance⟩
  | rename => ⟨RenameArgs, inferInstance⟩
  | rename2 => ⟨Rename2Args, inferInstance⟩
  | link => ⟨LinkArgs, inferInstance⟩
  | openFile => ⟨OpenArgs, inferInstance⟩
  | create => ⟨CreateArgs, inferInstance⟩
  | read => ⟨ReadArgs, inferInstance⟩
  | write => ⟨WriteArgs, inferInstance⟩
  | release => ⟨ReleaseArgs, inferInstance⟩
  | flush => ⟨FlushArgs, inferInstance⟩
  | fsync => ⟨FsyncArgs, inferInstance⟩
  | setxattr => ⟨SetxattrArgs, inferInstance⟩
  | getxattr => ⟨GetxattrArgs, inferInstance⟩
  | fileLock => ⟨FileLock, inferInstance⟩
  | lock => ⟨LockArgs, inferInstance⟩
  | access => ⟨AccessArgs, inferInstance⟩
  | interrupt => ⟨InterruptArgs, inferInstance⟩
  | bmap => ⟨BmapArgs, inferInstance⟩
  | poll => ⟨PollArgs, inferInstance⟩
  | fallocate => ⟨FallocateArgs, inferInstance⟩
  | copyFileRange => ⟨CopyFileRangeArgs, inferInstance⟩
  | notifyRetrieve => ⟨NotifyReplyArgs, inferInstance⟩

def Value (s : Struct) : Type :=
  s.record.1

instance (s : Struct) : Record s.Value :=
  s.record.2

/-- The struct in front of an opcode's arguments, where there is one. -/
def ofOpcode? : Opcode → Option Struct
  | .lookup | .readlink | .symlink | .unlink | .rmdir | .statfs | .removexattr | .init | .destroy | .ioctl
  | .lseek => none
  | .forget => some forget
  | .getattr => some getattr
  | .setattr => some setattr
  | .mknod => some mknod
  | .mkdir => some mkdir
  | .rename => some rename
  | .link => some link
  | .openFile | .openDir => some openFile
  | .read | .readdir | .readdirPlus => some read
  | .write => some write
  | .release | .releasedir => some release
  | .fsync | .fsyncdir => some fsync
  | .setxattr => some setxattr
  | .getxattr | .listxattr => some getxattr
  | .flush => some flush
  | .getlk | .setlk | .setlkw => some lock
  | .access => some access
  | .create => some create
  | .interrupt => some interrupt
  | .bmap => some bmap
  | .poll => some poll
  | .notifyReply => some notifyRetrieve
  | .batchForget => some batchForget
  | .fallocate => some fallocate
  | .rename2 => some rename2
  | .copyFileRange => some copyFileRange

/-- The record that a format starts with is a struct of the protocol, or has no fields. -/
theorem record_of_format {op : Opcode} {format : Argument.Format} (h : op.format? = some format) :
    ((ofOpcode? op).map record).getD ⟨Unit, inferInstance⟩ = ⟨format.Fixed, format.record⟩ := by
  cases op <;> cases h <;> rfl

/-- The fields of a struct take as many bytes as the protocol states. -/
theorem size_value (s : Struct) : Record.size s.Value = s.size := by
  cases s <;> rfl

/-- The read of a struct. -/
def reader (s : Struct) : Scan s.Value :=
  Record.read

theorem reader_of_le {s : Struct} {c : Cursor} (h : s.size ≤ c.unread.length) :
    s.reader.run c = .ok (Record.ofBytes (c.unread.take s.size)) (c.advance s.size) := by
  rw [← s.size_value] at h ⊢
  rw [Record.ofBytes_take h le_rfl]
  exact Record.read_of_le h

/-- Where a struct lacks bytes, its read stops in front of a field that the number of bytes decides on. -/
theorem reader_of_lt {s : Struct} {left : Nat} (h : left < s.size) :
    ∃ before field after, Record.layout s.Value = before ++ field :: after ∧ layoutSize before ≤ left ∧
      left < layoutSize before + field.width ∧
      ∀ c : Cursor, c.unread.length = left → s.reader.run c =
        .error
          { fault := .short field.width (left - layoutSize before)
            offset := c.offset + UInt64.ofNat (layoutSize before) }
          (c.advance (layoutSize before)) := by
  rw [← s.size_value] at h
  obtain ⟨before, field, after, hlayout, hbefore, hfield, hstop⟩ := exists_layoutStop h
  refine ⟨before, field, after, hlayout, hbefore, hfield, ?_⟩
  rintro c rfl
  have hread := Record.read_of_lt (α := s.Value) h
  rwa [hstop] at hread

end Struct

/-- Every struct is read from just as many bytes as the protocol states for it. The read goes through where there
are that many, takes them, and gives what they alone spell. Where there are fewer, the fields are read that fit,
and the first field or run of padding that does not fit is asked for: the read stops in front of it and blames that
place, with the width of the field and the bytes that are left. Which field it is hangs on the number of bytes and
on nothing else. -/
theorem struct_read_exact (s : Struct) :
    (∀ c : Cursor, (∃ value d, s.reader.run c = .ok value d) ↔ s.size ≤ c.unread.length) ∧
    (∀ c : Cursor, s.size ≤ c.unread.length →
      s.reader.run c = .ok (Record.ofBytes (c.unread.take s.size)) (c.advance s.size)) ∧
    ∀ left < s.size, ∃ before field after, Record.layout s.Value = before ++ field :: after ∧
      layoutSize before ≤ left ∧ left < layoutSize before + field.width ∧
      ∀ c : Cursor, c.unread.length = left → ∃ e,
        s.reader.run c = .error e (c.advance (layoutSize before)) ∧ e.kind = .truncated ∧ e.opcode = 0 ∧
        e.offset = c.offset + UInt64.ofNat (layoutSize before) ∧
        e.reason = ascii "need " ++ decimal field.width ++ ascii " bytes, " ++
          decimal (left - layoutSize before) ++ ascii " left" := by
  refine ⟨fun c => ⟨?_, fun h => ⟨_, _, Struct.reader_of_le h⟩⟩, fun c => Struct.reader_of_le, ?_⟩
  · rintro ⟨value, d, hread⟩
    by_contra hsize
    obtain ⟨before, field, after, -, -, -, hstop⟩ := Struct.reader_of_lt (Nat.lt_of_not_le hsize)
    cases hread.symm.trans (hstop c rfl)
  · intro left hleft
    obtain ⟨before, field, after, hlayout, hbefore, hfield, hstop⟩ := Struct.reader_of_lt hleft
    exact ⟨before, field, after, hlayout, hbefore, hfield, fun c hc => ⟨_, hstop c hc, rfl, rfl, rfl, rfl⟩⟩

/-- A run of padding is asked for as a whole: of its twenty bytes five are there, and none of them is passed. -/
example : (Struct.reader .notifyRetrieve).run { offset := 40, unread := List.replicate 25 7 } =
    .error { fault := .short 20 5, offset := 60 } { offset := 60, unread := List.replicate 5 7 } :=
  rfl

end Kernel

end FuseAbi
