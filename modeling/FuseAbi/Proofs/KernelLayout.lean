import FuseAbi.Proofs.Slot
import FuseAbi.Request

/-!
# The layout in which the kernel writes requests

The wire format said once more, on its own: for every operation the words, names and data that the kernel
writes for it, in the order of the kernel's structs, and which of their bits mean something. Nothing here
refers to the formats that requests are decoded with, so what is proved about both is about the decoder.

Bits that mean nothing are the padding words, flags that no operation shows, and fields that go unused:

- an optional field whose flag is off, and a time whose own bit is off or whose "now" bit is on;
- the range and process of a lock on a whole file, and the flags of a lock that is only asked about;
- the context and all flags of a directory listing, and those of closing a directory apart from the flags
  that it was opened with.

`WellFormed` says which operations the kernel writes under an opcode.
-/

namespace FuseAbi.Kernel

open Slot

/-! ## Fields -/

/-- A word all of whose bits count. -/
def full32 (value : UInt32) : Slot :=
  word32 value 0xffffffff

/-- A long word that counts. -/
def full64 (value : UInt64) : Slot :=
  word64 value true

/-- A word of flags, of which only one is looked at. -/
def flag (on : Bool) (bit : UInt32) : Slot :=
  word32 (bitIf on bit) bit

/-- A word that counts where the value is present. -/
def optional32 (value : Option UInt32) : Slot :=
  word32 (value.getD 0) (if value.isSome then 0xffffffff else 0)

/-- A long word that counts where the value is present. -/
def optional64 (value : Option UInt64) : Slot :=
  word64 (value.getD 0) value.isSome

/-- A word that is not looked at. -/
def dropped32 : Slot :=
  word32 0 0

/-- A long word that is not looked at. -/
def dropped64 : Slot :=
  word64 0 false

/-! ## Structs -/

/-- `fuse_in_header`. -/
def headerSlots (header : Header) : List Slot :=
  [full32 header.len, full32 header.opcode, full64 header.unique, full64 header.nodeid, full32 header.uid,
    full32 header.gid, full32 header.pid, unused 4]

/-- `fuse_setattr_in`. -/
def setattrSlots (change : AttrChange) : List Slot :=
  [full32 change.valid, unused 4, optional64 change.fh, optional64 change.size,
    optional64 (change.lockOwner.map LockOwner.raw),
    optional64 (change.atime.time?.map Timespec.seconds),
    optional64 (change.mtime.time?.map Timespec.seconds),
    optional64 (change.ctime.map Timespec.seconds),
    optional32 (change.atime.time?.map Timespec.nanoseconds),
    optional32 (change.mtime.time?.map Timespec.nanoseconds),
    optional32 (change.ctime.map Timespec.nanoseconds),
    optional32 change.mode, unused 4, optional32 change.uid, optional32 change.gid, unused 4]

/-- `fuse_lk_in` for a lock on a range; `flags` is its last word of flags. -/
def lockSlots (handle : Handle) (owner : LockOwner) (lock : FileLock) (flags : Slot) : List Slot :=
  [full64 handle.fh, full64 owner.raw, full64 lock.start, full64 lock.last, full32 lock.type,
    full32 lock.pid, flags, unused 4]

/-- The type of lock that a call on a whole file is written with. -/
def flockType (command : UInt32) : UInt32 :=
  if hasBit command Flock.shared then 0 else if hasBit command Flock.exclusive then 1 else 2

/-- `fuse_lk_in` for a lock on a whole file. -/
def flockSlots (handle : Handle) (owner : LockOwner) (command : UInt32) : List Slot :=
  [full64 handle.fh, full64 owner.raw, dropped64, dropped64, full32 (flockType command), dropped32,
    flag true 1, unused 4]

/-- The arguments of an operation, by the opcode that it is written under. -/
def slots (op : Opcode) : Operation → List Slot
  | .lookup entry | .unlink entry | .rmdir entry => [name entry.name]
  | .forget _ nlookup => [full64 nlookup]
  | .batchForget entries =>
    full32 (UInt32.ofNat entries.length) :: unused 4 ::
      entries.flatMap fun forget => [full64 forget.nodeid, full64 forget.nlookup]
  | .getattr _ fh => [flag fh.isSome 1, unused 4, optional64 fh]
  | .setattr _ change => setattrSlots change
  | .readlink _ | .statfs _ => []
  | .symlink entry target => [name entry.name, name target]
  | .mknod entry mode rdev umask => [full32 mode, full32 rdev, full32 umask, unused 4, name entry.name]
  | .mkdir entry mode umask => [full32 mode, full32 umask, name entry.name]
  | .rename source target flags =>
    if op = .rename2 then
      [full64 target.parent, full32 flags, unused 4, name source.name, name target.name]
    else [full64 target.parent, name source.name, name target.name]
  | .link ino target => [full64 ino, name target.name]
  | .openFile _ flags | .openDir _ flags => [full32 flags, unused 4]
  | .read source size flags lockOwner =>
    [full64 source.handle.fh, full64 source.offset, full32 size, flag lockOwner.isSome 2,
      optional64 (lockOwner.map LockOwner.raw), full32 flags, unused 4]
  | .write target flags writeFlags lockOwner bytes =>
    [full64 target.handle.fh, full64 target.offset, full32 (UInt32.ofNat bytes.length),
      full32 (writeFlags ||| bitIf lockOwner.isSome 2), optional64 (lockOwner.map LockOwner.raw),
      full32 flags, unused 4, data bytes]
  | .release handle flags lockOwner flush flockRelease =>
    [full64 handle.fh, full32 flags, word32 (bitIf flush 1 ||| bitIf flockRelease 2) 3,
      full64 lockOwner.raw]
  | .fsync handle datasync | .fsyncdir handle datasync =>
    [full64 handle.fh, flag datasync 1, unused 4]
  | .setxattr _ text value flags =>
    [full32 (UInt32.ofNat value.length), full32 flags, name text, data value]
  | .getxattr _ text size => [full32 size, unused 4, name text]
  | .listxattr _ size => [full32 size, unused 4]
  | .removexattr _ text => [name text]
  | .flush handle lockOwner => [full64 handle.fh, unused 8, full64 lockOwner.raw]
  | .readdir source size _ =>
    [full64 source.handle.fh, full64 source.offset, full32 size, dropped32, dropped64, dropped32, unused 4]
  | .releasedir handle flags => [full64 handle.fh, full32 flags, dropped32, dropped64]
  | .getlk handle owner lock => lockSlots handle owner lock dropped32
  | .setlk handle owner lock _ => lockSlots handle owner lock (flag false 1)
  | .flock handle owner command => flockSlots handle owner command
  | .access _ mask => [full32 mask, unused 4]
  | .create entry mode umask flags =>
    [full32 flags, full32 mode, full32 umask, unused 4, name entry.name]
  | .interrupt unique => [full64 unique]
  | .bmap _ block blocksize => [full64 block, full32 blocksize, unused 4]
  | .poll handle events kh => [full64 handle.fh, optional64 kh, flag kh.isSome 1, full32 events]
  | .notifyReply _ _ offset bytes =>
    [unused 8, full64 offset, full32 (UInt32.ofNat bytes.length), unused 20, data bytes]
  | .fallocate target length mode =>
    [full64 target.handle.fh, full64 target.offset, full64 length, full32 mode, unused 4]
  | .copyFileRange source target length flags =>
    [full64 source.handle.fh, full64 source.offset, full64 target.handle.ino, full64 target.handle.fh,
      full64 target.offset, full64 length, full64 flags]

/-! ## Whole requests -/

/-- The header with the opcode and the length of the request that it stands in front of. -/
def sealHeader (op : Opcode) (header : Header) (operation : Operation) : Header :=
  { header with
    opcode := op.code
    len := UInt32.ofNat (Header.size + (encodeAll (slots op operation)).length) }

/-- A request as the kernel writes it: header, arguments, and nothing else. -/
def requestSlots (op : Opcode) (header : Header) (operation : Operation) : List Slot :=
  headerSlots (sealHeader op header operation) ++ slots op operation

/-- The bytes of a request as the kernel writes it. -/
def encode (op : Opcode) (header : Header) (operation : Operation) : Bytes :=
  encodeAll (requestSlots op header operation)

/-- The bits of a request that count. -/
def mask (op : Opcode) (header : Header) (operation : Operation) : Bytes :=
  maskAll (requestSlots op header operation)

/-! ## Well-formed operations -/

/-- A name that can be written: it holds no zero byte and is within its limit. -/
def IsName (limit : Nat) (text : Bytes) : Prop :=
  0 ∉ text ∧ text.length ≤ limit

/-- A name in the directory that the header is about. -/
def InDirectory (header : Header) (entry : Entry) : Prop :=
  entry.parent = header.nodeid ∧ IsName 1024 entry.name

/-- What becomes of a time, as its own bit and its "now" bit in the mask say. -/
def TimeFits (valid bit nowBit : UInt32) : TimeChange → Prop
  | .keep => hasBit valid bit = false ∧ hasBit valid nowBit = false
  | .now => hasBit valid nowBit = true
  | .set time =>
    hasBit valid bit = true ∧ hasBit valid nowBit = false ∧ time.nanoseconds < 1000000000

/-- A change of attributes in which just those are present that its mask names. -/
structure ChangeFits (change : AttrChange) : Prop where
  mode : change.mode.isSome = hasBit change.valid 0x001
  uid : change.uid.isSome = hasBit change.valid 0x002
  gid : change.gid.isSome = hasBit change.valid 0x004
  size : change.size.isSome = hasBit change.valid 0x008
  fh : change.fh.isSome = hasBit change.valid 0x040
  lockOwner : change.lockOwner.isSome = hasBit change.valid 0x200
  ctime : change.ctime.isSome = hasBit change.valid 0x400
  ctime_lt : ∀ time ∈ change.ctime, time.nanoseconds < 1000000000
  atime : TimeFits change.valid 0x010 0x080 change.atime
  mtime : TimeFits change.valid 0x020 0x100 change.mtime

/-- A lock of a known type on a range that is in order. -/
def LockFits (lock : FileLock) : Prop :=
  lock.type ∈ [(0 : UInt32), 1, 2] ∧ lock.start ≤ lock.last

/-- The calls on a whole file: to share it, to have it for oneself, and to give it back. -/
def flockCalls : List UInt32 :=
  [Flock.shared, Flock.exclusive, Flock.unlock]

/-- The operations that are written under an opcode, behind a header that they agree with. -/
def WellFormed (header : Header) (op : Opcode) : Operation → Prop
  | .lookup entry => op = .lookup ∧ InDirectory header entry
  | .forget ino _ => op = .forget ∧ ino = header.nodeid
  | .batchForget _ => op = .batchForget
  | .getattr ino _ => op = .getattr ∧ ino = header.nodeid
  | .setattr ino change => op = .setattr ∧ ino = header.nodeid ∧ ChangeFits change
  | .readlink ino => op = .readlink ∧ ino = header.nodeid
  | .symlink entry target => op = .symlink ∧ InDirectory header entry ∧ IsName 4096 target
  | .mknod entry _ _ _ => op = .mknod ∧ InDirectory header entry
  | .mkdir entry _ _ => op = .mkdir ∧ InDirectory header entry
  | .unlink entry => op = .unlink ∧ InDirectory header entry
  | .rmdir entry => op = .rmdir ∧ InDirectory header entry
  | .rename source target flags =>
    (op = .rename ∧ flags = 0 ∨ op = .rename2 ∧ flags < 8) ∧ InDirectory header source ∧
      IsName 1024 target.name
  | .link _ target => op = .link ∧ InDirectory header target
  | .openFile ino _ => op = .openFile ∧ ino = header.nodeid
  | .read source _ _ _ => op = .read ∧ source.handle.ino = header.nodeid
  | .write target _ writeFlags _ _ =>
    op = .write ∧ target.handle.ino = header.nodeid ∧ hasBit writeFlags 2 = false
  | .statfs ino => op = .statfs ∧ ino = header.nodeid
  | .release handle _ _ _ _ => op = .release ∧ handle.ino = header.nodeid
  | .fsync handle _ => op = .fsync ∧ handle.ino = header.nodeid
  | .setxattr ino text _ _ => op = .setxattr ∧ ino = header.nodeid ∧ IsName 255 text
  | .getxattr ino text _ => op = .getxattr ∧ ino = header.nodeid ∧ IsName 255 text
  | .listxattr ino _ => op = .listxattr ∧ ino = header.nodeid
  | .removexattr ino text => op = .removexattr ∧ ino = header.nodeid ∧ IsName 255 text
  | .flush handle _ => op = .flush ∧ handle.ino = header.nodeid
  | .openDir ino _ => op = .openDir ∧ ino = header.nodeid
  | .readdir source _ mode =>
    (op = .readdir ∧ mode = .plain ∨ op = .readdirPlus ∧ mode = .plus) ∧
      source.handle.ino = header.nodeid
  | .releasedir handle _ => op = .releasedir ∧ handle.ino = header.nodeid
  | .fsyncdir handle _ => op = .fsyncdir ∧ handle.ino = header.nodeid
  | .getlk handle _ lock => op = .getlk ∧ handle.ino = header.nodeid ∧ LockFits lock
  | .setlk handle _ lock sleep =>
    (op = .setlk ∧ sleep = false ∨ op = .setlkw ∧ sleep = true) ∧ handle.ino = header.nodeid ∧
      LockFits lock
  | .flock handle _ command =>
    (op = .setlk ∧ command ∈ flockCalls.map (· ||| Flock.nonblocking) ∨
      op = .setlkw ∧ command ∈ flockCalls) ∧ handle.ino = header.nodeid
  | .access ino _ => op = .access ∧ ino = header.nodeid
  | .create entry _ _ _ => op = .create ∧ InDirectory header entry
  | .interrupt _ => op = .interrupt
  | .bmap ino _ _ => op = .bmap ∧ ino = header.nodeid
  | .poll handle _ _ => op = .poll ∧ handle.ino = header.nodeid
  | .notifyReply unique ino _ _ =>
    op = .notifyReply ∧ unique = header.unique ∧ ino = header.nodeid
  | .fallocate target _ _ => op = .fallocate ∧ target.handle.ino = header.nodeid
  | .copyFileRange source _ _ _ => op = .copyFileRange ∧ source.handle.ino = header.nodeid

end FuseAbi.Kernel
