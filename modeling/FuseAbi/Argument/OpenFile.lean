import FuseAbi.Argument.Format

/-!
# Arguments of operations on open files

Opening, reading, writing and closing files and directories. Directories share the structs of files: listing
one uses the struct of a read, of which only handle, offset and size are meant, and closing one uses the
struct of a release, of which only handle and flags are.
-/

namespace FuseAbi

/-! ## Records -/

/-- The arguments for opening a file or directory. -/
structure OpenArgs where
  flags : UInt32
deriving DecidableEq, Repr

instance : Record OpenArgs where
  layout := [.u32, .pad 4]
  ofValues := fun (flags, ()) => { flags }
  toValues a := (a.flags, ())

/-- The arguments for reading a file or listing a directory. -/
structure ReadArgs where
  fh : UInt64
  offset : UInt64
  /-- The room that the caller has for the answer. -/
  size : UInt32
  /-- Whether a locking context is given. -/
  readFlags : UInt32
  lockOwner : UInt64
  flags : UInt32
deriving DecidableEq, Repr

instance : Record ReadArgs where
  layout := [.u64, .u64, .u32, .u32, .u64, .u32, .pad 4]
  ofValues := fun (fh, offset, size, readFlags, lockOwner, flags, ()) =>
    { fh, offset, size, readFlags, lockOwner, flags }
  toValues a := (a.fh, a.offset, a.size, a.readFlags, a.lockOwner, a.flags, ())

structure WriteArgs where
  fh : UInt64
  offset : UInt64
  size : UInt32
  /-- How the data came about, and whether a locking context is given. -/
  writeFlags : UInt32
  lockOwner : UInt64
  flags : UInt32
deriving DecidableEq, Repr

instance : Record WriteArgs where
  layout := [.u64, .u64, .u32, .u32, .u64, .u32, .pad 4]
  ofValues := fun (fh, offset, size, writeFlags, lockOwner, flags, ()) =>
    { fh, offset, size, writeFlags, lockOwner, flags }
  toValues a := (a.fh, a.offset, a.size, a.writeFlags, a.lockOwner, a.flags, ())

/-- The arguments for closing a file or directory for good. -/
structure ReleaseArgs where
  fh : UInt64
  flags : UInt32
  releaseFlags : UInt32
  lockOwner : UInt64
deriving DecidableEq, Repr

instance : Record ReleaseArgs where
  layout := [.u64, .u32, .u32, .u64]
  ofValues := fun (fh, flags, releaseFlags, lockOwner, ()) => { fh, flags, releaseFlags, lockOwner }
  toValues a := (a.fh, a.flags, a.releaseFlags, a.lockOwner, ())

structure FlushArgs where
  fh : UInt64
  lockOwner : UInt64
deriving DecidableEq, Repr

instance : Record FlushArgs where
  layout := [.u64, .pad 8, .u64]
  ofValues := fun (fh, lockOwner, ()) => { fh, lockOwner }
  toValues a := (a.fh, a.lockOwner, ())

structure FsyncArgs where
  fh : UInt64
  /-- Whether attributes are left out. -/
  flags : UInt32
deriving DecidableEq, Repr

instance : Record FsyncArgs where
  layout := [.u64, .u32, .pad 4]
  ofValues := fun (fh, flags, ()) => { fh, flags }
  toValues a := (a.fh, a.flags, ())

structure PollArgs where
  fh : UInt64
  /-- The name of the wake-up, where one is wanted. -/
  kh : UInt64
  flags : UInt32
  events : UInt32
deriving DecidableEq, Repr

instance : Record PollArgs where
  layout := [.u64, .u64, .u32, .u32]
  ofValues := fun (fh, kh, flags, events, ()) => { fh, kh, flags, events }
  toValues a := (a.fh, a.kh, a.flags, a.events, ())

/-- The arguments for reserving or freeing room in a file. -/
structure FallocateArgs where
  fh : UInt64
  offset : UInt64
  length : UInt64
  mode : UInt32
deriving DecidableEq, Repr

instance : Record FallocateArgs where
  layout := [.u64, .u64, .u64, .u32, .pad 4]
  ofValues := fun (fh, offset, length, mode, ()) => { fh, offset, length, mode }
  toValues a := (a.fh, a.offset, a.length, a.mode, ())

/-- The arguments for copying between two open files; the header's node is the one to copy from. -/
structure CopyFileRangeArgs where
  fhIn : UInt64
  offIn : UInt64
  nodeidOut : UInt64
  fhOut : UInt64
  offOut : UInt64
  len : UInt64
  flags : UInt64
deriving DecidableEq, Repr

instance : Record CopyFileRangeArgs where
  layout := [.u64, .u64, .u64, .u64, .u64, .u64, .u64]
  ofValues := fun (fhIn, offIn, nodeidOut, fhOut, offOut, len, flags, ()) =>
    { fhIn, offIn, nodeidOut, fhOut, offOut, len, flags }
  toValues a := (a.fhIn, a.offIn, a.nodeidOut, a.fhOut, a.offOut, a.len, a.flags, ())

namespace Argument

/-! ## Opening and closing -/

def openFile : Format where
  Fixed := OpenArgs
  tail _ := []
  toOperation h a _ := .openFile h.nodeid a.flags

def openDir : Format where
  Fixed := OpenArgs
  tail _ := []
  toOperation h a _ := .openDir h.nodeid a.flags

/-- Set where closing a file includes what ending a descriptor's use does. -/
def releaseFlush : UInt32 := 1

/-- Set where closing a file gives back its owner's lock on the whole file. -/
def releaseFlock : UInt32 := 2

def release : Format where
  Fixed := ReleaseArgs
  tail _ := []
  toOperation h a _ :=
    .release { ino := h.nodeid, fh := a.fh } a.flags { raw := a.lockOwner }
      (hasBit a.releaseFlags releaseFlush) (hasBit a.releaseFlags releaseFlock)

def releasedir : Format where
  Fixed := ReleaseArgs
  tail _ := []
  toOperation h a _ := .releasedir { ino := h.nodeid, fh := a.fh } a.flags

def flush : Format where
  Fixed := FlushArgs
  tail _ := []
  toOperation h a _ := .flush { ino := h.nodeid, fh := a.fh } { raw := a.lockOwner }

/-! ## Reading and writing -/

/-- Set where a read carries a locking context. -/
def readLockOwner : UInt32 := 2

def read : Format where
  Fixed := ReadArgs
  tail _ := []
  toOperation h a _ :=
    .read { handle := { ino := h.nodeid, fh := a.fh }, offset := a.offset } a.size a.flags
      (if hasBit a.readFlags readLockOwner then some { raw := a.lockOwner } else none)

/-- Set where a write carries a locking context. -/
def writeLockOwner : UInt32 := 2

/-- Writing to a file. The bit for the locking context does not show among the operation's write flags. -/
def write : Format where
  Fixed := WriteArgs
  tail a := [.data a.size]
  toOperation h a := fun (data, ()) =>
    .write { handle := { ino := h.nodeid, fh := a.fh }, offset := a.offset } a.flags
      (a.writeFlags &&& ~~~writeLockOwner)
      (if hasBit a.writeFlags writeLockOwner then some { raw := a.lockOwner } else none) data

/-- Listing a directory in one of the two modes. -/
def list (mode : ReaddirMode) : Format where
  Fixed := ReadArgs
  tail _ := []
  toOperation h a _ :=
    .readdir { handle := { ino := h.nodeid, fh := a.fh }, offset := a.offset } a.size mode

def readdir : Format := list .plain

def readdirPlus : Format := list .plus

def copyFileRange : Format where
  Fixed := CopyFileRangeArgs
  tail _ := []
  toOperation h a _ :=
    .copyFileRange { handle := { ino := h.nodeid, fh := a.fhIn }, offset := a.offIn }
      { handle := { ino := a.nodeidOut, fh := a.fhOut }, offset := a.offOut } a.len a.flags

/-! ## The rest -/

/-- Set where only a file's content is to be written out. -/
def fsyncData : UInt32 := 1

def fsync : Format where
  Fixed := FsyncArgs
  tail _ := []
  toOperation h a _ := .fsync { ino := h.nodeid, fh := a.fh } (hasBit a.flags fsyncData)

def fsyncdir : Format where
  Fixed := FsyncArgs
  tail _ := []
  toOperation h a _ := .fsyncdir { ino := h.nodeid, fh := a.fh } (hasBit a.flags fsyncData)

/-- Set where a wake-up is wanted. -/
def pollNotify : UInt32 := 1

def poll : Format where
  Fixed := PollArgs
  tail _ := []
  toOperation h a _ :=
    .poll { ino := h.nodeid, fh := a.fh } a.events (if hasBit a.flags pollNotify then some a.kh else none)

def fallocate : Format where
  Fixed := FallocateArgs
  tail _ := []
  toOperation h a _ :=
    .fallocate { handle := { ino := h.nodeid, fh := a.fh }, offset := a.offset } a.length a.mode

end Argument

end FuseAbi
