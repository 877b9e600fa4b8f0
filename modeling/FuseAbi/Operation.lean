import FuseAbi.Opcode
import FuseAbi.Text
import FuseAbi.Word

/-!
# Operations

What a request asks for, once its bytes are read. An `Operation` owns all its names and data: nothing in it
refers back to the request. Optional fields are absent where the request does not carry them, so a reader
never has to look at the flag that said so.

A few opcodes share an operation: `RENAME` and `RENAME2` differ in the flags, `READDIR` and `READDIRPLUS` in
the mode, `SETLK` and `SETLKW` in whether the caller waits. `Operation.opcode` recovers one opcode from the
operation alone.
-/

namespace FuseAbi

/-! ## Shared parts -/

/-- A name in a directory. -/
structure Entry where
  parent : UInt64
  name : Bytes
deriving DecidableEq, Repr

/-- An open file or directory. -/
structure Handle where
  ino : UInt64
  /-- The handle that opening it gave. -/
  fh : UInt64
deriving DecidableEq, Repr

/-- A locking context. Two processes that share one open file share its owner, so owners are compared and
process numbers, which are reused, are not. -/
structure LockOwner where
  raw : UInt64
deriving DecidableEq, Hashable, Repr

/-- So many references to a node are dropped. -/
structure Forget where
  nodeid : UInt64
  nlookup : UInt64
deriving DecidableEq, Repr

/-- A moment, counted from the epoch. -/
structure Timespec where
  seconds : UInt64
  /-- Nanoseconds on top of them. -/
  nanoseconds : UInt32
deriving DecidableEq, Repr

/-- What becomes of a file's time. -/
inductive TimeChange where
  | keep
  | now
  | set (time : Timespec)
deriving DecidableEq, Repr

def TimeChange.isKeep : TimeChange → Bool
  | keep => true
  | _ => false

def TimeChange.time? : TimeChange → Option Timespec
  | set time => some time
  | _ => none

/-- A change of a file's attributes. What the request does not touch is absent. -/
structure AttrChange where
  /-- The mask that says what is touched, with unknown bits kept. -/
  valid : UInt32
  fh : Option UInt64
  mode : Option UInt32
  uid : Option UInt32
  gid : Option UInt32
  size : Option UInt64
  atime : TimeChange
  mtime : TimeChange
  ctime : Option Timespec
  lockOwner : Option LockOwner
deriving DecidableEq, Repr

/-- A lock on a range of bytes. -/
structure FileLock where
  start : UInt64
  /-- The last byte of the range. -/
  last : UInt64
  /-- Shared, exclusive or a release. -/
  type : UInt32
  pid : UInt32
deriving DecidableEq, Repr

/-- How a directory is listed. -/
inductive ReaddirMode where
  | plain
  /-- Names with all attributes. -/
  | plus
deriving DecidableEq, Repr

/-- A place in an open file. -/
structure FilePoint where
  handle : Handle
  offset : UInt64
deriving DecidableEq, Repr

/-! ## The operations -/

/-- What a request asks for. -/
inductive Operation where
  | lookup (entry : Entry)
  | forget (ino nlookup : UInt64)
  /-- Drops references to several nodes, in the order of the request. -/
  | batchForget (entries : List Forget)
  /-- Reads attributes, of an open file where a handle is given. -/
  | getattr (ino : UInt64) (fh : Option UInt64)
  | setattr (ino : UInt64) (change : AttrChange)
  | readlink (ino : UInt64)
  | symlink (entry : Entry) (target : Bytes)
  | mknod (entry : Entry) (mode rdev umask : UInt32)
  | mkdir (entry : Entry) (mode umask : UInt32)
  | unlink (entry : Entry)
  | rmdir (entry : Entry)
  | rename (source target : Entry) (flags : UInt32)
  /-- Gives a node a further name. -/
  | link (ino : UInt64) (target : Entry)
  | openFile (ino : UInt64) (flags : UInt32)
  | read (source : FilePoint) (size flags : UInt32) (lockOwner : Option LockOwner)
  | write (target : FilePoint) (flags writeFlags : UInt32) (lockOwner : Option LockOwner) (data : Bytes)
  /-- Asks for the filesystem's capacity. -/
  | statfs (ino : UInt64)
  /-- Closes a file for good. -/
  | release (handle : Handle) (flags : UInt32) (lockOwner : LockOwner) (flush flockRelease : Bool)
  /-- Writes a file's changes out; its attributes only where `datasync` is off. -/
  | fsync (handle : Handle) (datasync : Bool)
  | setxattr (ino : UInt64) (name value : Bytes) (flags : UInt32)
  /-- Reads an extended attribute into so many bytes; into none, its length is asked. -/
  | getxattr (ino : UInt64) (name : Bytes) (size : UInt32)
  /-- Lists extended attributes into so many bytes. -/
  | listxattr (ino : UInt64) (size : UInt32)
  | removexattr (ino : UInt64) (name : Bytes)
  /-- Ends one descriptor's use of a file. -/
  | flush (handle : Handle) (lockOwner : LockOwner)
  | openDir (ino : UInt64) (flags : UInt32)
  | readdir (source : FilePoint) (size : UInt32) (mode : ReaddirMode)
  | releasedir (handle : Handle) (flags : UInt32)
  | fsyncdir (handle : Handle) (datasync : Bool)
  /-- Asks which lock is in the way. -/
  | getlk (handle : Handle) (owner : LockOwner) (lock : FileLock)
  /-- Takes or releases a lock on a range, and waits for it where `sleep` is on. -/
  | setlk (handle : Handle) (owner : LockOwner) (lock : FileLock) (sleep : Bool)
  /-- Takes or releases a lock on a whole file; `command` is the number of the call. -/
  | flock (handle : Handle) (owner : LockOwner) (command : UInt32)
  | access (ino : UInt64) (mask : UInt32)
  | create (entry : Entry) (mode umask openFlags : UInt32)
  /-- Cancels another request. -/
  | interrupt (unique : UInt64)
  /-- Maps a block of a file to one of the device. -/
  | bmap (ino block : UInt64) (blocksize : UInt32)
  /-- Asks which events are ready; a wake-up is wanted where `kh` names one. -/
  | poll (handle : Handle) (events : UInt32) (kh : Option UInt64)
  /-- Delivers data that the filesystem had asked for. -/
  | notifyReply (unique ino offset : UInt64) (data : Bytes)
  /-- Reserves or frees room in a file. -/
  | fallocate (target : FilePoint) (length : UInt64) (mode : UInt32)
  | copyFileRange (source target : FilePoint) (length flags : UInt64)
deriving DecidableEq, Repr

/-! ## Locks on whole files -/

namespace Flock

/-- The call that takes a lock which others may share. -/
def shared : UInt32 := 1

/-- The call that takes a lock for oneself. -/
def exclusive : UInt32 := 2

/-- Added to a call that does not wait. -/
def nonblocking : UInt32 := 4

/-- The call that gives a lock back. -/
def unlock : UInt32 := 8

end Flock

namespace Operation

/-- The opcode that an operation answers to. A rename with flags is told apart from one without, a listing
by its mode, and a lock by whether it waits. -/
def opcode : Operation → Opcode
  | lookup .. => .lookup
  | forget .. => .forget
  | batchForget .. => .batchForget
  | getattr .. => .getattr
  | setattr .. => .setattr
  | readlink .. => .readlink
  | symlink .. => .symlink
  | mknod .. => .mknod
  | mkdir .. => .mkdir
  | unlink .. => .unlink
  | rmdir .. => .rmdir
  | rename _ _ flags => if flags = 0 then .rename else .rename2
  | link .. => .link
  | openFile .. => .openFile
  | read .. => .read
  | write .. => .write
  | statfs .. => .statfs
  | release .. => .release
  | fsync .. => .fsync
  | setxattr .. => .setxattr
  | getxattr .. => .getxattr
  | listxattr .. => .listxattr
  | removexattr .. => .removexattr
  | flush .. => .flush
  | openDir .. => .openDir
  | readdir _ _ .plain => .readdir
  | readdir _ _ .plus => .readdirPlus
  | releasedir .. => .releasedir
  | fsyncdir .. => .fsyncdir
  | getlk .. => .getlk
  | setlk _ _ _ sleep => if sleep then .setlkw else .setlk
  | flock _ _ command => if hasBit command Flock.nonblocking then .setlk else .setlkw
  | access .. => .access
  | create .. => .create
  | interrupt .. => .interrupt
  | bmap .. => .bmap
  | poll .. => .poll
  | notifyReply .. => .notifyReply
  | fallocate .. => .fallocate
  | copyFileRange .. => .copyFileRange

def name (op : Operation) : String :=
  op.opcode.name

end Operation

end FuseAbi
