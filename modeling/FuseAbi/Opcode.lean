/-!
# Opcodes

The requests that the kernel may send, by name and number, up to protocol 7.31. The numbers have gaps, and
knowing an opcode's name does not mean that its arguments are decoded: which ones are is the business of
`Opcode.format?`.
-/

namespace FuseAbi

/-- A request that the kernel may send. -/
inductive Opcode where
  | lookup | forget | getattr | setattr | readlink | symlink | mknod | mkdir | unlink | rmdir | rename
  | link | openFile | read | write | statfs | release | fsync | setxattr | getxattr | listxattr
  | removexattr | flush | init | openDir | readdir | releasedir | fsyncdir | getlk | setlk | setlkw
  | access | create | interrupt | bmap | destroy | ioctl | poll | notifyReply | batchForget | fallocate
  | readdirPlus | rename2 | lseek | copyFileRange
deriving DecidableEq, Repr

namespace Opcode

/-- The number that stands for the opcode in a request's header. -/
def code : Opcode → UInt32
  | lookup => 1
  | forget => 2
  | getattr => 3
  | setattr => 4
  | readlink => 5
  | symlink => 6
  | mknod => 8
  | mkdir => 9
  | unlink => 10
  | rmdir => 11
  | rename => 12
  | link => 13
  | openFile => 14
  | read => 15
  | write => 16
  | statfs => 17
  | release => 18
  | fsync => 20
  | setxattr => 21
  | getxattr => 22
  | listxattr => 23
  | removexattr => 24
  | flush => 25
  | init => 26
  | openDir => 27
  | readdir => 28
  | releasedir => 29
  | fsyncdir => 30
  | getlk => 31
  | setlk => 32
  | setlkw => 33
  | access => 34
  | create => 35
  | interrupt => 36
  | bmap => 37
  | destroy => 38
  | ioctl => 39
  | poll => 40
  | notifyReply => 41
  | batchForget => 42
  | fallocate => 43
  | readdirPlus => 44
  | rename2 => 45
  | lseek => 46
  | copyFileRange => 47

/-- The opcode's name in the kernel's protocol. -/
def name : Opcode → String
  | lookup => "LOOKUP"
  | forget => "FORGET"
  | getattr => "GETATTR"
  | setattr => "SETATTR"
  | readlink => "READLINK"
  | symlink => "SYMLINK"
  | mknod => "MKNOD"
  | mkdir => "MKDIR"
  | unlink => "UNLINK"
  | rmdir => "RMDIR"
  | rename => "RENAME"
  | link => "LINK"
  | openFile => "OPEN"
  | read => "READ"
  | write => "WRITE"
  | statfs => "STATFS"
  | release => "RELEASE"
  | fsync => "FSYNC"
  | setxattr => "SETXATTR"
  | getxattr => "GETXATTR"
  | listxattr => "LISTXATTR"
  | removexattr => "REMOVEXATTR"
  | flush => "FLUSH"
  | init => "INIT"
  | openDir => "OPENDIR"
  | readdir => "READDIR"
  | releasedir => "RELEASEDIR"
  | fsyncdir => "FSYNCDIR"
  | getlk => "GETLK"
  | setlk => "SETLK"
  | setlkw => "SETLKW"
  | access => "ACCESS"
  | create => "CREATE"
  | interrupt => "INTERRUPT"
  | bmap => "BMAP"
  | destroy => "DESTROY"
  | ioctl => "IOCTL"
  | poll => "POLL"
  | notifyReply => "NOTIFY_REPLY"
  | batchForget => "BATCH_FORGET"
  | fallocate => "FALLOCATE"
  | readdirPlus => "READDIRPLUS"
  | rename2 => "RENAME2"
  | lseek => "LSEEK"
  | copyFileRange => "COPY_FILE_RANGE"

/-- The protocol minor that introduced the opcode. Those older than the oldest minor this library speaks
count as introduced by that one. -/
def sinceMinor : Opcode → Nat
  | lseek => 24
  | copyFileRange => 28
  | _ => 23

/-- Every opcode, by ascending number. -/
def all : List Opcode :=
  [lookup, forget, getattr, setattr, readlink, symlink, mknod, mkdir, unlink, rmdir, rename, link,
    openFile, read, write, statfs, release, fsync, setxattr, getxattr, listxattr, removexattr, flush, init,
    openDir, readdir, releasedir, fsyncdir, getlk, setlk, setlkw, access, create, interrupt, bmap, destroy,
    ioctl, poll, notifyReply, batchForget, fallocate, readdirPlus, rename2, lseek, copyFileRange]

/-- The opcode with the given number, or `none` for a number that stands for no request. -/
def ofCode? (code : UInt32) : Option Opcode :=
  all.find? (·.code == code)

@[simp] theorem ofCode?_code (op : Opcode) : ofCode? op.code = some op := by
  cases op <;> rfl

theorem ofCode?_eq_some_iff {code : UInt32} {op : Opcode} : ofCode? code = some op ↔ op.code = code := by
  constructor
  · intro h
    simpa using List.find?_some h
  · rintro rfl
    exact ofCode?_code op

end Opcode

end FuseAbi
