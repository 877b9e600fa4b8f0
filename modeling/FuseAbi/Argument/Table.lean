import FuseAbi.Argument.Inode
import FuseAbi.Argument.Lock
import FuseAbi.Argument.Namespace
import FuseAbi.Argument.OpenFile
import FuseAbi.Argument.Session

/-!
# The format of each opcode

Four opcodes have no format: those that set a connection up and end it, and two whose arguments are not
decoded. A request with one of them is refused by name.
-/

namespace FuseAbi

/-- How the arguments of an opcode stand on the wire, or `none` where they are not decoded. -/
def Opcode.format? : Opcode → Option Argument.Format
  | init | destroy | ioctl | lseek => none
  | lookup => some Argument.lookup
  | forget => some Argument.forget
  | getattr => some Argument.getattr
  | setattr => some Argument.setattr
  | readlink => some Argument.readlink
  | symlink => some Argument.symlink
  | mknod => some Argument.mknod
  | mkdir => some Argument.mkdir
  | unlink => some Argument.unlink
  | rmdir => some Argument.rmdir
  | rename => some Argument.rename
  | link => some Argument.link
  | openFile => some Argument.openFile
  | read => some Argument.read
  | write => some Argument.write
  | statfs => some Argument.statfs
  | release => some Argument.release
  | fsync => some Argument.fsync
  | setxattr => some Argument.setxattr
  | getxattr => some Argument.getxattr
  | listxattr => some Argument.listxattr
  | removexattr => some Argument.removexattr
  | flush => some Argument.flush
  | openDir => some Argument.openDir
  | readdir => some Argument.readdir
  | releasedir => some Argument.releasedir
  | fsyncdir => some Argument.fsyncdir
  | getlk => some Argument.getlk
  | setlk => some Argument.setlk
  | setlkw => some Argument.setlkw
  | access => some Argument.access
  | create => some Argument.create
  | interrupt => some Argument.interrupt
  | bmap => some Argument.bmap
  | poll => some Argument.poll
  | notifyReply => some Argument.notifyReply
  | batchForget => some Argument.batchForget
  | fallocate => some Argument.fallocate
  | readdirPlus => some Argument.readdirPlus
  | rename2 => some Argument.rename2
  | copyFileRange => some Argument.copyFileRange

end FuseAbi
