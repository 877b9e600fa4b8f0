import FuseAbi.Operation

/-!
# Replies

What the answer to an operation has to carry. Four operations are told to the filesystem and not asked of
it: they have no answer, and sending one would be taken for the answer to some other request.
-/

namespace FuseAbi

/-- What the reply to an operation carries. -/
inductive ReplyKind where
  | none
  /-- Only whether it went well. -/
  | empty
  /-- A node with its attributes. -/
  | entry
  | attr
  | data
  | opened
  /-- A node and a handle. -/
  | created
  | written
  | statfs
  /-- The value of an extended attribute, or its length. -/
  | xattr
  | lock
  | bmap
  | poll
  | readdir
deriving DecidableEq, Repr

namespace ReplyKind

def code : ReplyKind → UInt32
  | none => 0
  | empty => 1
  | entry => 2
  | attr => 3
  | data => 4
  | opened => 5
  | created => 6
  | written => 7
  | statfs => 8
  | xattr => 9
  | lock => 10
  | bmap => 11
  | poll => 12
  | readdir => 13

def name : ReplyKind → String
  | none => "none"
  | empty => "empty"
  | entry => "entry"
  | attr => "attr"
  | data => "data"
  | opened => "open"
  | created => "create"
  | written => "write"
  | statfs => "statfs"
  | xattr => "xattr"
  | lock => "lock"
  | bmap => "bmap"
  | poll => "poll"
  | readdir => "readdir"

/-- Every kind, by ascending number. -/
def all : List ReplyKind :=
  [none, empty, entry, attr, data, opened, created, written, statfs, xattr, lock, bmap, poll, readdir]

/-- The kind with the given number. -/
def ofCode? (code : UInt32) : Option ReplyKind :=
  all.find? (·.code == code)

/-- The name of the kind with the given number, for any number. -/
def nameOfCode (code : UInt32) : String :=
  ((ofCode? code).map name).getD "unknown"

end ReplyKind

namespace Operation

/-- What the reply to an operation carries. -/
def replyKind : Operation → ReplyKind
  | forget .. | batchForget .. | interrupt .. | notifyReply .. => .none
  | unlink .. | rmdir .. | rename .. | release .. | fsync .. | setxattr .. | removexattr .. | flush ..
  | releasedir .. | fsyncdir .. | setlk .. | flock .. | access .. | fallocate .. => .empty
  | lookup .. | symlink .. | mknod .. | mkdir .. | link .. => .entry
  | getattr .. | setattr .. => .attr
  | readlink .. | read .. => .data
  | openFile .. | openDir .. => .opened
  | create .. => .created
  | write .. | copyFileRange .. => .written
  | statfs .. => .statfs
  | getxattr .. | listxattr .. => .xattr
  | getlk .. => .lock
  | bmap .. => .bmap
  | poll .. => .poll
  | readdir .. => .readdir

/-- Whether the kernel waits for a reply. -/
def expectsReply (op : Operation) : Bool :=
  op.replyKind != .none

end Operation

end FuseAbi
