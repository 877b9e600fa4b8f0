import FuseAbi.Argument.Format

/-!
# Arguments of operations on a node

Attributes, extended attributes, permissions and what else concerns the header's node as such.

A change of attributes carries room for every attribute and a mask that says which ones are meant. The rest
is whatever the sender left there: it is neither looked at nor refused. A time is meant by its own bit, and
where its "now" bit is set as well, that one wins and the stated time goes unread.
-/

namespace FuseAbi

/-! ## Records -/

structure GetattrArgs where
  /-- Whether a handle is given. -/
  flags : UInt32
  fh : UInt64
deriving DecidableEq, Repr

instance : Record GetattrArgs where
  layout := [.u32, .pad 4, .u64]
  ofValues := fun (flags, fh, ()) => { flags, fh }
  toValues a := (a.flags, a.fh, ())

/-- The arguments for changing attributes. -/
structure SetattrArgs where
  valid : UInt32
  fh : UInt64
  size : UInt64
  lockOwner : UInt64
  atime : UInt64
  mtime : UInt64
  ctime : UInt64
  atimensec : UInt32
  mtimensec : UInt32
  ctimensec : UInt32
  mode : UInt32
  uid : UInt32
  gid : UInt32
deriving DecidableEq, Repr

instance : Record SetattrArgs where
  layout :=
    [.u32, .pad 4, .u64, .u64, .u64, .u64, .u64, .u64, .u32, .u32, .u32, .u32, .pad 4, .u32, .u32, .pad 4]
  ofValues := fun (valid, fh, size, lockOwner, atime, mtime, ctime, atimensec, mtimensec, ctimensec, mode,
      uid, gid, ()) =>
    { valid, fh, size, lockOwner, atime, mtime, ctime, atimensec, mtimensec, ctimensec, mode, uid, gid }
  toValues a :=
    (a.valid, a.fh, a.size, a.lockOwner, a.atime, a.mtime, a.ctime, a.atimensec, a.mtimensec, a.ctimensec,
      a.mode, a.uid, a.gid, ())

structure AccessArgs where
  mask : UInt32
deriving DecidableEq, Repr

instance : Record AccessArgs where
  layout := [.u32, .pad 4]
  ofValues := fun (mask, ()) => { mask }
  toValues a := (a.mask, ())

structure SetxattrArgs where
  size : UInt32
  /-- How an attribute that is there already is treated. -/
  flags : UInt32
deriving DecidableEq, Repr

instance : Record SetxattrArgs where
  layout := [.u32, .u32]
  ofValues := fun (size, flags, ()) => { size, flags }
  toValues a := (a.size, a.flags, ())

/-- The fixed arguments for reading or listing extended attributes. -/
structure GetxattrArgs where
  /-- The room that the caller has for the answer. -/
  size : UInt32
deriving DecidableEq, Repr

instance : Record GetxattrArgs where
  layout := [.u32, .pad 4]
  ofValues := fun (size, ()) => { size }
  toValues a := (a.size, ())

structure BmapArgs where
  block : UInt64
  blocksize : UInt32
deriving DecidableEq, Repr

instance : Record BmapArgs where
  layout := [.u64, .u32, .pad 4]
  ofValues := fun (block, blocksize, ()) => { block, blocksize }
  toValues a := (a.block, a.blocksize, ())

/-! ## Changes of attributes -/

/-- The bits of the mask in a change of attributes. -/
inductive AttrBit where
  | mode | uid | gid | size | atime | mtime | fh | atimeNow | mtimeNow | lockOwner | ctime
deriving DecidableEq, Repr

def AttrBit.mask : AttrBit → UInt32
  | mode => 0x001
  | uid => 0x002
  | gid => 0x004
  | size => 0x008
  | atime => 0x010
  | mtime => 0x020
  | fh => 0x040
  | atimeNow => 0x080
  | mtimeNow => 0x100
  | lockOwner => 0x200
  | ctime => 0x400

namespace SetattrArgs

def has (a : SetattrArgs) (bit : AttrBit) : Bool :=
  hasBit a.valid bit.mask

/-- A field that is meant where its bit is set. -/
def field? {α : Type} (a : SetattrArgs) (bit : AttrBit) (value : α) : Option α :=
  if a.has bit then some value else none

/-- What becomes of a time, by its own bit and its "now" bit. -/
def timeChange (a : SetattrArgs) (bit nowBit : AttrBit) (time : Timespec) : TimeChange :=
  if a.has nowBit then .now
  else if a.has bit then .set time
  else .keep

def atimeChange (a : SetattrArgs) : TimeChange :=
  a.timeChange .atime .atimeNow { seconds := a.atime, nanoseconds := a.atimensec }

def mtimeChange (a : SetattrArgs) : TimeChange :=
  a.timeChange .mtime .mtimeNow { seconds := a.mtime, nanoseconds := a.mtimensec }

def ctime? (a : SetattrArgs) : Option Timespec :=
  a.field? .ctime { seconds := a.ctime, nanoseconds := a.ctimensec }

/-- The change that the arguments ask for. -/
def change (a : SetattrArgs) : AttrChange where
  valid := a.valid
  fh := a.field? .fh a.fh
  mode := a.field? .mode a.mode
  uid := a.field? .uid a.uid
  gid := a.field? .gid a.gid
  size := a.field? .size a.size
  atime := a.atimeChange
  mtime := a.mtimeChange
  ctime := a.ctime?
  lockOwner := a.field? .lockOwner { raw := a.lockOwner }

/-- The times that are stated, in the order in which they are checked. -/
def statedTimes (a : SetattrArgs) : List (TimeField × Timespec) :=
  (a.atimeChange.time?.map fun t => (.atime, t)).toList ++
    (a.mtimeChange.time?.map fun t => (.mtime, t)).toList ++
    (a.ctime?.map fun t => (.ctime, t)).toList

end SetattrArgs

namespace Argument

/-! ## Attributes -/

/-- Set where a handle is given to read the attributes through. -/
def getattrHandle : UInt32 := 1

def getattr : Format where
  Fixed := GetattrArgs
  tail _ := []
  toOperation h a _ := .getattr h.nodeid (if hasBit a.flags getattrHandle then some a.fh else none)

def nanosecondsPerSecond : UInt32 := 1000000000

/-- Changing attributes. A stated time with a second or more of nanoseconds is refused. -/
def setattr : Format where
  Fixed := SetattrArgs
  objection a :=
    (a.statedTimes.find? fun (_, time) => nanosecondsPerSecond ≤ time.nanoseconds).map
      fun (field, time) => { place := 0, fault := .nanoseconds field time.nanoseconds }
  tail _ := []
  toOperation h a _ := .setattr h.nodeid a.change

def access : Format where
  Fixed := AccessArgs
  tail _ := []
  toOperation h a _ := .access h.nodeid a.mask

/-! ## Extended attributes -/

/-- Setting an extended attribute: its name, then its value. -/
def setxattr : Format where
  Fixed := SetxattrArgs
  tail a := [.name xattrNameLimit, .data a.size]
  toOperation h a := fun (name, value, ()) => .setxattr h.nodeid name value a.flags

def getxattr : Format where
  Fixed := GetxattrArgs
  tail _ := [.name xattrNameLimit]
  toOperation h a := fun (name, ()) => .getxattr h.nodeid name a.size

def listxattr : Format where
  Fixed := GetxattrArgs
  tail _ := []
  toOperation h a _ := .listxattr h.nodeid a.size

def removexattr : Format where
  Fixed := Unit
  tail _ := [.name xattrNameLimit]
  toOperation h _ := fun (name, ()) => .removexattr h.nodeid name

/-! ## The node alone -/

def readlink : Format where
  Fixed := Unit
  tail _ := []
  toOperation h _ _ := .readlink h.nodeid

def statfs : Format where
  Fixed := Unit
  tail _ := []
  toOperation h _ _ := .statfs h.nodeid

def bmap : Format where
  Fixed := BmapArgs
  tail _ := []
  toOperation h a _ := .bmap h.nodeid a.block a.blocksize

end Argument

end FuseAbi
