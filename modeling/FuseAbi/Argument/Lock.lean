import FuseAbi.Argument.Format

/-!
# Arguments of lock operations

One struct serves three opcodes: asking which lock is in the way, and taking a lock with or without waiting
for it. It is checked alike for all three, the type of the lock before its range. A flag turns a lock on a
range into one on the whole file; its range still has to be in order, but shows nowhere in the operation.
-/

namespace FuseAbi

/-- A lock on a range stands on the wire as four words. -/
instance : Record FileLock where
  layout := [.u64, .u64, .u32, .u32]
  ofValues := fun (start, last, type, pid, ()) => { start, last, type, pid }
  toValues l := (l.start, l.last, l.type, l.pid, ())

/-- The arguments of a lock operation. -/
structure LockArgs where
  fh : UInt64
  owner : UInt64
  lock : FileLock
  /-- Whether the lock is on the whole file. -/
  flags : UInt32
deriving DecidableEq, Repr

instance : Record LockArgs where
  layout := [.u64, .u64, .u64, .u64, .u32, .u32, .u32, .pad 4]
  ofValues := fun (fh, owner, start, last, type, pid, flags, ()) =>
    { fh, owner, lock := { start, last, type, pid }, flags }
  toValues a :=
    (a.fh, a.owner, a.lock.start, a.lock.last, a.lock.type, a.lock.pid, a.flags, ())

namespace FileLock

/-- The type of a lock that others may share. -/
def shared : UInt32 := 0

/-- The type of a lock for oneself. -/
def exclusive : UInt32 := 1

/-- The type that gives a lock back. -/
def unlock : UInt32 := 2

def types : List UInt32 := [shared, exclusive, unlock]

end FileLock

namespace Flock

/-- The call on a whole file that a lock of the given type stands for. -/
def ofType (type : UInt32) : UInt32 :=
  if type = FileLock.shared then shared
  else if type = FileLock.exclusive then exclusive
  else unlock

/-- The call, with the bit that keeps it from waiting unless `sleep` is on. -/
def command (type : UInt32) (sleep : Bool) : UInt32 :=
  ofType type ||| bitIf (!sleep) nonblocking

end Flock

namespace Argument

/-- What is wrong with a lock, its type coming first. -/
def lockObjection (a : LockArgs) : Option Objection :=
  if a.lock.type ∉ FileLock.types then some { place := 32, fault := .lockType a.lock.type }
  else if a.lock.last < a.lock.start then
    some { place := 16, fault := .lockRange a.lock.start a.lock.last }
  else none

def getlk : Format where
  Fixed := LockArgs
  objection := lockObjection
  tail _ := []
  toOperation h a _ := .getlk { ino := h.nodeid, fh := a.fh } { raw := a.owner } a.lock

/-- Set where the lock is on the whole file. -/
def lockFlock : UInt32 := 1

/-- Taking or releasing a lock, waiting for it or not. -/
def setLock (sleep : Bool) : Format where
  Fixed := LockArgs
  objection := lockObjection
  tail _ := []
  toOperation h a _ :=
    let handle := { ino := h.nodeid, fh := a.fh }
    let owner := { raw := a.owner }
    if hasBit a.flags lockFlock then .flock handle owner (Flock.command a.lock.type sleep)
    else .setlk handle owner a.lock sleep

def setlk : Format := setLock false

def setlkw : Format := setLock true

end Argument

end FuseAbi
