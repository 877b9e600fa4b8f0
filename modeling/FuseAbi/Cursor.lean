import FuseAbi.Fault
import FuseAbi.Word

/-!
# Cursors and the reads on them

A `Cursor` stands somewhere in a region of a request: it knows the bytes ahead of it and its own place,
counted from the start of the whole request. A `Scan` is a read: it takes bytes off the front, or fails and
says why. The primitive reads below are all that ever looks at a byte.

**The law.** A primitive read takes a front part of the unread bytes and moves the place by its length, or it
leaves the cursor where it was and blames that place. A scan made of several reads that fails leaves the
cursor after the last read that went through; it never goes back.

Places are counted modulo 2 ^ 64. They are only ever reported, so a region that starts near the top of that
range is read like any other.
-/

namespace FuseAbi

/-- A position in a region: the bytes from there on, and where in the request that is. -/
structure Cursor where
  offset : UInt64
  unread : Bytes
deriving DecidableEq, Repr

/-- The cursor after the next `n` bytes. -/
def Cursor.advance (c : Cursor) (n : Nat) : Cursor where
  offset := c.offset + UInt64.ofNat n
  unread := c.unread.drop n

/-- A read at a cursor, which moves it and may fail. -/
abbrev Scan := EStateM DecodeError Cursor

namespace Scan

def offset : Scan UInt64 :=
  return (← get).offset

def remaining : Scan Nat :=
  return (← get).unread.length

/-- Refuses the request for a fault at the next byte. -/
def refuse {α : Type} (fault : Fault) : Scan α := do
  throw { fault, offset := (← offset) }

/-! ## Primitive reads -/

/-- The next `n` bytes. Whether there are as many is seen on the bytes taken, so that a read costs no more
than what it reads. -/
def take (n : Nat) : Scan Bytes := fun c =>
  let bytes := c.unread.take n
  if bytes.length = n then .ok bytes (c.advance n)
  else .error { fault := .short n c.unread.length, offset := c.offset } c

/-- A counted read goes through if the region has that many bytes left, and fails if not. -/
theorem take_run (n : Nat) (c : Cursor) :
    (take n).run c =
      if n ≤ c.unread.length then .ok (c.unread.take n) (c.advance n)
      else .error { fault := .short n c.unread.length, offset := c.offset } c := by
  have enough : (c.unread.take n).length = n ↔ n ≤ c.unread.length := by
    rw [List.length_take]
    omega
  simp only [take, EStateM.run, enough]

/-- Passes over `n` bytes. -/
def skip (n : Nat) : Scan Unit := do
  let _ ← take n

/-- The bytes before the next zero byte, which is passed over too. At most `limit` bytes may come before it,
so only the first `limit + 1` bytes are looked at; that sum is taken modulo 2 ^ 64, so under the greatest
limit there is no byte to look at and no name to find. A name that runs out of bytes is told apart from one
that is over its limit. -/
def cstring (limit : UInt64) : Scan Bytes := fun c =>
  let window := c.unread.take (limit + 1).toNat
  let name := untilZero window
  if name.length < window.length then .ok name (c.advance (name.length + 1))
  else if window.length = c.unread.length then .error { fault := .unterminated, offset := c.offset } c
  else .error { fault := .overlong limit, offset := c.offset } c

def finish : Scan Unit := fun c =>
  if c.unread.isEmpty then .ok () c
  else .error { fault := .unread c.unread.length, offset := c.offset } c

/-! ## Numbers -/

/-- The next word of `width` bytes. -/
def word (width : Nat) : Scan Nat :=
  ofLittleEndian <$> take width

def u16 : Scan UInt16 :=
  UInt16.ofNat <$> word 2

def u32 : Scan UInt32 :=
  UInt32.ofNat <$> word 4

def u64 : Scan UInt64 :=
  UInt64.ofNat <$> word 8

def i32 : Scan Int32 :=
  UInt32.toInt32 <$> u32

def i64 : Scan Int64 :=
  UInt64.toInt64 <$> u64

/-! ## Compound reads -/

/-- The same read `n` times over. -/
def many {α : Type} (s : Scan α) : (n : Nat) → Scan (List α)
  | 0 => pure []
  | n + 1 => do
    let a ← s
    let rest ← many s n
    return a :: rest

/-- The result of a read, without the cursor it leaves. -/
def eval {α : Type} (s : Scan α) (c : Cursor) : Except DecodeError α :=
  match s.run c with
  | .ok a _ => .ok a
  | .error e _ => .error e

end Scan

end FuseAbi
