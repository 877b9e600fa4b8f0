import FuseAbi.Record

/-!
# Request headers

Every request starts with forty bytes that say how long it is, what it asks, which node it is about and who
asks. `Header.decode` reads them from a buffer that may hold more: that the declared length is exactly the
buffer's is asked of a whole request, not of a header.
-/

namespace FuseAbi

/-- The envelope of a request. -/
structure Header where
  /-- The length of the whole request, these forty bytes included. -/
  len : UInt32
  opcode : UInt32
  /-- The number of the request, which its reply repeats. -/
  unique : UInt64
  /-- The node that the request is about, or the directory that a name is in. -/
  nodeid : UInt64
  uid : UInt32
  gid : UInt32
  pid : UInt32
deriving DecidableEq, Repr

instance : Record Header where
  layout := [.u32, .u32, .u64, .u64, .u32, .u32, .u32, .pad 4]
  ofValues := fun (len, opcode, unique, nodeid, uid, gid, pid, ()) =>
    { len, opcode, unique, nodeid, uid, gid, pid }
  toValues h := (h.len, h.opcode, h.unique, h.nodeid, h.uid, h.gid, h.pid, ())

namespace Header

/-- The number of bytes of a header. -/
def size : Nat := 40

/-- Reads the header at the start of a buffer. The declared length must cover the header and lie within the
buffer. -/
def decode (buffer : Bytes) : Except DecodeError Header := do
  if buffer.length < size then
    throw { fault := .noHeader buffer.length, offset := UInt64.ofNat buffer.length }
  let header : Header ← Record.read.eval { offset := 0, unread := buffer.take size }
  if header.len.toNat < size then
    throw { fault := .lengthBelowHeader header.len, offset := 0, opcode := header.opcode }
  if buffer.length < header.len.toNat then
    throw { fault := .lengthAboveBuffer header.len buffer.length, offset := 0, opcode := header.opcode }
  return header

/-- A buffer with another length declared in its first four bytes. A buffer without as many stays as it is. -/
def declare (len : UInt32) (buffer : Bytes) : Bytes :=
  if buffer.length < 4 then buffer else littleEndian 4 len.toNat ++ buffer.drop 4

example : Record.size Header = size := rfl

end Header

end FuseAbi
