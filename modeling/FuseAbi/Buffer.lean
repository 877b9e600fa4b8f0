import FuseAbi.Word

/-!
# Writing a buffer

The other direction of the reads on a cursor: an `Item` is one value as it stands on the wire, and a buffer
grows by the bytes of one item after the other. Besides growing, a buffer can have single bytes overwritten,
and it can be handed over, which leaves it empty.
-/

namespace FuseAbi

/-- A value to be written. -/
inductive Item where
  | u16 (value : UInt16)
  | u32 (value : UInt32)
  | u64 (value : UInt64)
  | bytes (value : Bytes)
  /-- A name, to which a terminator is added. -/
  | cstring (name : Bytes)
  | zeros (n : Nat)
deriving DecidableEq, Repr

namespace Item

def encode : Item → Bytes
  | u16 value => littleEndian 2 value.toNat
  | u32 value => littleEndian 4 value.toNat
  | u64 value => littleEndian 8 value.toNat
  | bytes value => value
  | cstring name => name ++ [0]
  | zeros n => List.replicate n 0

/-- The bytes of a list of items, one after the other. -/
def encodeAll (items : List Item) : Bytes :=
  items.flatMap encode

end Item

namespace Buffer

/-- One change to a buffer. -/
inductive Edit where
  /-- Adds an item at the end. -/
  | put (item : Item)
  /-- Overwrites the byte at an index. An index past the end changes nothing. -/
  | set (index : Nat) (value : UInt8)
  /-- Hands the bytes over and leaves the buffer empty. -/
  | release
deriving DecidableEq, Repr

/-- The buffer after a change. -/
def Edit.apply (buffer : Bytes) : Edit → Bytes
  | put item => buffer ++ item.encode
  | set index value => buffer.set index value
  | release => []

/-- The bytes that a change hands over. -/
def Edit.released (buffer : Bytes) : Edit → Option Bytes
  | release => some buffer
  | _ => none

/-- The buffers after each change in turn, each with the bytes that the change handed over. -/
def trace : (buffer : Bytes) → List Edit → List (Option Bytes × Bytes)
  | _, [] => []
  | buffer, e :: rest => (e.released buffer, e.apply buffer) :: trace (e.apply buffer) rest

end Buffer

end FuseAbi
