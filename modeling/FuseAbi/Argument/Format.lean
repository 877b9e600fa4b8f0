import FuseAbi.Header
import FuseAbi.Operation

/-!
# Argument formats

The arguments of an opcode follow the header: first a fixed record, then parts whose number and size the
record may decide. A `Format` says this once for an opcode, together with the values of the record that are
refused and the operation that comes out. `Format.read` is the only walk over a format, so a fact about it holds
for every opcode at once.

The order in which faults are met is part of a format. The whole record is read before any of its values is
refused, and all of its values are looked at before the first part that follows. A fault in the record is
blamed on a place inside it, counted from the start of the arguments.
-/

namespace FuseAbi.Argument

/-- The most bytes of a name in a directory. -/
def nameLimit : UInt64 := 1024

/-- The most bytes of a symbolic link's target. -/
def targetLimit : UInt64 := 4096

/-- The most bytes of an extended attribute's name. -/
def xattrNameLimit : UInt64 := 255

/-! ## Parts after the record -/

/-- A part of the arguments whose size is not fixed. -/
inductive Part where
  /-- A name of at most so many bytes, with its terminator. -/
  | name (limit : UInt64)
  /-- So many bytes of data. -/
  | data (size : UInt32)
  /-- So many forget records, which must fill the rest of the arguments. -/
  | forgets (count : UInt32)
deriving DecidableEq, Repr

/-- A dropped reference stands on the wire as two words. -/
instance : Record Forget where
  layout := [.u64, .u64]
  ofValues := fun (nodeid, nlookup, ()) => { nodeid, nlookup }
  toValues f := (f.nodeid, f.nlookup, ())

namespace Part

def Value : Part → Type
  | name _ => Bytes
  | data _ => Bytes
  | forgets _ => List Forget

/-- Reads forget records that must fill the region. A rest that is no whole number of records is refused
before the count is looked at. -/
def readForgets (count : UInt32) : Scan (List Forget) := do
  let left ← Scan.remaining
  let width := Record.size Forget
  if left % width ≠ 0 then
    Scan.refuse (.brokenForgets left)
  else if left / width ≠ count.toNat then
    Scan.refuse (.forgetCount count (left / width))
  else
    Scan.many Record.read count.toNat

def read : (part : Part) → Scan part.Value
  | name limit => Scan.cstring limit
  | data size => Scan.take size.toNat
  | forgets count => readForgets count

/-- A part as items to be written. -/
def items : (part : Part) → part.Value → List Item
  | name _, (text : Bytes) => [.cstring text]
  | data _, (bytes : Bytes) => [.bytes bytes]
  | forgets _, (entries : List Forget) => entries.flatMap Record.items

end Part

def Parts : List Part → Type
  | [] => Unit
  | part :: rest => part.Value × Parts rest

namespace Parts

/-- Reads parts in order. -/
def read : (parts : List Part) → Scan (Parts parts)
  | [] => pure ()
  | part :: rest => do
    let value ← part.read
    let values ← read rest
    return (value, values)

/-- Parts as items to be written, in order. -/
def items : (parts : List Part) → Parts parts → List Item
  | [], _ => []
  | part :: rest, (value, values) => part.items value ++ items rest values

end Parts

/-! ## Formats -/

/-- A value in the record that is refused. -/
structure Objection where
  place : UInt64
  fault : Fault
deriving DecidableEq, Repr

/-- How the arguments of an opcode stand on the wire, and what they mean. -/
structure Format where
  Fixed : Type
  [record : Record Fixed]
  /-- The first value in the record that is refused. -/
  objection : Fixed → Option Objection := fun _ => none
  /-- The parts that follow the record. -/
  tail : Fixed → List Part
  /-- The operation that header and arguments ask for. -/
  toOperation : Header → (fixed : Fixed) → Parts (tail fixed) → Operation

attribute [instance] Format.record

namespace Format

/-- Reads the arguments that a header announces. Bytes after them are left alone. -/
def read (format : Format) (header : Header) : Scan Operation := do
  let start ← Scan.offset
  let fixed : format.Fixed ← Record.read
  match format.objection fixed with
  | some objection => throw { fault := objection.fault, offset := start + objection.place }
  | none =>
    let parts ← Parts.read (format.tail fixed)
    return format.toOperation header fixed parts

end Format

end FuseAbi.Argument
