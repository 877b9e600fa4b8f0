import FuseAbi.Argument.Table
import FuseAbi.Minor

/-!
# Requests

A whole request is a header and the arguments of its opcode, and nothing else: the header's length is the
length of the buffer, and the arguments use every byte of it.

**The order of the checks.** First that there is a header, then its length, then the opcode, then the
arguments, then that nothing is left over; the first that fails is the one that is reported. From the length
on, a fault carries the opcode of the header. Faults in the arguments are placed in the whole request, so
none of them lies before the end of the header.
-/

namespace FuseAbi

/-- A decoded request. -/
structure Request where
  header : Header
  operation : Operation
deriving DecidableEq, Repr

/-- The format of the opcode with the given number, where it is decoded at the minor. -/
def Minor.format (minor : Minor) (code : UInt32) : Except Fault Argument.Format :=
  match Opcode.ofCode? code with
  | none => .error (.unassignedOpcode code)
  | some op =>
    match op.format? with
    | none => .error (.undecodedOpcode op)
    | some format => if minor.number < op.sinceMinor then .error (.newerOpcode op) else .ok format

/-- The place of the opcode in a header. -/
def Header.opcodePlace : UInt64 := 4

namespace Request

/-- Reads the arguments that a header announces from the bytes behind it, and all of them. -/
def decodeArguments (format : Argument.Format) (header : Header) (arguments : Bytes) :
    Except DecodeError Operation :=
  let scan := do
    let op ← format.read header
    Scan.finish
    return op
  scan.eval { offset := UInt64.ofNat Header.size, unread := arguments }

/-- Reads what follows a header that was read from the start of a buffer. -/
def decodeBody (minor : Minor) (header : Header) (buffer : Bytes) : Except DecodeError Operation :=
  if header.len.toNat ≠ buffer.length then
    .error { fault := .lengthBelowBuffer header.len buffer.length, offset := 0 }
  else
    match minor.format header.opcode with
    | .error fault => .error { fault, offset := Header.opcodePlace }
    | .ok format => decodeArguments format header (buffer.drop Header.size)

/-- Reads a request that fills a buffer. What is wrong behind the header is reported with its opcode. -/
def decode (minor : Minor) (buffer : Bytes) : Except DecodeError Request :=
  match Header.decode buffer with
  | .error e => .error e
  | .ok header =>
    match decodeBody minor header buffer with
    | .error e => .error { e with opcode := header.opcode }
    | .ok operation => .ok { header, operation }

end Request

end FuseAbi
