import FuseAbi.Opcode
import FuseAbi.Text

/-!
# Why a request is refused

A request that cannot be decoded is refused for one cause. A `Fault` is that cause with the numbers that
explain it; its kind and its text are functions of it, so the two never disagree. A `DecodeError` adds
where in the request the fault was met and which opcode the request carried.
-/

namespace FuseAbi

/-- What sort of thing is wrong with a request. -/
inductive ErrorKind where
  /-- A read of a known size ran past the end of the request. -/
  | truncated
  /-- A name lacks its terminator or is over its limit. -/
  | invalidString
  /-- The length in the header disagrees with the buffer. -/
  | lengthMismatch
  | trailingData
  /-- The opcode is not decoded, or not at this minor. -/
  | unknownOpcode
  /-- A field's value is inconsistent with the rest. -/
  | malformedArgument
  /-- A kind outside the six assigned ones, by its number. -/
  | unassigned (code : UInt32)
deriving DecidableEq, Repr

namespace ErrorKind

/-- The kind with the given number; the six assigned kinds count from one. -/
def ofCode (code : UInt32) : ErrorKind :=
  if code = 1 then truncated
  else if code = 2 then invalidString
  else if code = 3 then lengthMismatch
  else if code = 4 then trailingData
  else if code = 5 then unknownOpcode
  else if code = 6 then malformedArgument
  else unassigned code

def name : ErrorKind → String
  | truncated => "Truncated"
  | invalidString => "InvalidString"
  | lengthMismatch => "LengthMismatch"
  | trailingData => "TrailingData"
  | unknownOpcode => "UnknownOpcode"
  | malformedArgument => "MalformedArgument"
  | unassigned _ => "DecodeError"

/-- The error number to answer the kernel with: an opcode that is not decoded is not implemented, anything
else is an invalid argument. -/
def errno : ErrorKind → Nat
  | unknownOpcode => 38
  | _ => 22

end ErrorKind

/-- A time that a change of attributes can set. -/
inductive TimeField where
  | atime | mtime | ctime
deriving DecidableEq, Repr

def TimeField.name : TimeField → String
  | atime => "atime"
  | mtime => "mtime"
  | ctime => "ctime"

/-- The cause for which a request is refused. -/
inductive Fault where
  /-- A read needs more bytes than the region has left. -/
  | short (need left : Nat)
  /-- The buffer does not hold a header. -/
  | noHeader (size : Nat)
  /-- A name runs to the end of the region without a terminator. -/
  | unterminated
  /-- A name has no terminator within its limit. -/
  | overlong (limit : UInt64)
  /-- The declared length does not even cover the header. -/
  | lengthBelowHeader (len : UInt32)
  | lengthAboveBuffer (len : UInt32) (size : Nat)
  | lengthBelowBuffer (len : UInt32) (size : Nat)
  | unread (left : Nat)
  | unassignedOpcode (code : UInt32)
  /-- The opcode belongs to the connection, or is otherwise not decoded. -/
  | undecodedOpcode (op : Opcode)
  | newerOpcode (op : Opcode)
  | renameFlags (flags : UInt32)
  /-- An explicit time has a second or more of nanoseconds. -/
  | nanoseconds (field : TimeField) (value : UInt32)
  /-- A lock is neither shared, nor exclusive, nor a release. -/
  | lockType (type : UInt32)
  | lockRange (start last : UInt64)
  /-- What follows a forget count is not a whole number of records. -/
  | brokenForgets (left : Nat)
  /-- A forget count disagrees with the records that follow. -/
  | forgetCount (count : UInt32) (present : Nat)
  /-- A fault that the caller words itself. -/
  | worded (kind : ErrorKind) (reason : Bytes)
deriving DecidableEq, Repr

namespace Fault

def kind : Fault → ErrorKind
  | short .. | noHeader .. => .truncated
  | unterminated | overlong .. => .invalidString
  | lengthBelowHeader .. | lengthAboveBuffer .. | lengthBelowBuffer .. => .lengthMismatch
  | unread .. => .trailingData
  | unassignedOpcode .. | undecodedOpcode .. | newerOpcode .. => .unknownOpcode
  | renameFlags .. | nanoseconds .. | lockType .. | lockRange .. | brokenForgets .. | forgetCount .. =>
    .malformedArgument
  | worded kind _ => kind

def reason : Fault → Bytes
  | short need left =>
    ascii "need " ++ decimal need ++ ascii " bytes, " ++ decimal left ++ ascii " left"
  | noHeader size =>
    ascii "request shorter than header (" ++ decimal size ++ ascii " bytes)"
  | unterminated => ascii "string is not NUL-terminated"
  | overlong limit => ascii "string longer than " ++ decimal limit.toNat ++ ascii " bytes"
  | lengthBelowHeader len =>
    ascii "declared length " ++ decimal len.toNat ++ ascii " smaller than header"
  | lengthAboveBuffer len size =>
    ascii "declared length " ++ decimal len.toNat ++ ascii " exceeds buffer of " ++ decimal size ++
      ascii " bytes"
  | lengthBelowBuffer len size =>
    ascii "declared length " ++ decimal len.toNat ++ ascii " but buffer holds " ++ decimal size ++
      ascii " bytes"
  | unread left => decimal left ++ ascii " unread argument bytes"
  | unassignedOpcode code => ascii "opcode " ++ decimal code.toNat
  | undecodedOpcode op => ascii op.name ++ ascii " is not a filesystem operation"
  | newerOpcode op => ascii op.name ++ ascii " needs protocol 7." ++ decimal op.sinceMinor
  | renameFlags flags => ascii "unknown rename flags " ++ decimal flags.toNat
  | nanoseconds field value =>
    ascii field.name ++ ascii " nanoseconds out of range: " ++ decimal value.toNat
  | lockType type => ascii "bad lock type " ++ decimal type.toNat
  | lockRange start last =>
    ascii "lock start " ++ decimal start.toNat ++ ascii " past end " ++ decimal last.toNat
  | brokenForgets left =>
    decimal left ++ ascii " bytes is not a whole number of forget records"
  | forgetCount count present =>
    ascii "count " ++ decimal count.toNat ++ ascii " but " ++ decimal present ++
      ascii " records present"
  | worded _ reason => reason

end Fault

/-- One refused request: what is wrong, where, and with which opcode. -/
structure DecodeError where
  fault : Fault
  /-- The place in the request, counted from its first byte. -/
  offset : UInt64
  /-- The opcode in the request's header, or zero where no header was read. -/
  opcode : UInt32 := 0
deriving DecidableEq, Repr

namespace DecodeError

def kind (e : DecodeError) : ErrorKind :=
  e.fault.kind

def reason (e : DecodeError) : Bytes :=
  e.fault.reason

/-- The whole message: kind, opcode and place, then the reason. A message is a text that ends at its first
zero byte, so a reason that holds one is cut off there; only a worded one can. -/
def message (e : DecodeError) : Bytes :=
  ascii e.kind.name ++ ascii " (opcode=" ++ decimal e.opcode.toNat ++ ascii ", offset=" ++
    decimal e.offset.toNat ++ ascii "): " ++ untilZero e.reason

end DecodeError

end FuseAbi
