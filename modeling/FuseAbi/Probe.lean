import FuseAbi.Cursor

/-!
# Probes

A probe is a primitive read as data, so that a list of them can run one after the other on one cursor. The
run goes on after a failure: a primitive read that fails leaves the cursor where it was, and the probes after
it start from there.
-/

namespace FuseAbi

/-- One primitive read, as data. -/
inductive Probe where
  | u16
  | u32
  | u64
  | i32
  | i64
  | bytes (n : UInt64)
  /-- So many bytes, passed over. -/
  | skip (n : UInt64)
  /-- A name of at most so many bytes. -/
  | cstring (limit : UInt64)
  | finish
deriving DecidableEq, Repr

/-- What a primitive read gives. -/
inductive Reading where
  | u16 (value : UInt16)
  | u32 (value : UInt32)
  | u64 (value : UInt64)
  | i32 (value : Int32)
  | i64 (value : Int64)
  | bytes (value : Bytes)
  /-- A name without its terminator. -/
  | cstring (value : Bytes)
  /-- Nothing: bytes were passed over, or the region was at its end. -/
  | nothing
deriving DecidableEq, Repr

namespace Probe

def scan : Probe → Scan Reading
  | u16 => .u16 <$> Scan.u16
  | u32 => .u32 <$> Scan.u32
  | u64 => .u64 <$> Scan.u64
  | i32 => .i32 <$> Scan.i32
  | i64 => .i64 <$> Scan.i64
  | bytes n => .bytes <$> Scan.take n.toNat
  | skip n => (fun _ => .nothing) <$> Scan.skip n.toNat
  | cstring limit => .cstring <$> Scan.cstring limit
  | finish => (fun _ => .nothing) <$> Scan.finish

/-- What a probe gives at a cursor, and the cursor it leaves, whether it goes through or not. -/
def run (p : Probe) (c : Cursor) : Except DecodeError Reading × Cursor :=
  match p.scan.run c with
  | .ok value c => (.ok value, c)
  | .error e c => (.error e, c)

/-- The outcomes of a list of probes, each with the cursor it leaves. -/
def runAll : List Probe → Cursor → List (Except DecodeError Reading × Cursor)
  | [], _ => []
  | p :: rest, c =>
    let outcome := p.run c
    outcome :: runAll rest outcome.2

end Probe

end FuseAbi
