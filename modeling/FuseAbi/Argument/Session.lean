import FuseAbi.Argument.Format

/-!
# Arguments of what the kernel tells

Requests that expect no reply: dropped references, cancelled requests, and data that the filesystem had asked
the kernel for.
-/

namespace FuseAbi

structure ForgetArgs where
  nlookup : UInt64
deriving DecidableEq, Repr

instance : Record ForgetArgs where
  layout := [.u64]
  ofValues := fun (nlookup, ()) => { nlookup }
  toValues a := (a.nlookup, ())

/-- The fixed arguments for dropping references to several nodes. -/
structure BatchForgetArgs where
  count : UInt32
deriving DecidableEq, Repr

instance : Record BatchForgetArgs where
  layout := [.u32, .pad 4]
  ofValues := fun (count, ()) => { count }
  toValues a := (a.count, ())

structure InterruptArgs where
  unique : UInt64
deriving DecidableEq, Repr

instance : Record InterruptArgs where
  layout := [.u64]
  ofValues := fun (unique, ()) => { unique }
  toValues a := (a.unique, ())

/-- The fixed arguments of data that the filesystem had asked for. -/
structure NotifyReplyArgs where
  offset : UInt64
  size : UInt32
deriving DecidableEq, Repr

instance : Record NotifyReplyArgs where
  layout := [.pad 8, .u64, .u32, .pad 20]
  ofValues := fun (offset, size, ()) => { offset, size }
  toValues a := (a.offset, a.size, ())

namespace Argument

def forget : Format where
  Fixed := ForgetArgs
  tail _ := []
  toOperation h a _ := .forget h.nodeid a.nlookup

def batchForget : Format where
  Fixed := BatchForgetArgs
  tail a := [.forgets a.count]
  toOperation _ _ := fun (entries, ()) => .batchForget entries

def interrupt : Format where
  Fixed := InterruptArgs
  tail _ := []
  toOperation _ a _ := .interrupt a.unique

/-- Data that the filesystem had asked for; the request's own number says which demand it answers. -/
def notifyReply : Format where
  Fixed := NotifyReplyArgs
  tail a := [.data a.size]
  toOperation h a := fun (data, ()) => .notifyReply h.unique h.nodeid a.offset data

end Argument

end FuseAbi
