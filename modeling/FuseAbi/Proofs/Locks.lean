import FuseAbi.Proofs.Naming

/-!
# The checks on a lock

Asking for a lock, taking one and waiting for one share a record and its checks. So what is refused does not
depend on which of the three is asked for (`LockCall`): `lockRefusal` says it of the bytes and their place alone,
and every call is refused just where it says so (`LockCall.run_eq`). The checks are made in one order: the size
of the record, the type of the lock, its range.

What is let through is a lock of one of three types. A flag makes it a lock on the whole file, and then the type
and the wish not to wait are written into one number; `lockTaken` reads both back.
-/

namespace FuseAbi.Kernel

open Argument

/-! ## The record that is decoded -/

/-- The lock of some arguments, by the places of its words. -/
def lockAt (s : Bytes) : FileLock where
  start := longAt s 16
  last := longAt s 24
  type := wordAt s 32
  pid := wordAt s 36

/-- The record of a lock, by the places of its words. -/
def lockArgs (s : Bytes) : LockArgs where
  fh := longAt s 0
  owner := longAt s 8
  lock := lockAt s
  flags := wordAt s 40

theorem ofBytes_eq_lockArgs (s : Bytes) : (Record.ofBytes s : LockArgs) = lockArgs s := by
  rw [← List.drop_zero (l := s)]
  simp only [Record.ofBytes, Record.layout, Values.ofBytes_drop_u32, Values.ofBytes_drop_u64]
  rfl

/-- The flag that makes a lock one on the whole file is the lowest bit. -/
def wholeFile (s : Bytes) : Bool :=
  (wordAt s 40).toNat.testBit 0

theorem hasBit_lockFlock (s : Bytes) : hasBit (lockArgs s).flags lockFlock = wholeFile s :=
  hasBit_eq_testBit (i := 0) rfl _

/-! ## Three calls -/

/-- What may be asked for with the arguments of a lock. -/
inductive LockCall where
  /-- Which lock is in the way. -/
  | ask
  /-- The lock itself, waiting for it where `sleep` is on. -/
  | take (sleep : Bool)
deriving DecidableEq, Repr

namespace LockCall

def format : LockCall → Format
  | ask => getlk
  | take sleep => setLock sleep

/-- The operation that a call comes to where nothing is wrong. -/
def operation (header : Header) (s : Bytes) : LockCall → Operation
  | ask => .getlk { ino := header.nodeid, fh := longAt s 0 } { raw := longAt s 8 } (lockAt s)
  | take sleep =>
    if wholeFile s then
      .flock { ino := header.nodeid, fh := longAt s 0 } { raw := longAt s 8 }
        (Flock.command (wordAt s 32) sleep)
    else .setlk { ino := header.nodeid, fh := longAt s 0 } { raw := longAt s 8 } (lockAt s) sleep

end LockCall

/-- What is wrong with the arguments of a lock, if anything is, and where the cursor is left then. The call has
no part in it. -/
def lockRefusal (c : Cursor) : Option (DecodeError × Cursor) :=
  if c.unread.length < 48 then
    let stop := layoutStop (Record.layout LockArgs) c.unread.length
    some ({ fault := .short stop.2 (c.unread.length - stop.1), offset := c.offset + UInt64.ofNat stop.1 },
      c.advance stop.1)
  else
    (lockObjection (lockArgs c.unread)).map fun objection =>
      ({ fault := objection.fault, offset := c.offset + objection.place }, c.advance 48)

variable {header : Header} {c : Cursor}

/-- Every call is refused for the same reasons, and comes to its own operation otherwise. -/
theorem LockCall.run_eq (call : LockCall) :
    (call.format.read header).run c =
      match lockRefusal c with
      | some (e, d) => .error e d
      | none => .ok (call.operation header c.unread) (c.advance 48) := by
  have hfixed := ofBytes_eq_lockArgs c.unread
  unfold lockRefusal
  by_cases hsize : c.unread.length < 48
  case pos =>
    rw [if_pos hsize]
    cases call <;> exact Format.read_of_lt hsize
  rw [if_neg hsize]
  have hle : 48 ≤ c.unread.length := Nat.le_of_not_lt hsize
  cases hobj : lockObjection (lockArgs c.unread) with
  | some objection =>
    rw [← hfixed] at hobj
    cases call with
    | ask =>
      have hsize : Record.size getlk.Fixed ≤ c.unread.length := hle
      exact Format.read_of_objection hsize hobj
    | take sleep =>
      have hsize : Record.size (setLock sleep).Fixed ≤ c.unread.length := hle
      exact Format.read_of_objection hsize hobj
  | none =>
    cases call with
    | ask => exact Format.read_of_noObjection getlk header hle hfixed hobj
    | take sleep =>
      refine (Format.read_of_noObjection (setLock sleep) header hle hfixed hobj).trans ?_
      rw [operation, ← hasBit_lockFlock]
      rfl

/-! ## The checks in their order -/

theorem mem_types_iff (type : UInt32) : type ∈ FileLock.types ↔ type.toNat ≤ 2 := by
  simp only [FileLock.types, FileLock.shared, FileLock.exclusive, FileLock.unlock, List.mem_cons,
    List.not_mem_nil, or_false, ← UInt32.toNat_inj, UInt32.reduceToNat]
  omega

theorem lockRefusal_eq_none :
    lockRefusal c = none ↔ 48 ≤ c.unread.length ∧ (wordAt c.unread 32).toNat ≤ 2 ∧
      (longAt c.unread 16).toNat ≤ (longAt c.unread 24).toNat := by
  unfold lockRefusal
  split
  next hsize => exact iff_of_false (Option.some_ne_none _) (fun h => by omega)
  next hsize =>
    rw [Option.map_eq_none_iff, lockObjection_eq_none, and_iff_right (Nat.le_of_not_lt hsize),
      ← mem_types_iff, ← UInt64.le_iff_toNat_le]
    rfl

theorem lockRefusal_of_type (h : 48 ≤ c.unread.length) (htype : 2 < (wordAt c.unread 32).toNat) :
    lockRefusal c =
      some ({ fault := .lockType (wordAt c.unread 32), offset := c.offset + 32 }, c.advance 48) := by
  have hunknown : (lockArgs c.unread).lock.type ∉ FileLock.types :=
    fun hmem => absurd ((mem_types_iff _).mp hmem) (Nat.not_le.mpr htype)
  rw [lockRefusal, if_neg (Nat.not_lt.mpr h), lockObjection, if_pos hunknown]
  rfl

theorem lockRefusal_of_range (h : 48 ≤ c.unread.length) (htype : (wordAt c.unread 32).toNat ≤ 2)
    (hrange : (longAt c.unread 24).toNat < (longAt c.unread 16).toNat) :
    lockRefusal c =
      some ({ fault := .lockRange (longAt c.unread 16) (longAt c.unread 24), offset := c.offset + 16 },
        c.advance 48) := by
  have hknown : ¬ (lockArgs c.unread).lock.type ∉ FileLock.types := not_not_intro ((mem_types_iff _).mpr htype)
  have hpast : (lockArgs c.unread).lock.last < (lockArgs c.unread).lock.start :=
    UInt64.lt_iff_toNat_lt.mpr hrange
  rw [lockRefusal, if_neg (Nat.not_lt.mpr h), lockObjection, if_neg hknown, if_pos hpast]
  rfl

/-- What is to come of the arguments of a lock at a cursor, be it asked for or taken. -/
structure ChecksLock (header : Header) (c : Cursor) (call : LockCall) : Prop where
  /-- A lock is let through exactly when its record is whole, its type known and its range in order. -/
  ok_iff : (∃ op d, (call.format.read header).run c = .ok op d) ↔
    48 ≤ c.unread.length ∧ (wordAt c.unread 32).toNat ≤ 2 ∧
      (longAt c.unread 16).toNat ≤ (longAt c.unread 24).toNat
  /-- Without a whole record, nothing else is looked at. -/
  truncated : c.unread.length < 48 →
    ∃ e d, (call.format.read header).run c = .error e d ∧ e.kind = .truncated
  /-- A type that is not known is refused whatever the range is. -/
  unknownType : 48 ≤ c.unread.length → 2 < (wordAt c.unread 32).toNat →
    ∃ e d, (call.format.read header).run c = .error e d ∧ e.kind = .malformedArgument ∧
      e.offset = c.offset + 32 ∧ e.reason = ascii "bad lock type " ++ decimal (wordAt c.unread 32).toNat
  /-- A range that ends before it starts is refused, also where a lock on the whole file is wanted. -/
  brokenRange : 48 ≤ c.unread.length → (wordAt c.unread 32).toNat ≤ 2 →
    (longAt c.unread 24).toNat < (longAt c.unread 16).toNat →
    ∃ e d, (call.format.read header).run c = .error e d ∧ e.kind = .malformedArgument ∧
      e.offset = c.offset + 16 ∧
      e.reason = ascii "lock start " ++ decimal (longAt c.unread 16).toNat ++ ascii " past end " ++
        decimal (longAt c.unread 24).toNat

namespace LockCall

theorem ok_iff (call : LockCall) {op : Operation} {d : Cursor} :
    (call.format.read header).run c = .ok op d ↔
      lockRefusal c = none ∧ op = call.operation header c.unread ∧ d = c.advance 48 := by
  rw [call.run_eq]
  cases lockRefusal c with
  | none => simp only [EStateM.Result.ok.injEq, true_and, eq_comm]
  | some refusal => simp only [reduceCtorEq, false_and]

theorem error_iff (call : LockCall) {e : DecodeError} {d : Cursor} :
    (call.format.read header).run c = .error e d ↔ lockRefusal c = some (e, d) := by
  rw [call.run_eq]
  cases lockRefusal c with
  | none => simp only [reduceCtorEq]
  | some refusal => simp only [EStateM.Result.error.injEq, Option.some.injEq, Prod.ext_iff]

theorem checksLock (call : LockCall) : ChecksLock header c call where
  ok_iff := by
    simp only [call.ok_iff, exists_and_left, exists_eq, and_true]
    exact lockRefusal_eq_none
  truncated hsize := by
    have hrefusal : lockRefusal c = some _ := if_pos hsize
    exact ⟨_, _, call.error_iff.mpr hrefusal, rfl⟩
  unknownType hsize htype :=
    ⟨_, _, call.error_iff.mpr (lockRefusal_of_type hsize htype), rfl, rfl, rfl⟩
  brokenRange hsize htype hrange :=
    ⟨_, _, call.error_iff.mpr (lockRefusal_of_range hsize htype hrange), rfl, rfl, rfl⟩

end LockCall

/-! ## What is taken -/

/-- The type of a lock that an operation takes, and whether it waits for it. -/
def lockTaken : Operation → Option (UInt32 × Bool)
  | .setlk _ _ lock sleep => some (lock.type, sleep)
  | .flock _ _ command => some (flockType command, !hasBit command Flock.nonblocking)
  | _ => none

/-- The call on a whole file for each type of lock, with the bit that keeps it from waiting. -/
theorem command_of_types {type : UInt32} (h : type ∈ FileLock.types) (sleep : Bool) :
    ∃ command, (type, command) ∈ [((0 : UInt32), (1 : UInt32)), (1, 2), (2, 8)] ∧
      Flock.command type sleep = if sleep then command else command ||| 4 := by
  simp only [FileLock.types, List.mem_cons, List.not_mem_nil, or_false] at h
  rcases h with rfl | rfl | rfl
  · exact ⟨1, by decide, by cases sleep <;> rfl⟩
  · exact ⟨2, by decide, by cases sleep <;> rfl⟩
  · exact ⟨8, by decide, by cases sleep <;> rfl⟩

/-- Type and wish to wait are read back, on a range and on the whole file. -/
theorem lockTaken_operation {s : Bytes} (h : wordAt s 32 ∈ FileLock.types) (sleep : Bool) :
    lockTaken ((LockCall.take sleep).operation header s) = some (wordAt s 32, sleep) := by
  rw [LockCall.operation]
  split
  · obtain ⟨htype, hcommand⟩ := flockType_command h sleep
    rw [lockTaken, htype, hasBit_flockCommands hcommand, Bool.not_not]
  · rfl

/-- Locks are checked alike, whatever is asked for with them, and what is let through says what was asked for.
Over any arguments and at any base, the three calls let the same through and fail with the same error otherwise.
Asking names the lock itself. Taking one names a call on the whole file exactly where the lowest flag is set, by
the type of the lock and with the bit against waiting where the caller does not wait, and the lock itself
otherwise; either way type and waiting can be told from the operation. -/
theorem locks_checked_alike (header : Header) (base : UInt64) (s : Bytes) :
    let start : Cursor := { offset := base, unread := s }
    let handle : Handle := { ino := header.nodeid, fh := longAt s 0 }
    let owner : LockOwner := { raw := longAt s 8 }
    (∀ call, ChecksLock header start call) ∧
    (∀ (call call' : LockCall) (e : DecodeError) (d : Cursor),
      (call.format.read header).run start = .error e d ↔ (call'.format.read header).run start = .error e d) ∧
    (∀ op d, (getlk.read header).run start = .ok op d →
      op = .getlk handle owner (lockAt s) ∧ d = start.advance 48) ∧
    ∀ sleep op d, ((setLock sleep).read header).run start = .ok op d →
      (if (wordAt s 40).toNat.testBit 0 then
        ∃ command, (wordAt s 32, command) ∈ [((0 : UInt32), (1 : UInt32)), (1, 2), (2, 8)] ∧
          op = .flock handle owner (if sleep then command else command ||| 4)
      else op = .setlk handle owner (lockAt s) sleep) ∧
      lockTaken op = some (wordAt s 32, sleep) ∧ d = start.advance 48 := by
  intro start handle owner
  refine ⟨fun call => call.checksLock, fun call call' e d => call.error_iff.trans call'.error_iff.symm,
    fun op d hask => ?_, fun sleep op d htake => ?_⟩
  · obtain ⟨-, hop, hd⟩ := LockCall.ask.ok_iff.mp hask
    exact ⟨hop, hd⟩
  · obtain ⟨hnone, rfl, hd⟩ := (LockCall.take sleep).ok_iff.mp htake
    obtain ⟨-, htoNat, -⟩ := lockRefusal_eq_none.mp hnone
    have htype : wordAt s 32 ∈ FileLock.types := (mem_types_iff _).mpr htoNat
    refine ⟨?_, lockTaken_operation htype sleep, hd⟩
    obtain ⟨command, hmem, hcommand⟩ := command_of_types htype sleep
    have hoperation : (LockCall.take sleep).operation header start.unread =
        if (wordAt s 40).toNat.testBit 0 then .flock handle owner (Flock.command (wordAt s 32) sleep)
        else .setlk handle owner (lockAt s) sleep := rfl
    split
    next hflag => exact ⟨command, hmem, by rw [hoperation, if_pos hflag, hcommand]⟩
    next hflag => rw [hoperation, if_neg hflag]

/-- The arguments of a lock on open file 9 for owner 3, with dirty padding. -/
def lockBytes (start last : UInt64) (type flags : UInt32) : Bytes :=
  Item.encodeAll [.u64 9, .u64 3, .u64 start, .u64 last, .u32 type, .u32 77, .u32 flags, .u32 0xFFFFFFFF]

/-- A type above the signed numbers is refused before a broken range is, at a place that wraps around; and a lock
on the whole file that waits is told from its number alone. -/
theorem locks_checked_alike_wholeFile :
    (48 ≤ (lockBytes 1 0 0xFFFFFFFF 1).length ∧ 2 < (wordAt (lockBytes 1 0 0xFFFFFFFF 1) 32).toNat ∧
      ∃ e d,
        (getlk.read (Header.peek [])).run
            { offset := 0xFFFFFFFFFFFFFFF8, unread := lockBytes 1 0 0xFFFFFFFF 1 } = .error e d ∧
        ((setLock false).read (Header.peek [])).run
            { offset := 0xFFFFFFFFFFFFFFF8, unread := lockBytes 1 0 0xFFFFFFFF 1 } = .error e d ∧
        e.offset = 24) ∧
      ∃ op d,
        ((setLock true).read (Header.peek [])).run { offset := 40, unread := lockBytes 5 5 1 3 } = .ok op d ∧
        op = .flock { ino := 0, fh := 9 } { raw := 3 } 2 ∧ lockTaken op = some (1, true) := by
  have hlong : 48 ≤ (lockBytes 1 0 0xFFFFFFFF 1).length := by decide
  have htype : 2 < (wordAt (lockBytes 1 0 0xFFFFFFFF 1) 32).toNat := by decide
  obtain ⟨hchecks, halike, -, -⟩ :=
    locks_checked_alike (Header.peek []) 0xFFFFFFFFFFFFFFF8 (lockBytes 1 0 0xFFFFFFFF 1)
  obtain ⟨e, d, herror, -, hplace, -⟩ := (hchecks .ask).unknownType hlong htype
  have hsame := (halike .ask (.take false) e d).mp herror
  obtain ⟨hchecks', -, -, htaken⟩ := locks_checked_alike (Header.peek []) 40 (lockBytes 5 5 1 3)
  obtain ⟨op, d', hok⟩ := (hchecks' (.take true)).ok_iff.mpr (by decide)
  obtain ⟨hop, hback, -⟩ := htaken true op d' hok
  have hflag : (wordAt (lockBytes 5 5 1 3) 40).toNat.testBit 0 = true := by decide
  rw [if_pos hflag] at hop
  obtain ⟨command, hmem, rfl⟩ := hop
  have hcommand : command = 2 := by
    have htypeAt : wordAt (lockBytes 5 5 1 3) 32 = 1 := by decide
    rw [htypeAt] at hmem
    simpa using hmem
  subst hcommand
  exact ⟨⟨hlong, htype, e, d, herror, hsame, hplace⟩, _, d', hok, by decide, hback.trans (by decide)⟩

end FuseAbi.Kernel
