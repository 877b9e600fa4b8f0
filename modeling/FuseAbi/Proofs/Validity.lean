import FuseAbi.Proofs.Flags
import FuseAbi.Proofs.KernelLayout
import FuseAbi.Proofs.Part

/-!
# Which values are let through

Decoding refuses a name for its length, a change of attributes for the nanoseconds of a time, a move for its
flags, and a lock for its type or its range. Each of them is let through exactly when it is that of a
well-formed operation.
-/

namespace FuseAbi.Kernel

open Argument

attribute [ext] AttrChange

/-! ## Names -/

theorem legible_name_iff {limit : UInt64} {n : Nat} (hlimit : (limit + 1).toNat = n + 1) {text : Bytes} :
    Part.Legible (.name limit) text ↔ IsName n text := by
  have hlegible : Part.Legible (.name limit) text ↔ 0 ∉ text ∧ text.length < (limit + 1).toNat := Iff.rfl
  rw [hlegible, hlimit, Nat.lt_succ_iff]
  rfl

/-! ## Changes of attributes -/

/-- A change of attributes is refused for a stated time with a second or more of nanoseconds. -/
theorem setattr_objection_eq_none {a : SetattrArgs} :
    setattr.objection a = none ↔
      (∀ time ∈ a.change.atime.time?, time.nanoseconds < 1000000000) ∧
      (∀ time ∈ a.change.mtime.time?, time.nanoseconds < 1000000000) ∧
      ∀ time ∈ a.change.ctime, time.nanoseconds < 1000000000 := by
  have hobjection : setattr.objection a =
      (a.statedTimes.find? fun stated => nanosecondsPerSecond ≤ stated.2.nanoseconds).map
        fun stated => { place := 0, fault := .nanoseconds stated.1 stated.2.nanoseconds } := rfl
  -- a time in the list is one of the three, so a bound on the list is one on each of them
  have hstated {time? : Option Timespec} {field : TimeField} :
      (∀ stated ∈ (time?.map fun t => (field, t)).toList,
        ¬ decide (nanosecondsPerSecond ≤ stated.2.nanoseconds) = true) ↔
      ∀ time ∈ time?, time.nanoseconds < 1000000000 := by
    cases time? with
    | none => simp
    | some time =>
      simp only [Option.map_some, Option.toList_some, List.mem_singleton, forall_eq, Option.mem_some_iff,
        forall_eq']
      exact (not_congr decide_eq_true_iff).trans UInt32.not_le
  rw [hobjection, Option.map_eq_none_iff, List.find?_eq_none, SetattrArgs.statedTimes,
    List.forall_mem_append, List.forall_mem_append, and_assoc]
  exact and_congr hstated (and_congr hstated hstated)

theorem TimeFits.nanoseconds_lt {valid bit nowBit : UInt32} {change : TimeChange}
    (h : TimeFits valid bit nowBit change) : ∀ time ∈ change.time?, time.nanoseconds < 1000000000 := by
  intro time htime
  cases change with
  | keep | now => cases htime
  | set stated =>
    cases htime
    exact h.2.2

/-! ## Moves -/

theorem rename2_objection_eq_none {a : Rename2Args} : rename2.objection a = none ↔ a.flags < 8 := by
  have hobjection : rename2.objection a =
      if hasBit a.flags (~~~renameFlags) then some { place := 8, fault := .renameFlags a.flags }
      else none := rfl
  rw [hobjection, ← hasBit_not_seven]
  split
  next hflags =>
    refine ⟨fun h => absurd h (Option.some_ne_none _), fun h => ?_⟩
    exact absurd (hflags.symm.trans h) (by decide)
  next hflags => exact ⟨fun _ => Bool.eq_false_iff.mpr hflags, fun _ => rfl⟩

/-! ## Locks -/

theorem lockObjection_eq_none {a : LockArgs} : lockObjection a = none ↔ LockFits a.lock := by
  unfold lockObjection LockFits
  split
  next htype => exact ⟨fun h => absurd h (Option.some_ne_none _), fun h => absurd h.1 htype⟩
  next htype =>
    rw [not_not] at htype
    split
    next hrange =>
      refine ⟨fun h => absurd h (Option.some_ne_none _), fun h => ?_⟩
      exact absurd hrange (UInt64.not_lt.mpr h.2)
    next hrange => exact ⟨fun _ => ⟨htype, UInt64.not_lt.mp hrange⟩, fun _ => rfl⟩

/-- The calls on a whole file that are made under the opcode that waits, or under the one that does not. -/
def flockCommands (sleep : Bool) : List UInt32 :=
  flockCalls.map (· ||| bitIf (!sleep) Flock.nonblocking)

theorem flockCommands_true : flockCommands true = flockCalls := by
  decide

/-- A call on a whole file is written with the type of lock that it is read back from. -/
theorem command_flockType {command : UInt32} {sleep : Bool} (h : command ∈ flockCommands sleep) :
    Flock.command (flockType command) sleep = command ∧ flockType command ∈ FileLock.types := by
  cases sleep <;> simp only [flockCommands, flockCalls, List.map_cons, List.map_nil, List.mem_cons,
    List.not_mem_nil, or_false] at h <;> rcases h with rfl | rfl | rfl <;> decide

/-- The type of a lock on a whole file is told from the call that is read, and that is one that is written. -/
theorem flockType_command {type : UInt32} (h : type ∈ FileLock.types) (sleep : Bool) :
    flockType (Flock.command type sleep) = type ∧ Flock.command type sleep ∈ flockCommands sleep := by
  simp only [FileLock.types, List.mem_cons, List.not_mem_nil, or_false] at h
  rcases h with rfl | rfl | rfl <;> cases sleep <;> decide

end FuseAbi.Kernel
