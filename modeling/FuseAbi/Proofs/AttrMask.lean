import FuseAbi.Proofs.Discarded
import FuseAbi.Proofs.Flags

/-!
# Changes of attributes follow their mask

The arguments for changing attributes have room for every attribute, and a mask that says which are meant. Here
the meaning of such arguments is said of the bytes alone, place by place and bit by bit, apart from the record
that is decoded: what is asked for (`Kernel.maskedChange`), which times are stated and which of those offend
(`Kernel.States`, `Kernel.Offends`), and which places the mask gives no meaning (`Kernel.Unmeant`).

**The law** (`Kernel.setattr_masked`): arguments are refused for a stated time with a second or more of
nanoseconds, the first in the order of access, modification and change, and for nothing else; otherwise just
what the mask means is asked for. Places without a meaning may hold anything, in refused arguments too.
-/

namespace FuseAbi

/-- The number of a bit in the mask, the lowest being zero. -/
def AttrBit.index : AttrBit → Nat
  | mode => 0
  | uid => 1
  | gid => 2
  | size => 3
  | atime => 4
  | mtime => 5
  | fh => 6
  | atimeNow => 7
  | mtimeNow => 8
  | lockOwner => 9
  | ctime => 10

theorem AttrBit.toNat_mask (bit : AttrBit) : bit.mask.toNat = 2 ^ bit.index := by
  cases bit <;> rfl

namespace Kernel

/-! ## What some arguments mean -/

section

variable (s : Bytes)

/-- Whether a bit is set in the mask that the arguments start with. -/
def attrBit (bit : AttrBit) : Bool :=
  (wordAt s 0).toNat.testBit bit.index

/-- The times in the order in which they are checked. -/
def timeFields : List TimeField :=
  [.atime, .mtime, .ctime]

/-- Whether the arguments state a time. Where the time is to be the present one, it is not stated. -/
def states : TimeField → Bool
  | .atime => attrBit s .atime && !attrBit s .atimeNow
  | .mtime => attrBit s .mtime && !attrBit s .mtimeNow
  | .ctime => attrBit s .ctime

/-- The place of a time's seconds. -/
def secondsPlace : TimeField → Nat
  | .atime => 32
  | .mtime => 40
  | .ctime => 48

/-- The place of a time's nanoseconds. -/
def nanosecondsPlace : TimeField → Nat
  | .atime => 56
  | .mtime => 60
  | .ctime => 64

/-- The time that stands in the arguments. -/
def timeAt (field : TimeField) : Timespec where
  seconds := longAt s (secondsPlace field)
  nanoseconds := wordAt s (nanosecondsPlace field)

/-- A time is stated with a second or more of nanoseconds. -/
def Offends (field : TimeField) : Prop :=
  states s field = true ∧ 10 ^ 9 ≤ (timeAt s field).nanoseconds.toNat

instance (field : TimeField) : Decidable (Offends s field) :=
  inferInstanceAs (Decidable (_ ∧ _))

/-- A value that is meant where its bit is set. -/
def masked {α : Type} (bit : AttrBit) (value : α) : Option α :=
  if attrBit s bit then some value else none

/-- What becomes of a time: the bit for the present one wins. -/
def maskedTime (bit nowBit : AttrBit) (field : TimeField) : TimeChange :=
  if attrBit s nowBit then .now else if attrBit s bit then .set (timeAt s field) else .keep

/-- The change that the arguments ask for. -/
def maskedChange : AttrChange where
  valid := wordAt s 0
  fh := masked s .fh (longAt s 8)
  size := masked s .size (longAt s 16)
  lockOwner := masked s .lockOwner { raw := longAt s 24 }
  atime := maskedTime s .atime .atimeNow .atime
  mtime := maskedTime s .mtime .mtimeNow .mtime
  ctime := masked s .ctime (timeAt s .ctime)
  mode := masked s .mode (wordAt s 68)
  uid := masked s .uid (wordAt s 76)
  gid := masked s .gid (wordAt s 80)

/-- Where a field of the arguments stands, and whether the mask gives it a meaning. -/
structure AttrField where
  start : Nat
  width : Nat
  meant : Bool

def attrFields : List AttrField :=
  [⟨0, 4, true⟩, ⟨8, 8, attrBit s .fh⟩, ⟨16, 8, attrBit s .size⟩, ⟨24, 8, attrBit s .lockOwner⟩,
    ⟨32, 8, states s .atime⟩, ⟨40, 8, states s .mtime⟩, ⟨48, 8, states s .ctime⟩,
    ⟨56, 4, states s .atime⟩, ⟨60, 4, states s .mtime⟩, ⟨64, 4, states s .ctime⟩,
    ⟨68, 4, attrBit s .mode⟩, ⟨76, 4, attrBit s .uid⟩, ⟨80, 4, attrBit s .gid⟩]

/-- A place in no field that the mask gives a meaning: in one that it leaves unused, in padding, or behind the
arguments. -/
def Unmeant (place : Nat) : Prop :=
  ∀ field ∈ attrFields s, field.meant = true → place < field.start ∨ field.start + field.width ≤ place

instance : DecidablePred (Unmeant s) := fun _ =>
  inferInstanceAs (Decidable (∀ field ∈ attrFields s, _ → _))

end

/-! ## The record that is decoded -/

variable {s t : Bytes}

/-- The record of a change, by the places of its words. -/
def attrArgs (s : Bytes) : SetattrArgs where
  valid := wordAt s 0
  fh := longAt s 8
  size := longAt s 16
  lockOwner := longAt s 24
  atime := longAt s 32
  mtime := longAt s 40
  ctime := longAt s 48
  atimensec := wordAt s 56
  mtimensec := wordAt s 60
  ctimensec := wordAt s 64
  mode := wordAt s 68
  uid := wordAt s 76
  gid := wordAt s 80

theorem ofBytes_eq_attrArgs (s : Bytes) : (Record.ofBytes s : SetattrArgs) = attrArgs s := by
  rw [← List.drop_zero (l := s)]
  simp only [Record.ofBytes, Record.layout, Values.ofBytes_drop_u32, Values.ofBytes_drop_u64,
    Values.ofBytes_drop_pad]
  rfl

theorem has_attrArgs (s : Bytes) (bit : AttrBit) : (attrArgs s).has bit = attrBit s bit :=
  hasBit_eq_testBit bit.toNat_mask _

theorem change_attrArgs (s : Bytes) : (attrArgs s).change = maskedChange s := by
  simp only [SetattrArgs.change, SetattrArgs.atimeChange, SetattrArgs.mtimeChange, SetattrArgs.ctime?,
    SetattrArgs.timeChange, SetattrArgs.field?, has_attrArgs]
  rfl

/-- A time becomes a stated one where the arguments state it. -/
theorem time?_maskedTime (s : Bytes) (bit nowBit : AttrBit) (field : TimeField) :
    (maskedTime s bit nowBit field).time? =
      if attrBit s bit && !attrBit s nowBit then some (timeAt s field) else none := by
  unfold maskedTime
  cases attrBit s nowBit <;> cases attrBit s bit <;> rfl

theorem statedTimes_attrArgs (s : Bytes) :
    (attrArgs s).statedTimes = (timeFields.filter (states s)).map fun field => (field, timeAt s field) := by
  have hchange := change_attrArgs s
  have hatime : (attrArgs s).atimeChange.time? = if states s .atime then some (timeAt s .atime) else none :=
    (congrArg (·.atime.time?) hchange).trans (time?_maskedTime s .atime .atimeNow .atime)
  have hmtime : (attrArgs s).mtimeChange.time? = if states s .mtime then some (timeAt s .mtime) else none :=
    (congrArg (·.mtime.time?) hchange).trans (time?_maskedTime s .mtime .mtimeNow .mtime)
  have hctime : (attrArgs s).ctime? = if states s .ctime then some (timeAt s .ctime) else none :=
    congrArg (·.ctime) hchange
  rw [SetattrArgs.statedTimes, hatime, hmtime, hctime, timeFields]
  cases hone : states s .atime <;> cases htwo : states s .mtime <;> cases hthree : states s .ctime <;>
    simp [hone, htwo, hthree]

/-- The first time that offends is refused. -/
theorem objection_attrArgs (s : Bytes) :
    Argument.setattr.objection (attrArgs s) =
      (timeFields.find? (Offends s ·)).map fun field =>
        { place := 0, fault := .nanoseconds field (timeAt s field).nanoseconds } := by
  have hobjection : Argument.setattr.objection (attrArgs s) =
      ((attrArgs s).statedTimes.find? fun stated =>
        Argument.nanosecondsPerSecond ≤ stated.2.nanoseconds).map fun stated =>
          { place := 0, fault := .nanoseconds stated.1 stated.2.nanoseconds } := rfl
  have hoffends (field : TimeField) : (states s field = true ∧
      decide (Argument.nanosecondsPerSecond ≤ (timeAt s field).nanoseconds) = true) ↔ Offends s field :=
    and_congr_right fun _ => decide_eq_true_iff.trans UInt32.le_iff_toNat_le
  rw [hobjection, statedTimes_attrArgs, List.find?_map, List.find?_filter, Option.map_map]
  simp only [Function.comp_def, hoffends]

/-! ## Reading -/

/-- Arguments of full length are read in one way, which the mask decides; what stands behind them is left. -/
theorem read_setattr (header : Header) {c : Cursor} (h : 88 ≤ c.unread.length) :
    (Argument.setattr.read header).run c =
      match timeFields.find? (Offends c.unread ·) with
      | some field =>
        .error { fault := .nanoseconds field (timeAt c.unread field).nanoseconds, offset := c.offset }
          (c.advance 88)
      | none => .ok (.setattr header.nodeid (maskedChange c.unread)) (c.advance 88) := by
  have hsize : Record.size Argument.setattr.Fixed ≤ c.unread.length := h
  have hobjection := objection_attrArgs c.unread
  have hchange := change_attrArgs c.unread
  rw [← ofBytes_eq_attrArgs] at hobjection hchange
  cases hfind : timeFields.find? (Offends c.unread ·) with
  | some field =>
    rw [hfind, Option.map_some] at hobjection
    refine (Argument.Format.read_of_objection hsize hobjection).trans ?_
    rw [UInt64.add_zero]
    rfl
  | none =>
    rw [hfind, Option.map_none] at hobjection
    refine (Argument.Format.read_of_parts_ok hsize hobjection rfl).trans ?_
    exact congrArg
      (fun change => EStateM.Result.ok (Operation.setattr header.nodeid change) (c.advance 88)) hchange

/-! ## Places without a meaning -/

theorem wordAt_of_meant (h : AgreeOff (Unmeant s) s t) {start : Nat} {meant : Bool}
    (hfield : ⟨start, 4, meant⟩ ∈ attrFields s) (hmeant : meant = true) : wordAt s start = wordAt t start := by
  apply h.wordAt_eq
  intro place hlt hunmeant
  have hoff := hunmeant _ hfield hmeant
  dsimp only at hoff
  omega

theorem longAt_of_meant (h : AgreeOff (Unmeant s) s t) {start : Nat} {meant : Bool}
    (hfield : ⟨start, 8, meant⟩ ∈ attrFields s) (hmeant : meant = true) : longAt s start = longAt t start := by
  apply h.longAt_eq
  intro place hlt hunmeant
  have hoff := hunmeant _ hfield hmeant
  dsimp only at hoff
  omega

theorem mask_congr (h : AgreeOff (Unmeant s) s t) : wordAt s 0 = wordAt t 0 := by
  have hfield : ⟨0, 4, true⟩ ∈ attrFields s := List.mem_cons_self
  exact wordAt_of_meant h hfield rfl

theorem attrBit_congr (h : AgreeOff (Unmeant s) s t) (bit : AttrBit) : attrBit s bit = attrBit t bit := by
  rw [attrBit, attrBit, mask_congr h]

theorem states_congr (h : AgreeOff (Unmeant s) s t) (field : TimeField) : states s field = states t field := by
  cases field <;> simp only [states, attrBit_congr h]

theorem timeAt_congr (h : AgreeOff (Unmeant s) s t) {field : TimeField} (hstated : states s field = true) :
    timeAt s field = timeAt t field := by
  have hseconds : longAt s (secondsPlace field) = longAt t (secondsPlace field) :=
    longAt_of_meant h (by cases field <;> simp [attrFields, secondsPlace]) hstated
  have hnanoseconds : wordAt s (nanosecondsPlace field) = wordAt t (nanosecondsPlace field) :=
    wordAt_of_meant h (by cases field <;> simp [attrFields, nanosecondsPlace]) hstated
  rw [timeAt, timeAt, hseconds, hnanoseconds]

theorem masked_congr {α : Type} (h : AgreeOff (Unmeant s) s t) {bit : AttrBit} {value value' : α}
    (hvalue : attrBit s bit = true → value = value') : masked s bit value = masked t bit value' := by
  rw [masked, masked, ← attrBit_congr h]
  split
  next hbit => rw [hvalue hbit]
  next => rfl

theorem maskedTime_congr (h : AgreeOff (Unmeant s) s t) {bit nowBit : AttrBit} {field : TimeField}
    (hstates : states s field = (attrBit s bit && !attrBit s nowBit)) :
    maskedTime s bit nowBit field = maskedTime t bit nowBit field := by
  rw [maskedTime, maskedTime, ← attrBit_congr h, ← attrBit_congr h]
  cases hnow : attrBit s nowBit with
  | true => rfl
  | false =>
    cases hbit : attrBit s bit with
    | false => rfl
    | true =>
      have hstated : states s field = true := by rw [hstates, hnow, hbit]; rfl
      rw [timeAt_congr h hstated]

theorem maskedChange_congr (h : AgreeOff (Unmeant s) s t) : maskedChange s = maskedChange t := by
  simp only [maskedChange, AttrChange.mk.injEq]
  refine ⟨mask_congr h, masked_congr h fun hbit => ?_, masked_congr h fun hbit => ?_,
    masked_congr h fun hbit => ?_, masked_congr h fun hbit => ?_, masked_congr h fun hbit => ?_,
    maskedTime_congr h rfl, maskedTime_congr h rfl, masked_congr h fun hbit => timeAt_congr h hbit,
    masked_congr h fun hbit => ?_⟩
  · exact longAt_of_meant h (by simp [attrFields]) hbit
  · exact wordAt_of_meant h (by simp [attrFields]) hbit
  · exact wordAt_of_meant h (by simp [attrFields]) hbit
  · exact wordAt_of_meant h (by simp [attrFields]) hbit
  · exact longAt_of_meant h (by simp [attrFields]) hbit
  · exact congrArg LockOwner.mk (longAt_of_meant h (by simp [attrFields]) hbit)

theorem offends_congr (h : AgreeOff (Unmeant s) s t) (field : TimeField) :
    Offends s field ↔ Offends t field := by
  rw [Offends, Offends, ← states_congr h]
  refine and_congr_right fun hstated => ?_
  rw [timeAt_congr h hstated]

/-- What comes of the arguments hangs on the places that have a meaning only. -/
theorem eval_setattr_congr (header : Header) (base : UInt64) (hsize : 88 ≤ s.length)
    (h : AgreeOff (Unmeant s) s t) :
    (Argument.setattr.read header).eval { offset := base, unread := s } =
      (Argument.setattr.read header).eval { offset := base, unread := t } := by
  have hfirst : timeFields.find? (Offends s ·) = timeFields.find? (Offends t ·) := by
    simp only [offends_congr h]
  have hread := read_setattr header (c := { offset := base, unread := s }) hsize
  have hread' := read_setattr header (c := { offset := base, unread := t }) (h.1 ▸ hsize)
  dsimp only at hread hread'
  rw [← hfirst, ← maskedChange_congr h] at hread'
  cases hfind : timeFields.find? (Offends s ·) with
  | none =>
    rw [hfind] at hread hread'
    rw [Scan.eval_of_ok hread, Scan.eval_of_ok hread']
  | some field =>
    have hfound := List.find?_some hfind
    have hoffends : Offends s field := of_decide_eq_true hfound
    rw [hfind] at hread hread'
    rw [Scan.eval_of_error hread, Scan.eval_of_error hread', timeAt_congr h hoffends.1]

/-! ## The law -/

theorem exists_offends_iff (s : Bytes) :
    (∃ field, Offends s field) ↔ ∃ field, timeFields.find? (Offends s ·) = some field := by
  rw [← Option.isSome_iff_exists, List.find?_isSome]
  constructor
  · rintro ⟨field, hoffends⟩
    exact ⟨field, by cases field <;> decide, decide_eq_true hoffends⟩
  · rintro ⟨field, -, hoffends⟩
    exact ⟨field, of_decide_eq_true hoffends⟩

/-- A change of attributes follows its mask, in arguments of full length at any place. They are refused exactly
where some time offends, for the first such time, and blamed on the start of the record. Otherwise just what the
mask means is asked for. Either way the record is taken and nothing else, and a place without a meaning has no
part in what comes of it. -/
theorem setattr_masked (header : Header) (base : UInt64) (s : Bytes) (h : 88 ≤ s.length) :
    let start : Cursor := { offset := base, unread := s }
    let scan := Argument.setattr.read header
    ((∃ e d, scan.run start = .error e d) ↔ ∃ field, Offends s field) ∧
      (∀ e d, scan.run start = .error e d → d = start.advance 88 ∧
        ∃ field, timeFields.find? (Offends s ·) = some field ∧
          e.kind = .malformedArgument ∧ e.opcode = 0 ∧ e.offset = base ∧
          e.reason = ascii field.name ++ ascii " nanoseconds out of range: " ++
            decimal (timeAt s field).nanoseconds.toNat) ∧
      (∀ op d, scan.run start = .ok op d → d = start.advance 88 ∧
        op = .setattr header.nodeid (maskedChange s)) ∧
      ∀ t, AgreeOff (Unmeant s) s t → scan.eval { offset := base, unread := t } = scan.eval start := by
  intro start scan
  have hread := read_setattr header (c := start) h
  have hcongr : ∀ t, AgreeOff (Unmeant s) s t → scan.eval { offset := base, unread := t } = scan.eval start :=
    fun t ht => (eval_setattr_congr header base h ht).symm
  rw [exists_offends_iff]
  cases hfind : timeFields.find? (Offends s ·) with
  | none =>
    have hok : scan.run start = .ok (.setattr header.nodeid (maskedChange s)) (start.advance 88) := by
      rwa [show start.unread = s from rfl, hfind] at hread
    refine ⟨iff_of_false ?_ ?_, fun e d he => ?_, fun op d hop => ?_, hcongr⟩
    · rintro ⟨e, d, he⟩
      cases hok.symm.trans he
    · rintro ⟨field, hnone⟩
      cases hnone
    · cases hok.symm.trans he
    · cases hok.symm.trans hop
      exact ⟨rfl, rfl⟩
  | some field =>
    have herror : scan.run start =
        .error { fault := .nanoseconds field (timeAt s field).nanoseconds, offset := base }
          (start.advance 88) := by
      rwa [show start.unread = s from rfl, hfind] at hread
    refine ⟨iff_of_true ⟨_, _, herror⟩ ⟨field, rfl⟩, fun e d he => ?_, fun op d hop => ?_, hcongr⟩
    · cases herror.symm.trans he
      exact ⟨rfl, field, rfl, rfl, rfl, rfl, rfl⟩
    · cases herror.symm.trans hop

/-- Arguments that set the access time to the present one, state the two others, and have a filler wherever the
mask gives no meaning, its nanoseconds for the access time included. A bit that means nothing is set too. -/
def threeTimes (mtimensec ctimensec filler : UInt32) : Bytes :=
  Item.encodeAll
    [.u32 0x800004B3, .u32 filler, .u64 filler.toUInt64, .u64 filler.toUInt64, .u64 filler.toUInt64,
      .u64 filler.toUInt64, .u64 8, .u64 9, .u32 filler, .u32 mtimensec, .u32 ctimensec, .u32 0o644,
      .u32 filler, .u32 1000, .u32 filler, .u32 filler]

/-- Of two stated times that offend the earlier one is refused, and the filler has no part in it. -/
theorem setattr_masked_threeTimes :
    (88 ≤ (threeTimes 1000000000 4294967295 4294967295).length ∧
      ∃ e d, (Argument.setattr.read (Header.peek [])).run
          { offset := 40, unread := threeTimes 1000000000 4294967295 4294967295 } = .error e d ∧
        e.reason = ascii "mtime nanoseconds out of range: 1000000000") ∧
      88 ≤ (threeTimes 0 999999999 0).length ∧
      AgreeOff (Unmeant (threeTimes 0 999999999 0)) (threeTimes 0 999999999 0)
        (threeTimes 0 999999999 4294967295) ∧
      (Argument.setattr.read (Header.peek [])).eval
          { offset := 40, unread := threeTimes 0 999999999 4294967295 } =
        (Argument.setattr.read (Header.peek [])).eval { offset := 40, unread := threeTimes 0 999999999 0 } := by
  have hlong : 88 ≤ (threeTimes 1000000000 4294967295 4294967295).length := by decide
  have hlong' : 88 ≤ (threeTimes 0 999999999 0).length := by decide
  obtain ⟨hfails, herror, -, -⟩ := setattr_masked (Header.peek []) 40 _ hlong
  obtain ⟨-, -, -, hcongr⟩ := setattr_masked (Header.peek []) 40 _ hlong'
  have hagree : AgreeOff (Unmeant (threeTimes 0 999999999 0)) (threeTimes 0 999999999 0)
      (threeTimes 0 999999999 4294967295) := by
    decide +kernel
  obtain ⟨e, d, hread⟩ := hfails.mpr ⟨.mtime, by decide⟩
  obtain ⟨-, field, hfield, -, -, -, hreason⟩ := herror e d hread
  have hfirst : timeFields.find? (Offends (threeTimes 1000000000 4294967295 4294967295) ·) = some .mtime := by
    decide
  cases hfirst.symm.trans hfield
  exact ⟨⟨hlong, e, d, hread, hreason.trans (by decide)⟩, hlong', hagree, hcongr _ hagree⟩

end Kernel

end FuseAbi
