import FuseAbi.Proofs.RoundTrip

/-!
# What is decoded can be written

The converse of the round trip: a buffer that is decoded is, but for bits that do not count, what the kernel
writes for its request (`decode_sound`). So every byte of it is accounted for, as a value of the operation, a
terminator, a length, or bits that `Kernel.mask` leaves out, and two buffers with the same request differ in
such bits only.

As in the round trip there is one case per opcode, in `reads_slots`. A case says that the operation is
well-formed, for the record is not refused, and that the words of the record fit the slots of the operation
(`Slot.Fits`). Words that count are the operation's own. The lemmas before it are about the others: a flag
that only shows as presence, and a field that its flag leaves unused.
-/

namespace FuseAbi.Kernel

open Argument Slot

variable {header : Header} {op : Opcode}

/-! ## Parts as slots -/

/-- The slots of some parts: all of their bits count. -/
def partSlots : (parts : List Part) → Parts parts → List Slot
  | [], _ => []
  | .name _ :: rest, (text, values) => name text :: partSlots rest values
  | .data _ :: rest, (bytes, values) => data bytes :: partSlots rest values
  | .forgets _ :: rest, (entries, values) =>
    (entries.flatMap fun forget => [full64 forget.nodeid, full64 forget.nlookup]) ++ partSlots rest values

theorem map_item_partSlots (parts : List Part) (values : Parts parts) :
    (partSlots parts values).map item = Parts.items parts values := by
  induction parts with
  | nil => rfl
  | cons part rest ih =>
    obtain ⟨value, values⟩ := values
    cases part with
    | name limit => exact congrArg (Item.cstring value :: ·) (ih values)
    | data size => exact congrArg (Item.bytes value :: ·) (ih values)
    | forgets count =>
      refine List.map_append.trans ?_
      rw [ih]
      exact congrArg (· ++ Parts.items rest values) (map_item_forgets value)

theorem encodeAll_partSlots (parts : List Part) (values : Parts parts) :
    encodeAll (partSlots parts values) = Parts.encode parts values :=
  congrArg Item.encodeAll (map_item_partSlots parts values)

/-! ## Words that fit -/

theorem isSome_ite {α : Type} (on : Bool) (value : α) : (if on then some value else none).isSome = on := by
  cases on <;> rfl

theorem eq_of_mem_ite {α : Type} {on : Bool} {value : α} :
    ∀ other ∈ (if on then some value else none), value = other := by
  intro other h
  cases on with
  | false => cases h
  | true => exact Option.some.inj h

/-- What holds of a value where it is present holds of a part of it. -/
theorem eq_of_mem_map {α β : Type} {value : α} {option : Option α} (f : α → β)
    (h : ∀ other ∈ option, value = other) : ∀ other ∈ option.map f, f value = other := by
  intro other hother
  obtain ⟨found, hfound, rfl⟩ := Option.map_eq_some_iff.mp hother
  rw [h found hfound]

/-- A word fits its flag. -/
theorem flag_fits {word bit : UInt32} {on : Bool} (hbit : IsBit bit) (hon : on = hasBit word bit) :
    word &&& bit = bitIf on bit &&& bit := by
  rw [hon]
  exact bitIf_hasBit_and hbit word

theorem optional64_fits {word : UInt64} {value : Option UInt64} (h : ∀ other ∈ value, word = other) :
    value.isSome = true → word = value.getD 0 := by
  intro hsome
  obtain ⟨other, rfl⟩ := Option.isSome_iff_exists.mp hsome
  exact h other rfl

theorem optional32_fits {word : UInt32} {value : Option UInt32} (h : ∀ other ∈ value, word = other) :
    word &&& (if value.isSome then 0xffffffff else 0) =
      value.getD 0 &&& if value.isSome then 0xffffffff else 0 := by
  cases value with
  | none => exact UInt32.and_zero.trans UInt32.and_zero.symm
  | some other => rw [h other rfl]; rfl

/-- Every word fits where none of its bits count. -/
theorem and_zero_eq (word value : UInt32) : word &&& 0 = value &&& 0 :=
  UInt32.and_zero.trans UInt32.and_zero.symm

theorem isBit_one : IsBit 1 := ⟨0, by decide, rfl⟩

theorem isBit_two : IsBit 2 := ⟨1, by decide, rfl⟩

theorem ofNat_length_of_legible {size : UInt32} {bytes : Bytes} (h : Part.Legible (.data size) bytes) :
    UInt32.ofNat bytes.length = size := by
  rw [show bytes.length = size.toNat from h, UInt32.ofNat_toNat]

theorem ofNat_length_forgets {count : UInt32} {entries : List Forget}
    (h : Part.Legible (.forgets count) entries) : UInt32.ofNat entries.length = count := by
  rw [show entries.length = count.toNat from h, UInt32.ofNat_toNat]

/-- The flags of a release fit, though only two of them are looked at. -/
theorem releaseFlags_fits (word : UInt32) :
    word &&& 3 = (bitIf (hasBit word releaseFlush) 1 ||| bitIf (hasBit word releaseFlock) 2) &&& 3 := by
  have hboth : word &&& 3 = bitIf (hasBit word releaseFlush) 1 ||| bitIf (hasBit word releaseFlock) 2 := by
    rw [show (3 : UInt32) = 1 ||| 2 by decide, and_or_distrib_left, and_eq_bitIf isBit_one,
      and_eq_bitIf isBit_two]
    rfl
  rw [← hboth, UInt32.and_assoc, UInt32.and_self]

/-! ## Changes of attributes -/

section Setattr

variable {a : SetattrArgs} {bit nowBit : AttrBit} {time : Timespec}

/-- Of a time, only a stated one is looked at. -/
theorem eq_of_mem_timeChange : ∀ stated ∈ (a.timeChange bit nowBit time).time?, time = stated := by
  intro stated h
  unfold SetattrArgs.timeChange at h
  split at h
  · cases h
  · split at h
    · exact Option.some.inj h
    · cases h

theorem timeFits_timeChange
    (h : ∀ stated ∈ (a.timeChange bit nowBit time).time?, stated.nanoseconds < 1000000000) :
    TimeFits a.valid bit.mask nowBit.mask (a.timeChange bit nowBit time) := by
  unfold SetattrArgs.timeChange at h ⊢
  split at h
  next hnow =>
    rw [if_pos hnow]
    exact hnow
  next hnow =>
    rw [if_neg hnow]
    split at h
    next hbit =>
      rw [if_pos hbit]
      exact ⟨hbit, Bool.eq_false_iff.mpr hnow, h time rfl⟩
    next hbit =>
      rw [if_neg hbit]
      exact ⟨Bool.eq_false_iff.mpr hbit, Bool.eq_false_iff.mpr hnow⟩

theorem changeFits_change (h : setattr.objection a = none) : ChangeFits a.change := by
  obtain ⟨hatime, hmtime, hctime⟩ := setattr_objection_eq_none.mp h
  exact {
    mode := isSome_ite _ _
    uid := isSome_ite _ _
    gid := isSome_ite _ _
    size := isSome_ite _ _
    fh := isSome_ite _ _
    lockOwner := isSome_ite _ _
    ctime := isSome_ite _ _
    ctime_lt := hctime
    atime := timeFits_timeChange hatime
    mtime := timeFits_timeChange hmtime }

theorem fits_setattr (a : SetattrArgs) :
    Fits [] (setattrSlots a.change) (Record.layout SetattrArgs) (Record.toValues a) := by
  have hatime : ∀ stated ∈ a.change.atime.time?, Timespec.mk a.atime a.atimensec = stated :=
    eq_of_mem_timeChange
  have hmtime : ∀ stated ∈ a.change.mtime.time?, Timespec.mk a.mtime a.mtimensec = stated :=
    eq_of_mem_timeChange
  have hctime : ∀ stated ∈ a.change.ctime, Timespec.mk a.ctime a.ctimensec = stated := eq_of_mem_ite
  have howner : ∀ owner ∈ a.change.lockOwner, LockOwner.mk a.lockOwner = owner := eq_of_mem_ite
  exact ⟨rfl, rfl, optional64_fits eq_of_mem_ite, optional64_fits eq_of_mem_ite,
    optional64_fits (eq_of_mem_map LockOwner.raw howner),
    optional64_fits (eq_of_mem_map Timespec.seconds hatime),
    optional64_fits (eq_of_mem_map Timespec.seconds hmtime),
    optional64_fits (eq_of_mem_map Timespec.seconds hctime),
    optional32_fits (eq_of_mem_map Timespec.nanoseconds hatime),
    optional32_fits (eq_of_mem_map Timespec.nanoseconds hmtime),
    optional32_fits (eq_of_mem_map Timespec.nanoseconds hctime),
    optional32_fits eq_of_mem_ite, rfl, optional32_fits eq_of_mem_ite, optional32_fits eq_of_mem_ite,
    rfl, rfl⟩

end Setattr

/-! ## Locks -/

/-- A lock on a range or on a whole file, as one flag of its record says, fits its slots. -/
theorem reads_setLock {sleep : Bool} (hop : op = if sleep then .setlkw else .setlk) {a : LockArgs}
    (hobj : lockObjection a = none) :
    WellFormed header op ((setLock sleep).toOperation header a ()) ∧
      Fits [] (slots op ((setLock sleep).toOperation header a ())) (Record.layout LockArgs)
        (Record.toValues a) := by
  have hlock := lockObjection_eq_none.mp hobj
  cases hflock : hasBit a.flags lockFlock with
  | false =>
    have hoperation : (setLock sleep).toOperation header a () =
        .setlk ⟨header.nodeid, a.fh⟩ ⟨a.owner⟩ a.lock sleep := if_neg (by rw [hflock]; decide)
    rw [hoperation]
    refine ⟨⟨?_, rfl, hlock⟩, fun _ => rfl, fun _ => rfl, fun _ => rfl, fun _ => rfl, rfl, rfl,
      flag_fits isBit_one hflock.symm, rfl, rfl⟩
    cases sleep with
    | false => exact .inl ⟨hop, rfl⟩
    | true => exact .inr ⟨hop, rfl⟩
  | true =>
    have hoperation : (setLock sleep).toOperation header a () =
        .flock ⟨header.nodeid, a.fh⟩ ⟨a.owner⟩ (Flock.command a.lock.type sleep) := if_pos hflock
    obtain ⟨htype, hcommand⟩ := flockType_command hlock.1 sleep
    rw [hoperation]
    refine ⟨⟨?_, rfl⟩, fun _ => rfl, fun _ => rfl, fun h => absurd h Bool.false_ne_true,
      fun h => absurd h Bool.false_ne_true, congrArg (· &&& 0xffffffff) htype.symm, and_zero_eq _ _,
      flag_fits isBit_one hflock.symm, rfl, rfl⟩
    cases sleep with
    | false => exact .inl ⟨hop, hcommand⟩
    | true => exact .inr ⟨hop, flockCommands_true ▸ hcommand⟩

/-! ## All operations -/

/-- What a format reads is well-formed, and the record fits its slots. -/
theorem reads_slots {format : Format} (hformat : op.format? = some format) (header : Header)
    (fixed : format.Fixed) (parts : Parts (format.tail fixed)) (hobj : format.objection fixed = none)
    (hlegible : Parts.Legible _ parts) :
    WellFormed header op (format.toOperation header fixed parts) ∧
      Fits (partSlots _ parts) (slots op (format.toOperation header fixed parts))
        (Record.layout format.Fixed) (Record.toValues fixed) := by
  cases op with
  | init | destroy | ioctl | lseek => cases hformat
  | lookup | unlink | rmdir =>
    cases hformat
    exact ⟨⟨rfl, rfl, (legible_name_iff rfl).mp hlegible.1⟩, rfl⟩
  | forget =>
    cases hformat
    exact ⟨⟨rfl, rfl⟩, fun _ => rfl, rfl⟩
  | batchForget =>
    cases hformat
    exact ⟨rfl, congrArg (· &&& 0xffffffff) (ofNat_length_forgets hlegible.1).symm, rfl,
      fits_nil.mpr (List.append_nil _).symm⟩
  | getattr =>
    cases hformat
    exact ⟨⟨rfl, rfl⟩, flag_fits isBit_one (isSome_ite _ _), rfl, optional64_fits eq_of_mem_ite, rfl⟩
  | setattr =>
    cases hformat
    exact ⟨⟨rfl, rfl, changeFits_change hobj⟩, fits_setattr fixed⟩
  | readlink | statfs =>
    cases hformat
    exact ⟨⟨rfl, rfl⟩, rfl⟩
  | symlink =>
    cases hformat
    exact ⟨⟨rfl, ⟨rfl, (legible_name_iff rfl).mp hlegible.1⟩,
      (legible_name_iff rfl).mp hlegible.2.1⟩, rfl⟩
  | mknod | create =>
    cases hformat
    exact ⟨⟨rfl, rfl, (legible_name_iff rfl).mp hlegible.1⟩, rfl, rfl, rfl, rfl, rfl⟩
  | mkdir =>
    cases hformat
    exact ⟨⟨rfl, rfl, (legible_name_iff rfl).mp hlegible.1⟩, rfl, rfl, rfl⟩
  | rename =>
    cases hformat
    exact ⟨⟨.inl ⟨rfl, rfl⟩, ⟨rfl, (legible_name_iff rfl).mp hlegible.1⟩,
      (legible_name_iff rfl).mp hlegible.2.1⟩, fun _ => rfl, rfl⟩
  | rename2 =>
    cases hformat
    exact ⟨⟨.inr ⟨rfl, rename2_objection_eq_none.mp hobj⟩, ⟨rfl, (legible_name_iff rfl).mp hlegible.1⟩,
      (legible_name_iff rfl).mp hlegible.2.1⟩, fun _ => rfl, rfl, rfl, rfl⟩
  | link =>
    cases hformat
    exact ⟨⟨rfl, rfl, (legible_name_iff rfl).mp hlegible.1⟩, fun _ => rfl, rfl⟩
  | openFile | openDir =>
    cases hformat
    exact ⟨⟨rfl, rfl⟩, rfl, rfl, rfl⟩
  | read =>
    cases hformat
    exact ⟨⟨rfl, rfl⟩, fun _ => rfl, fun _ => rfl, rfl, flag_fits isBit_two (isSome_ite _ _),
      optional64_fits (eq_of_mem_map LockOwner.raw eq_of_mem_ite), rfl, rfl, rfl⟩
  | write =>
    cases hformat
    refine ⟨⟨rfl, rfl, hasBit_and_not _ _⟩, fun _ => rfl, fun _ => rfl,
      congrArg (· &&& 0xffffffff) (ofNat_length_of_legible hlegible.1).symm, ?_,
      optional64_fits (eq_of_mem_map LockOwner.raw eq_of_mem_ite), rfl, rfl, rfl⟩
    refine congrArg (· &&& 0xffffffff) ((or_bitIf_eq isBit_two _).symm.trans ?_)
    exact congrArg (_ ||| bitIf · 2) (isSome_ite _ _).symm
  | release =>
    cases hformat
    exact ⟨⟨rfl, rfl⟩, fun _ => rfl, rfl, releaseFlags_fits _, fun _ => rfl, rfl⟩
  | fsync | fsyncdir =>
    cases hformat
    exact ⟨⟨rfl, rfl⟩, fun _ => rfl, flag_fits isBit_one rfl, rfl, rfl⟩
  | setxattr =>
    cases hformat
    exact ⟨⟨rfl, rfl, (legible_name_iff rfl).mp hlegible.1⟩,
      congrArg (· &&& 0xffffffff) (ofNat_length_of_legible hlegible.2.1).symm, rfl, rfl⟩
  | getxattr =>
    cases hformat
    exact ⟨⟨rfl, rfl, (legible_name_iff rfl).mp hlegible.1⟩, rfl, rfl, rfl⟩
  | listxattr =>
    cases hformat
    exact ⟨⟨rfl, rfl⟩, rfl, rfl, rfl⟩
  | removexattr =>
    cases hformat
    exact ⟨⟨rfl, rfl, (legible_name_iff rfl).mp hlegible.1⟩, rfl⟩
  | flush =>
    cases hformat
    exact ⟨⟨rfl, rfl⟩, fun _ => rfl, rfl, fun _ => rfl, rfl⟩
  | readdir =>
    cases hformat
    exact ⟨⟨.inl ⟨rfl, rfl⟩, rfl⟩, fun _ => rfl, fun _ => rfl, rfl, and_zero_eq _ _,
      fun h => absurd h Bool.false_ne_true, and_zero_eq _ _, rfl, rfl⟩
  | readdirPlus =>
    cases hformat
    exact ⟨⟨.inr ⟨rfl, rfl⟩, rfl⟩, fun _ => rfl, fun _ => rfl, rfl, and_zero_eq _ _,
      fun h => absurd h Bool.false_ne_true, and_zero_eq _ _, rfl, rfl⟩
  | releasedir =>
    cases hformat
    exact ⟨⟨rfl, rfl⟩, fun _ => rfl, rfl, and_zero_eq _ _,
      fun h => absurd h Bool.false_ne_true, rfl⟩
  | getlk =>
    cases hformat
    exact ⟨⟨rfl, rfl, lockObjection_eq_none.mp hobj⟩, fun _ => rfl, fun _ => rfl, fun _ => rfl,
      fun _ => rfl, rfl, rfl, and_zero_eq _ _, rfl, rfl⟩
  | setlk =>
    cases hformat
    exact reads_setLock rfl hobj
  | setlkw =>
    cases hformat
    exact reads_setLock rfl hobj
  | access =>
    cases hformat
    exact ⟨⟨rfl, rfl⟩, rfl, rfl, rfl⟩
  | interrupt =>
    cases hformat
    exact ⟨rfl, fun _ => rfl, rfl⟩
  | bmap =>
    cases hformat
    exact ⟨⟨rfl, rfl⟩, fun _ => rfl, rfl, rfl, rfl⟩
  | poll =>
    cases hformat
    exact ⟨⟨rfl, rfl⟩, fun _ => rfl, optional64_fits eq_of_mem_ite, flag_fits isBit_one (isSome_ite _ _),
      rfl, rfl⟩
  | notifyReply =>
    cases hformat
    exact ⟨⟨rfl, rfl, rfl⟩, rfl, fun _ => rfl,
      congrArg (· &&& 0xffffffff) (ofNat_length_of_legible hlegible.1).symm, rfl, rfl⟩
  | fallocate =>
    cases hformat
    exact ⟨⟨rfl, rfl⟩, fun _ => rfl, fun _ => rfl, fun _ => rfl, rfl, rfl, rfl⟩
  | copyFileRange =>
    cases hformat
    exact ⟨⟨rfl, rfl⟩, fun _ => rfl, fun _ => rfl, fun _ => rfl, fun _ => rfl, fun _ => rfl, fun _ => rfl,
      fun _ => rfl, rfl⟩

/-! ## Whole requests -/

/-- The words of a record are spelled by its own bytes. -/
theorem toValues_ofBytes {α : Type} [Record α] {s : Bytes} (h : Record.size α ≤ s.length) :
    Record.toValues (Record.ofBytes s : α) = Values.ofBytes (Record.layout α) (s.take (Record.size α)) := by
  have htake : layoutSize (Record.layout α) ≤ (s.take (Record.size α)).length := by
    rw [List.length_take]
    exact Nat.le_min.mpr ⟨Nat.le_refl _, h⟩
  have hvalues := Values.ofBytes_append htake (s.drop (Record.size α))
  rw [List.take_append_drop] at hvalues
  rw [Record.ofBytes, Record.toValues_ofValues, hvalues]

/-- Arguments that spell an operation agree with its slots. -/
theorem agreeOn_arguments {format : Format} (hformat : op.format? = some format) {arguments : Bytes}
    {operation : Operation} (h : Request.Spell format header arguments operation) :
    WellFormed header op operation ∧
      AgreeOn (maskAll (slots op operation)) arguments (encodeAll (slots op operation)) := by
  obtain ⟨fixed, parts, hsize, hfixed, hobj, hlegible, hbytes, rfl⟩ := h
  obtain ⟨hwell, hfits⟩ := reads_slots hformat header fixed parts hobj hlegible
  have htake :
      (arguments.take (Record.size format.Fixed)).length = layoutSize (Record.layout format.Fixed) := by
    rw [List.length_take]
    exact Nat.min_eq_left hsize
  have hvalues := toValues_ofBytes hsize
  rw [← hfixed] at hvalues
  rw [hvalues] at hfits
  have hback : AgreeOn (maskAll (partSlots _ parts)) (arguments.drop (Record.size format.Fixed))
      (encodeAll (partSlots _ parts)) := by
    rw [hbytes, ← encodeAll_partSlots]
    exact AgreeOn.refl (length_maskAll _).symm
  have hagree := hfits.agreeOn htake hback
  rw [List.take_append_drop] at hagree
  exact ⟨hwell, hagree⟩

/-- The bytes of a header agree with its slots. -/
theorem agreeOn_header {buffer : Bytes} (h : Header.size ≤ buffer.length) :
    AgreeOn (maskAll (headerSlots (Header.peek buffer))) (buffer.take Header.size)
      (encodeAll (headerSlots (Header.peek buffer))) := by
  have hfits : Fits [] (headerSlots (Header.peek buffer)) (Record.layout Header)
      (Record.toValues (Header.peek buffer)) :=
    ⟨rfl, rfl, fun _ => rfl, fun _ => rfl, rfl, rfl, rfl, rfl, rfl⟩
  have hvalues : Record.toValues (Header.peek buffer) = _ := toValues_ofBytes (α := Header) h
  rw [hvalues] at hfits
  have htake : (buffer.take Header.size).length = layoutSize (Record.layout Header) := by
    rw [List.length_take]
    exact Nat.min_eq_left h
  have hagree := hfits.agreeOn htake (AgreeOn.refl (s := []) rfl)
  rwa [List.append_nil] at hagree

/-- A header that has its request's opcode and length is the one that is written. -/
theorem sealHeader_eq {operation : Operation} (hopcode : op.code = header.opcode)
    (hlen : header.len.toNat = Header.size + (encodeAll (slots op operation)).length) :
    sealHeader op header operation = header := by
  have hword : UInt32.ofNat (Header.size + (encodeAll (slots op operation)).length) = header.len := by
    rw [← hlen, UInt32.ofNat_toNat]
  rw [sealHeader, hopcode, hword]

/-- A buffer that is decoded agrees with what the kernel writes for its request. -/
theorem agreeOn_encode {minor : Minor} {buffer : Bytes} {request : Request}
    (h : Request.decode minor buffer = .ok request) :
    ∃ op, op.code = request.header.opcode ∧ op.sinceMinor ≤ minor.number ∧
      WellFormed request.header op request.operation ∧ request.header.len.toNat = buffer.length ∧
      sealHeader op request.header request.operation = request.header ∧
      AgreeOn (mask op request.header request.operation) buffer
        (encode op request.header request.operation) := by
  obtain ⟨hsize, hlen, hheader, format, hformat, hspell⟩ := Request.decode_eq_ok_iff.mp h
  obtain ⟨op, hop, hopformat, hminor⟩ := Minor.format_eq_ok_iff.mp hformat
  obtain ⟨hwell, harguments⟩ := agreeOn_arguments hopformat hspell
  have hopcode := Opcode.ofCode?_eq_some_iff.mp hop
  rw [← hheader] at hlen
  have hdrop := harguments.length_eq
  rw [List.length_drop] at hdrop
  have hseal : sealHeader op request.header request.operation = request.header :=
    sealHeader_eq hopcode (by omega)
  refine ⟨op, hopcode, hminor, hwell, hlen, hseal, ?_⟩
  have hagree := (agreeOn_header hsize).append harguments
  rw [List.take_append_drop, ← hheader] at hagree
  rw [mask, encode, requestSlots, maskAll_append, encodeAll_append, hseal]
  exact hagree

/-- A call for an exclusive lock on a whole file that leaves numbers in its range, its process and its
padding. -/
def flockWithRange : Bytes :=
  littleEndian 4 88 ++ littleEndian 4 32 ++ littleEndian 8 1 ++ littleEndian 8 5 ++ List.replicate 12 0 ++
    List.replicate 4 255 ++
    (littleEndian 8 9 ++ littleEndian 8 3 ++ littleEndian 8 10 ++ littleEndian 8 20 ++ littleEndian 4 1 ++
      littleEndian 4 77 ++ littleEndian 4 0xff ++ List.replicate 4 255)

end FuseAbi.Kernel
