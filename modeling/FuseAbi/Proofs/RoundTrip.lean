import FuseAbi.Proofs.Decode
import FuseAbi.Proofs.Validity

/-!
# Decoding undoes the kernel's encoding

`Request.decode` and `Kernel.encode` know nothing of each other. Here the one is proved to undo the other
(`decode_encode`): under every opcode, at every minor that has it, a well-formed operation comes back as it
was written, whatever header it stands behind.

The formats are walked through once, in `Request.decode_eq_ok_iff`. What is left to show for an opcode is
`Writes`: that its slots are a record and parts of its format, and that these ask for the operation. There
is one case per operation in `writes_slots`. Most of them name the record and are done. Lemmas of their own
have the operations whose record does not hold their values as they are: flags that stand for presence,
counts of what follows, the mask of a change of attributes, and the call of a lock on a whole file.

The law asks that a request is shorter than 2 ^ 32 bytes, since its length is declared in a word.
-/

namespace FuseAbi

/-- The arguments that ask for a change, with zeros for what is not meant. -/
def SetattrArgs.ofChange (c : AttrChange) : SetattrArgs where
  valid := c.valid
  fh := c.fh.getD 0
  size := c.size.getD 0
  lockOwner := (c.lockOwner.map LockOwner.raw).getD 0
  atime := (c.atime.time?.map Timespec.seconds).getD 0
  mtime := (c.mtime.time?.map Timespec.seconds).getD 0
  ctime := (c.ctime.map Timespec.seconds).getD 0
  atimensec := (c.atime.time?.map Timespec.nanoseconds).getD 0
  mtimensec := (c.mtime.time?.map Timespec.nanoseconds).getD 0
  ctimensec := (c.ctime.map Timespec.nanoseconds).getD 0
  mode := c.mode.getD 0
  uid := c.uid.getD 0
  gid := c.gid.getD 0

end FuseAbi

namespace FuseAbi.Kernel

open Argument Slot

/-! ## Slots that a format reads -/

/-- A format reads an operation from some slots: they are a record that is not refused and legible parts,
and the operation is what these ask for. -/
def Writes (format : Format) (header : Header) (slots : List Slot) (operation : Operation) : Prop :=
  ∃ (fixed : format.Fixed) (parts : Parts (format.tail fixed)),
    slots.map item = Record.items fixed ++ Parts.items _ parts ∧ format.objection fixed = none ∧
      Parts.Legible _ parts ∧ operation = format.toOperation header fixed parts

variable {header : Header} {op : Opcode}

theorem Writes.spell {format : Format} {slots : List Slot} {operation : Operation}
    (h : Writes format header slots operation) :
    Request.Spell format header (encodeAll slots) operation := by
  obtain ⟨fixed, parts, hitems, hobj, hlegible, hoperation⟩ := h
  have hbytes : encodeAll slots = Item.encodeAll (Record.items fixed) ++ Parts.encode _ parts := by
    rw [encodeAll, hitems]
    exact List.flatMap_append ..
  have hlen := Record.length_encode fixed
  refine ⟨fixed, parts, ?_, ?_, hobj, hlegible, ?_, hoperation⟩
  · rw [hbytes, List.length_append]
    omega
  · rw [hbytes, Record.ofBytes_encode]
  · rw [hbytes, List.drop_left' hlen]

/-! ## Values that the record does not hold as they are -/

/-- A value behind a flag is read as it was written. -/
theorem eq_of_flag {mask : UInt32} (hmask : mask ≠ 0) (value : Option UInt64) :
    value = if hasBit (bitIf value.isSome mask) mask then some (value.getD 0) else none := by
  rw [hasBit_bitIf hmask]
  cases value <;> rfl

/-- So is a locking context behind a flag, whatever other bits stand beside the flag. -/
theorem owner_eq_of_hasBit {word mask : UInt32} (owner : Option LockOwner)
    (h : hasBit word mask = owner.isSome) :
    owner = if hasBit word mask then some { raw := (owner.map LockOwner.raw).getD 0 } else none := by
  rw [h]
  cases owner <;> rfl

/-- A slot is no longer than all of them. -/
theorem length_le_encodeAll {slot : Slot} {slots : List Slot} (h : slot ∈ slots) :
    slot.item.encode.length ≤ (encodeAll slots).length := by
  induction slots with
  | nil => cases h
  | cons first rest ih =>
    rw [encodeAll_cons, List.length_append]
    rcases List.mem_cons.mp h with rfl | hrest
    · exact Nat.le_add_right _ _
    · exact (ih hrest).trans (Nat.le_add_left _ _)

/-- Data in a request that is not too long has its length in a word. -/
theorem legible_data (bytes : Bytes) {slots : List Slot} (hmem : data bytes ∈ slots)
    (hlen : (encodeAll slots).length < 2 ^ 32) :
    Part.Legible (.data (UInt32.ofNat bytes.length)) bytes := by
  have hle : bytes.length ≤ (encodeAll slots).length := length_le_encodeAll hmem
  exact (UInt32.toNat_ofNat_of_lt' (show bytes.length < 2 ^ 32 by omega)).symm

/-! ### Forget records -/

theorem map_item_forgets (entries : List Forget) :
    (entries.flatMap fun forget => [full64 forget.nodeid, full64 forget.nlookup]).map item =
      entries.flatMap Record.items := by
  rw [List.map_flatMap]
  rfl

theorem writes_batchForget {entries : List Forget}
    (hlen : (encodeAll (slots .batchForget (.batchForget entries))).length < 2 ^ 32) :
    Writes Argument.batchForget header (slots .batchForget (.batchForget entries))
      (.batchForget entries) := by
  have hcount : entries.length ≤ (encodeAll (slots .batchForget (.batchForget entries))).length := by
    have hforgets := Record.length_encode_list entries
    have hsize : Record.size Forget = 16 := rfl
    rw [← map_item_forgets, hsize] at hforgets
    rw [slots, encodeAll_cons, encodeAll_cons, List.length_append, List.length_append, encodeAll, hforgets]
    omega
  have hword : (UInt32.ofNat entries.length).toNat = entries.length :=
    UInt32.toNat_ofNat_of_lt' (show entries.length < 2 ^ 32 by omega)
  refine ⟨{ count := UInt32.ofNat entries.length }, (entries, ()), ?_, rfl, ⟨hword.symm, trivial⟩, rfl⟩
  have hitems := map_item_forgets entries
  exact congrArg (fun items => Item.u32 (UInt32.ofNat entries.length) :: .zeros 4 :: items)
    (hitems.trans (List.append_nil _).symm)

/-! ### Changes of attributes -/

section Setattr

variable {change : AttrChange}

/-- A field of a change is read as it was written, where it is present just when its bit is set. -/
theorem field?_ofChange {α : Type} {bit : AttrBit} (value : Option α) (d : α)
    (h : value.isSome = hasBit change.valid bit.mask) :
    (SetattrArgs.ofChange change).field? bit (value.getD d) = value := by
  have hbit : (SetattrArgs.ofChange change).has bit = value.isSome := h.symm
  rw [SetattrArgs.field?, hbit]
  cases value <;> rfl

theorem timeChange_ofChange {bit nowBit : AttrBit} {time : TimeChange}
    (h : TimeFits change.valid bit.mask nowBit.mask time) :
    (SetattrArgs.ofChange change).timeChange bit nowBit
      { seconds := (time.time?.map Timespec.seconds).getD 0
        nanoseconds := (time.time?.map Timespec.nanoseconds).getD 0 } = time := by
  have hvalid : (SetattrArgs.ofChange change).valid = change.valid := rfl
  rw [SetattrArgs.timeChange, SetattrArgs.has, SetattrArgs.has, hvalid]
  cases time with
  | keep =>
    obtain ⟨hbit, hnow⟩ := h
    rw [hbit, hnow]
    rfl
  | now => rw [show hasBit change.valid nowBit.mask = true from h, if_pos rfl]
  | set time =>
    obtain ⟨hbit, hnow, -⟩ := h
    rw [hbit, hnow]
    rfl

theorem change_ofChange (h : ChangeFits change) : (SetattrArgs.ofChange change).change = change := by
  apply AttrChange.ext
  case valid => rfl
  case fh => exact field?_ofChange change.fh 0 h.fh
  case mode => exact field?_ofChange change.mode 0 h.mode
  case uid => exact field?_ofChange change.uid 0 h.uid
  case gid => exact field?_ofChange change.gid 0 h.gid
  case size => exact field?_ofChange change.size 0 h.size
  case atime => exact timeChange_ofChange h.atime
  case mtime => exact timeChange_ofChange h.mtime
  case ctime =>
    have htime : Timespec.mk ((change.ctime.map Timespec.seconds).getD 0)
        ((change.ctime.map Timespec.nanoseconds).getD 0) = change.ctime.getD ⟨0, 0⟩ := by
      cases change.ctime <;> rfl
    have hfield := congrArg ((SetattrArgs.ofChange change).field? .ctime) htime
    exact hfield.trans (field?_ofChange change.ctime ⟨0, 0⟩ h.ctime)
  case lockOwner =>
    have howner : LockOwner.mk ((change.lockOwner.map LockOwner.raw).getD 0) =
        change.lockOwner.getD ⟨0⟩ := by
      cases change.lockOwner <;> rfl
    have hfield := congrArg ((SetattrArgs.ofChange change).field? .lockOwner) howner
    exact hfield.trans (field?_ofChange change.lockOwner ⟨0⟩ h.lockOwner)

theorem writes_setattr {ino : UInt64} (hino : ino = header.nodeid) (h : ChangeFits change) :
    Writes Argument.setattr header (setattrSlots change) (.setattr ino change) := by
  have hchange := change_ofChange h
  refine ⟨.ofChange change, (), rfl, setattr_objection_eq_none.mpr ?_, trivial, ?_⟩
  · rw [hchange]
    refine ⟨?_, ?_, h.ctime_lt⟩
    · exact h.atime.nanoseconds_lt
    · exact h.mtime.nanoseconds_lt
  · rw [hino]
    exact congrArg (Operation.setattr header.nodeid) hchange.symm

end Setattr

/-! ### Moves and locks -/

theorem writes_rename {source target : Entry} {flags : UInt32}
    (hop : op = .rename ∧ flags = 0 ∨ op = .rename2 ∧ flags < 8) {format : Format}
    (hformat : op.format? = some format) (hsource : InDirectory header source)
    (htarget : IsName 1024 target.name) :
    Writes format header (slots op (.rename source target flags)) (.rename source target flags) := by
  obtain ⟨parent, text⟩ := source
  obtain ⟨rfl, hname⟩ := hsource
  have hlegible : Parts.Legible [.name nameLimit, .name nameLimit] (text, target.name, ()) :=
    ⟨(legible_name_iff rfl).mpr hname, (legible_name_iff rfl).mpr htarget, trivial⟩
  rcases hop with ⟨rfl, rfl⟩ | ⟨rfl, hflags⟩
  · cases hformat
    exact ⟨{ newdir := target.parent }, (text, target.name, ()), rfl, rfl, hlegible, rfl⟩
  · cases hformat
    exact ⟨{ newdir := target.parent, flags }, (text, target.name, ()), rfl,
      rename2_objection_eq_none.mpr hflags, hlegible, rfl⟩

theorem writes_setlk {handle : Handle} (hino : handle.ino = header.nodeid) (owner : LockOwner)
    {lock : FileLock} (hlock : LockFits lock) (sleep : Bool) :
    Writes (setLock sleep) header (lockSlots handle owner lock (flag false 1))
      (.setlk handle owner lock sleep) := by
  obtain ⟨ino, fh⟩ := handle
  obtain rfl : ino = header.nodeid := hino
  refine ⟨{ fh, owner := owner.raw, lock, flags := 0 }, (), rfl, lockObjection_eq_none.mpr hlock,
    trivial, ?_⟩
  exact (if_neg (show ¬ hasBit 0 lockFlock = true by decide)).symm

theorem writes_flock {handle : Handle} (hino : handle.ino = header.nodeid) (owner : LockOwner)
    {command : UInt32} {sleep : Bool} (hcommand : command ∈ flockCommands sleep) :
    Writes (setLock sleep) header (flockSlots handle owner command) (.flock handle owner command) := by
  obtain ⟨ino, fh⟩ := handle
  obtain rfl : ino = header.nodeid := hino
  obtain ⟨hcall, htype⟩ := command_flockType hcommand
  refine ⟨{ fh, owner := owner.raw, flags := 1,
            lock := { start := 0, last := 0, type := flockType command, pid := 0 } }, (), rfl,
    lockObjection_eq_none.mpr ⟨htype, UInt64.le_refl 0⟩, trivial, ?_⟩
  refine (congrArg (Operation.flock ⟨header.nodeid, fh⟩ owner) hcall.symm).trans ?_
  exact (if_pos (show hasBit 1 lockFlock = true by decide)).symm

/-! ### Writing and closing -/

theorem hasBit_releaseFlags (flush flockRelease : Bool) :
    hasBit (bitIf flush 1 ||| bitIf flockRelease 2) releaseFlush = flush ∧
      hasBit (bitIf flush 1 ||| bitIf flockRelease 2) releaseFlock = flockRelease := by
  cases flush <;> cases flockRelease <;> decide

theorem writes_write {target : FilePoint} (hino : target.handle.ino = header.nodeid)
    {flags writeFlags : UInt32} (hflags : hasBit writeFlags 2 = false) {lockOwner : Option LockOwner}
    {bytes : Bytes}
    (hlen : (encodeAll (slots .write (.write target flags writeFlags lockOwner bytes))).length < 2 ^ 32) :
    Writes Argument.write header (slots .write (.write target flags writeFlags lockOwner bytes))
      (.write target flags writeFlags lockOwner bytes) := by
  have hbytes := legible_data bytes (by simp [slots]) hlen
  obtain ⟨⟨ino, fh⟩, offset⟩ := target
  obtain rfl : ino = header.nodeid := hino
  -- The flag of the locking context is taken off the word again, and the other flags are left alone.
  have hrest := or_bitIf_and_not hflags lockOwner.isSome
  have howner := owner_eq_of_hasBit lockOwner (hasBit_or_bitIf (by decide) hflags lockOwner.isSome)
  refine ⟨{ fh, offset, size := UInt32.ofNat bytes.length, flags,
            writeFlags := writeFlags ||| bitIf lockOwner.isSome 2,
            lockOwner := (lockOwner.map LockOwner.raw).getD 0 }, (bytes, ()), rfl, rfl,
    ⟨hbytes, trivial⟩, ?_⟩
  exact congrArg₂ (Operation.write ⟨⟨header.nodeid, fh⟩, offset⟩ flags · · bytes) hrest.symm howner

/-! ## All operations -/

/-- The slots of a well-formed operation are read back by the format of its opcode. -/
theorem writes_slots {format : Format} (hformat : op.format? = some format) {operation : Operation}
    (h : WellFormed header op operation) (hlen : (encodeAll (slots op operation)).length < 2 ^ 32) :
    Writes format header (slots op operation) operation := by
  -- Well-formedness fixes the opcode in each case, and the opcode its format: `cases hformat` puts it in.
  cases operation with
  | lookup entry | unlink entry | rmdir entry =>
    obtain ⟨parent, text⟩ := entry
    obtain ⟨rfl, rfl, hname⟩ := h
    cases hformat
    exact ⟨(), (text, ()), rfl, rfl, ⟨(legible_name_iff rfl).mpr hname, trivial⟩, rfl⟩
  | forget ino nlookup =>
    obtain ⟨rfl, rfl⟩ := h
    cases hformat
    exact ⟨{ nlookup }, (), rfl, rfl, trivial, rfl⟩
  | batchForget entries =>
    obtain rfl := h
    cases hformat
    exact writes_batchForget hlen
  | getattr ino fh =>
    obtain ⟨rfl, rfl⟩ := h
    cases hformat
    exact ⟨{ flags := bitIf fh.isSome 1, fh := fh.getD 0 }, (), rfl, rfl, trivial,
      congrArg (Operation.getattr header.nodeid) (eq_of_flag (by decide) fh)⟩
  | setattr ino change =>
    obtain ⟨rfl, hino, hchange⟩ := h
    cases hformat
    exact writes_setattr hino hchange
  | readlink ino | statfs ino =>
    obtain ⟨rfl, rfl⟩ := h
    cases hformat
    exact ⟨(), (), rfl, rfl, trivial, rfl⟩
  | symlink entry target =>
    obtain ⟨parent, text⟩ := entry
    obtain ⟨rfl, ⟨rfl, hname⟩, htarget⟩ := h
    cases hformat
    exact ⟨(), (text, target, ()), rfl, rfl,
      ⟨(legible_name_iff rfl).mpr hname, (legible_name_iff rfl).mpr htarget, trivial⟩, rfl⟩
  | mknod entry mode rdev umask =>
    obtain ⟨parent, text⟩ := entry
    obtain ⟨rfl, rfl, hname⟩ := h
    cases hformat
    exact ⟨{ mode, rdev, umask }, (text, ()), rfl, rfl, ⟨(legible_name_iff rfl).mpr hname, trivial⟩, rfl⟩
  | mkdir entry mode umask =>
    obtain ⟨parent, text⟩ := entry
    obtain ⟨rfl, rfl, hname⟩ := h
    cases hformat
    exact ⟨{ mode, umask }, (text, ()), rfl, rfl, ⟨(legible_name_iff rfl).mpr hname, trivial⟩, rfl⟩
  | rename source target flags =>
    obtain ⟨hop, hsource, htarget⟩ := h
    exact writes_rename hop hformat hsource htarget
  | link ino target =>
    obtain ⟨parent, text⟩ := target
    obtain ⟨rfl, rfl, hname⟩ := h
    cases hformat
    exact ⟨{ oldnodeid := ino }, (text, ()), rfl, rfl, ⟨(legible_name_iff rfl).mpr hname, trivial⟩, rfl⟩
  | openFile ino flags | openDir ino flags =>
    obtain ⟨rfl, rfl⟩ := h
    cases hformat
    exact ⟨{ flags }, (), rfl, rfl, trivial, rfl⟩
  | read source size flags lockOwner =>
    obtain ⟨⟨ino, fh⟩, offset⟩ := source
    obtain ⟨rfl, rfl⟩ := h
    cases hformat
    have hflag : hasBit (bitIf lockOwner.isSome 2) 2 = lockOwner.isSome := hasBit_bitIf (by decide) _
    have howner := owner_eq_of_hasBit lockOwner hflag
    exact ⟨{ fh, offset, size, flags, readFlags := bitIf lockOwner.isSome 2,
             lockOwner := (lockOwner.map LockOwner.raw).getD 0 }, (), rfl, rfl, trivial,
      congrArg (Operation.read ⟨⟨header.nodeid, fh⟩, offset⟩ size flags) howner⟩
  | write target flags writeFlags lockOwner bytes =>
    obtain ⟨rfl, hino, hflags⟩ := h
    cases hformat
    exact writes_write hino hflags hlen
  | release handle flags lockOwner flush flockRelease =>
    obtain ⟨ino, fh⟩ := handle
    obtain ⟨rfl, rfl⟩ := h
    cases hformat
    refine ⟨{ fh, flags, lockOwner := lockOwner.raw,
              releaseFlags := bitIf flush 1 ||| bitIf flockRelease 2 }, (), rfl, rfl, trivial, ?_⟩
    obtain ⟨hflush, hflock⟩ := hasBit_releaseFlags flush flockRelease
    exact congrArg₂ (Operation.release ⟨header.nodeid, fh⟩ flags lockOwner) hflush.symm hflock.symm
  | fsync handle datasync | fsyncdir handle datasync =>
    obtain ⟨ino, fh⟩ := handle
    obtain ⟨rfl, rfl⟩ := h
    cases hformat
    have hdata : hasBit (bitIf datasync 1) 1 = datasync := hasBit_bitIf (by decide) datasync
    exact ⟨{ fh, flags := bitIf datasync 1 }, (), rfl, rfl, trivial, congrArg _ hdata.symm⟩
  | setxattr ino text value flags =>
    obtain ⟨rfl, rfl, hname⟩ := h
    cases hformat
    have hvalue := legible_data value (by simp [slots]) hlen
    exact ⟨{ size := UInt32.ofNat value.length, flags }, (text, value, ()), rfl, rfl,
      ⟨(legible_name_iff rfl).mpr hname, hvalue, trivial⟩, rfl⟩
  | getxattr ino text size =>
    obtain ⟨rfl, rfl, hname⟩ := h
    cases hformat
    exact ⟨{ size }, (text, ()), rfl, rfl, ⟨(legible_name_iff rfl).mpr hname, trivial⟩, rfl⟩
  | listxattr ino size =>
    obtain ⟨rfl, rfl⟩ := h
    cases hformat
    exact ⟨{ size }, (), rfl, rfl, trivial, rfl⟩
  | removexattr ino text =>
    obtain ⟨rfl, rfl, hname⟩ := h
    cases hformat
    exact ⟨(), (text, ()), rfl, rfl, ⟨(legible_name_iff rfl).mpr hname, trivial⟩, rfl⟩
  | flush handle lockOwner =>
    obtain ⟨ino, fh⟩ := handle
    obtain ⟨rfl, rfl⟩ := h
    cases hformat
    exact ⟨{ fh, lockOwner := lockOwner.raw }, (), rfl, rfl, trivial, rfl⟩
  | readdir source size mode =>
    obtain ⟨⟨ino, fh⟩, offset⟩ := source
    obtain ⟨⟨rfl, rfl⟩ | ⟨rfl, rfl⟩, rfl⟩ := h <;> cases hformat <;>
      exact ⟨{ fh, offset, size, readFlags := 0, lockOwner := 0, flags := 0 }, (), rfl, rfl, trivial, rfl⟩
  | releasedir handle flags =>
    obtain ⟨ino, fh⟩ := handle
    obtain ⟨rfl, rfl⟩ := h
    cases hformat
    exact ⟨{ fh, flags, releaseFlags := 0, lockOwner := 0 }, (), rfl, rfl, trivial, rfl⟩
  | getlk handle owner lock =>
    obtain ⟨ino, fh⟩ := handle
    obtain ⟨rfl, rfl, hlock⟩ := h
    cases hformat
    exact ⟨{ fh, owner := owner.raw, lock, flags := 0 }, (), rfl, lockObjection_eq_none.mpr hlock,
      trivial, rfl⟩
  | setlk handle owner lock sleep =>
    obtain ⟨⟨rfl, rfl⟩ | ⟨rfl, rfl⟩, hino, hlock⟩ := h <;> cases hformat <;>
      exact writes_setlk hino owner hlock _
  | flock handle owner command =>
    obtain ⟨⟨rfl, hcommand⟩ | ⟨rfl, hcommand⟩, hino⟩ := h
    · cases hformat
      exact writes_flock hino owner hcommand
    · cases hformat
      rw [← flockCommands_true] at hcommand
      exact writes_flock hino owner hcommand
  | access ino mask =>
    obtain ⟨rfl, rfl⟩ := h
    cases hformat
    exact ⟨{ mask }, (), rfl, rfl, trivial, rfl⟩
  | create entry mode umask flags =>
    obtain ⟨parent, text⟩ := entry
    obtain ⟨rfl, rfl, hname⟩ := h
    cases hformat
    exact ⟨{ flags, mode, umask }, (text, ()), rfl, rfl, ⟨(legible_name_iff rfl).mpr hname, trivial⟩, rfl⟩
  | interrupt unique =>
    obtain rfl := h
    cases hformat
    exact ⟨{ unique }, (), rfl, rfl, trivial, rfl⟩
  | bmap ino block blocksize =>
    obtain ⟨rfl, rfl⟩ := h
    cases hformat
    exact ⟨{ block, blocksize }, (), rfl, rfl, trivial, rfl⟩
  | poll handle events kh =>
    obtain ⟨ino, fh⟩ := handle
    obtain ⟨rfl, rfl⟩ := h
    cases hformat
    exact ⟨{ fh, kh := kh.getD 0, flags := bitIf kh.isSome 1, events }, (), rfl, rfl, trivial,
      congrArg (Operation.poll ⟨header.nodeid, fh⟩ events) (eq_of_flag (by decide) kh)⟩
  | notifyReply unique ino offset bytes =>
    obtain ⟨rfl, rfl, rfl⟩ := h
    cases hformat
    have hbytes := legible_data bytes (by simp [slots]) hlen
    exact ⟨{ offset, size := UInt32.ofNat bytes.length }, (bytes, ()), rfl, rfl, ⟨hbytes, trivial⟩, rfl⟩
  | fallocate target length mode =>
    obtain ⟨⟨ino, fh⟩, offset⟩ := target
    obtain ⟨rfl, rfl⟩ := h
    cases hformat
    exact ⟨{ fh, offset, length, mode }, (), rfl, rfl, trivial, rfl⟩
  | copyFileRange source target length flags =>
    obtain ⟨⟨ino, fh⟩, offset⟩ := source
    obtain ⟨rfl, rfl⟩ := h
    cases hformat
    exact ⟨{ fhIn := fh, offIn := offset, nodeidOut := target.handle.ino, fhOut := target.handle.fh,
             offOut := target.offset, len := length, flags }, (), rfl, rfl, trivial, rfl⟩

/-! ## Whole requests -/

/-- The header of a request with its opcode and length, as the record that is written. -/
theorem encode_eq (op : Opcode) (header : Header) (operation : Operation) :
    encode op header operation =
      Item.encodeAll (Record.items (sealHeader op header operation)) ++ encodeAll (slots op operation) := by
  rw [encode, requestSlots, encodeAll_append]
  rfl

theorem length_encode (op : Opcode) (header : Header) (operation : Operation) :
    (encode op header operation).length = Header.size + (encodeAll (slots op operation)).length := by
  rw [encode_eq, List.length_append, Record.length_encode]
  rfl

theorem peek_encode (op : Opcode) (header : Header) (operation : Operation) :
    Header.peek (encode op header operation) = sealHeader op header operation := by
  rw [encode_eq, Header.peek, Record.ofBytes_encode]

theorem drop_encode (op : Opcode) (header : Header) (operation : Operation) :
    (encode op header operation).drop Header.size = encodeAll (slots op operation) := by
  rw [encode_eq]
  exact List.drop_left' (Record.length_encode _)

/-- Of a header, only its node and its number have to agree with an operation. -/
theorem WellFormed.of_header {header' : Header} {operation : Operation}
    (hnode : header'.nodeid = header.nodeid) (hunique : header'.unique = header.unique)
    (h : WellFormed header op operation) : WellFormed header' op operation := by
  cases operation <;> simp only [WellFormed, InDirectory, hnode, hunique] at h ⊢ <;> exact h

/-- Every opcode that an operation is written under is decoded. -/
theorem WellFormed.format_isSome {operation : Operation} (h : WellFormed header op operation) :
    op.format?.isSome := by
  cases operation with
  | batchForget | interrupt =>
    obtain rfl := h
    rfl
  | rename | readdir | setlk | flock => rcases h.1 with ⟨rfl, -⟩ | ⟨rfl, -⟩ <;> rfl
  | _ =>
    obtain ⟨rfl, -⟩ := h
    rfl

/-- A well-formed operation comes back behind its header, with opcode and length filled in. -/
theorem decode_sealed {minor : Minor} {operation : Operation} (hminor : op.sinceMinor ≤ minor.number)
    (h : WellFormed header op operation) (hlen : (encode op header operation).length < 2 ^ 32) :
    Request.decode minor (encode op header operation) =
      .ok { header := sealHeader op header operation, operation } := by
  obtain ⟨format, hformat⟩ := Option.isSome_iff_exists.mp h.format_isSome
  have hsize := length_encode op header operation
  have hpeek := peek_encode op header operation
  have hdeclared :
      (Header.peek (encode op header operation)).len.toNat = (encode op header operation).length := by
    rw [hpeek, hsize]
    exact UInt32.toNat_ofNat_of_lt' (show _ < 2 ^ 32 by omega)
  refine Request.decode_eq_ok_iff.mpr ⟨by omega, hdeclared, hpeek.symm, format, ?_, ?_⟩
  · exact Minor.format_eq_ok_iff.mpr ⟨op, Opcode.ofCode?_code op, hformat, hminor⟩
  · have hsealed : WellFormed (sealHeader op header operation) op operation := h.of_header rfl rfl
    rw [drop_encode]
    exact (writes_slots hformat hsealed (by omega)).spell

/-- Decoding undoes the kernel's encoding. Under every opcode and at every minor that has it, a well-formed
operation comes back field for field, behind its header with the opcode and the length of the request. -/
theorem decode_encode (minor : Minor) (op : Opcode) (header : Header) (operation : Operation)
    (hminor : op.sinceMinor ≤ minor.number) (h : WellFormed header op operation)
    (hlen : (encode op header operation).length < 2 ^ 32) :
    Request.decode minor (encode op header operation) =
      .ok { header := { header with
              opcode := op.code
              len := UInt32.ofNat (encode op header operation).length }
            operation } := by
  rw [decode_sealed hminor h hlen, length_encode]
  rfl

/-- A change of permissions, length and both times: the one is stated, the other is to be the present. -/
def stampedChange : AttrChange where
  valid := 0x939
  fh := none
  mode := some 0o644
  uid := none
  gid := none
  size := some 4096
  atime := .set { seconds := 7, nanoseconds := 999999999 }
  mtime := .now
  ctime := none
  lockOwner := none

/-- The header of a request about node 5. -/
def fifthNode : Header where
  len := 0
  opcode := 0
  unique := 1
  nodeid := 5
  uid := 1000
  gid := 100
  pid := 4242

theorem decode_encode_stampedChange :
    WellFormed fifthNode .setattr (.setattr 5 stampedChange) ∧
      Request.decode .oldest (encode .setattr fifthNode (.setattr 5 stampedChange)) =
        .ok { header := { fifthNode with opcode := 4, len := 128 }
              operation := .setattr 5 stampedChange } := by
  have hchange : ChangeFits stampedChange :=
    { mode := by decide, uid := by decide, gid := by decide, size := by decide, fh := by decide
      lockOwner := by decide, ctime := by decide, ctime_lt := nofun
      atime := ⟨by decide, by decide, by decide⟩, mtime := (by decide : hasBit 0x939 0x100 = true) }
  have hwell : WellFormed fifthNode .setattr (.setattr 5 stampedChange) := ⟨rfl, rfl, hchange⟩
  have hlength : (encode .setattr fifthNode (.setattr 5 stampedChange)).length = 128 := by
    rw [length_encode]
    decide
  have hdecode := decode_encode .oldest .setattr fifthNode _ (by decide) hwell (by rw [hlength]; decide)
  rw [hlength] at hdecode
  exact ⟨hwell, hdecode⟩

end FuseAbi.Kernel
