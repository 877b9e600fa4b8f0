import FuseAbi.Proofs.Decode
import FuseAbi.Proofs.Shift
import FuseAbi.Proofs.Validity

/-!
# Moving with flags and without

A move with flags is a move without any whose record is eight bytes longer: flags and padding stand between the
new directory and the names. The flags are looked at before the names are, and from there on both moves read the
same two names, the second one eight bytes further on. So the law of the base (`Parts.alike_read`) relates the two,
whatever stands where the names should.
-/

namespace FuseAbi

/-- Behind the front of a region, a cursor stands at the rest. -/
theorem Cursor.advance_append {front : Bytes} {n : Nat} (h : front.length = n) (offset : UInt64)
    (rest : Bytes) :
    ({ offset, unread := front ++ rest } : Cursor).advance n =
      { offset := offset + UInt64.ofNat n, unread := rest } :=
  congrArg (Cursor.mk _) (List.drop_left' h)

namespace Argument

/-! ## The two records -/

/-- The arguments of a move without flags, with anything behind the record. -/
def renameBytes (newdir : UInt64) (tail : Bytes) : Bytes :=
  Item.encodeAll [.u64 newdir] ++ tail

/-- The arguments of a move with flags, with any padding and anything behind the record. -/
def rename2Bytes (newdir : UInt64) (flags padding : UInt32) (tail : Bytes) : Bytes :=
  Item.encodeAll [.u64 newdir, .u32 flags, .u32 padding] ++ tail

/-- What both kinds of moves have behind their records: the old name and the new one. -/
def movedNames : List Part :=
  [.name nameLimit, .name nameLimit]

/-- The move from the directory of a header to a new one. -/
def move (header : Header) (newdir : UInt64) (flags : UInt32) : Parts movedNames → Operation :=
  fun (old, new, ()) => .rename { parent := header.nodeid, name := old } { parent := newdir, name := new } flags

variable (header : Header) (base newdir : UInt64) (flags padding : UInt32) (tail : Bytes)

/-- Without flags, the names are read behind eight bytes. -/
theorem read_rename :
    (rename.read header).run { offset := base, unread := renameBytes newdir tail } =
      (move header newdir 0 <$> Parts.read movedNames).run { offset := base + 8, unread := tail } := by
  have hfront : (Item.encodeAll [.u64 newdir]).length = 8 := Record.length_encode ({ newdir } : RenameArgs)
  have hfixed : (Record.ofBytes (renameBytes newdir tail) : RenameArgs) = { newdir } :=
    Record.ofBytes_encode ({ newdir } : RenameArgs) tail
  have hsize : 8 ≤ (renameBytes newdir tail).length := by
    rw [renameBytes, List.length_append]
    omega
  have hread := Format.read_of_noObjection rename header
    (c := { offset := base, unread := renameBytes newdir tail }) hsize hfixed rfl
  exact hread.trans (congrArg _ (Cursor.advance_append hfront base tail))

/-- The padding has no part in the record. -/
theorem ofBytes_rename2 :
    (Record.ofBytes (rename2Bytes newdir flags padding tail) : Rename2Args) = { newdir, flags } := by
  have hwords := Values.ofBytes_encode [.u64, .u32] (newdir, flags, ()) (littleEndian 4 padding.toNat ++ tail)
  exact congrArg (Record.ofValues (α := Rename2Args)) hwords

theorem length_rename2 : (Item.encodeAll [.u64 newdir, .u32 flags, .u32 padding]).length = 16 :=
  Values.length_encode [.u64, .u32, .u32] (newdir, flags, padding, ())

theorem le_length_rename2 : 16 ≤ (rename2Bytes newdir flags padding tail).length := by
  have hfront := length_rename2 newdir flags padding
  rw [rename2Bytes, List.length_append]
  omega

/-- With known flags, the names are read behind sixteen bytes. -/
theorem read_rename2 (h : flags < 8) :
    (rename2.read header).run { offset := base, unread := rename2Bytes newdir flags padding tail } =
      (move header newdir flags <$> Parts.read movedNames).run { offset := base + 16, unread := tail } := by
  have hobj : rename2.objection { newdir, flags : Rename2Args } = none :=
    Kernel.rename2_objection_eq_none.mpr h
  have hread := Format.read_of_noObjection rename2 header
    (c := { offset := base, unread := rename2Bytes newdir flags padding tail })
    (le_length_rename2 newdir flags padding tail) (ofBytes_rename2 newdir flags padding tail) hobj
  exact hread.trans (congrArg _ (Cursor.advance_append (length_rename2 newdir flags padding) base tail))

/-- With unknown flags, nothing behind the record is read. -/
theorem read_rename2_of_unknown (h : ¬ flags < 8) :
    (rename2.read header).run { offset := base, unread := rename2Bytes newdir flags padding tail } =
      .error { fault := .renameFlags flags, offset := base + 8 } { offset := base + 16, unread := tail } := by
  have hunknown : hasBit flags (~~~renameFlags) = true := by
    rw [← Bool.not_eq_false]
    exact fun hknown => h ((hasBit_not_seven flags).mp hknown)
  have hobj : rename2.objection (Record.ofBytes (rename2Bytes newdir flags padding tail)) =
      some { place := 8, fault := .renameFlags flags } :=
    (congrArg rename2.objection (ofBytes_rename2 newdir flags padding tail)).trans (if_pos hunknown)
  have hsize : Record.size rename2.Fixed ≤ (rename2Bytes newdir flags padding tail).length :=
    le_length_rename2 newdir flags padding tail
  have hread : (rename2.read header).run { offset := base, unread := rename2Bytes newdir flags padding tail } =
      .error _ _ := Format.read_of_objection hsize hobj
  exact hread.trans
    (congrArg (EStateM.Result.error _) (Cursor.advance_append (length_rename2 newdir flags padding) base tail))

/-! ## The refinement -/

/-- Moves of one name to one place, the second with flags and the first without any. -/
def SameMove (plain flagged : Operation) : Prop :=
  ∃ old new : Bytes,
    plain = .rename { parent := header.nodeid, name := old } { parent := newdir, name := new } 0 ∧
    flagged = .rename { parent := header.nodeid, name := old } { parent := newdir, name := new } flags

/-- The names behind both records are read alike, eight bytes apart. -/
theorem alike_move :
    Scan.Alike 8 (SameMove header newdir flags) (move header newdir 0 <$> Parts.read movedNames)
      (move header newdir flags <$> Parts.read movedNames) := by
  apply (Parts.alike_read movedNames).map
  rintro ⟨old, new, ⟨⟩⟩ _ rfl
  exact ⟨old, new, rfl, rfl⟩

/-- A move with flags refines one without. Over the same new directory and the same bytes where the names should
be, whatever these are, known flags make no difference but to be carried along: both moves go through, between
the same names and with the same bytes left, or both fail with the same fault, blamed eight bytes further on where
there are flags. Unknown flags are refused in any case, and blamed on their own place. -/
theorem rename2_refines_rename (header : Header) (base newdir : UInt64) (flags padding : UInt32)
    (tail : Bytes) :
    let plain := (rename.read header).run { offset := base, unread := renameBytes newdir tail }
    let flagged := (rename2.read header).run
      { offset := base, unread := rename2Bytes newdir flags padding tail }
    (flags < 8 → EndAlike 8 (SameMove header newdir flags) plain flagged) ∧
    (8 ≤ flags → ∃ e d, flagged = .error e d ∧ e.kind = .malformedArgument ∧ e.offset = base + 8) := by
  intro plain flagged
  constructor
  · intro hflags
    have hplace : base + 8 + 8 = base + 16 := UInt64.add_assoc base 8 8
    have halike := alike_move header newdir flags { offset := base + 8, unread := tail }
    have hplain : plain = _ := read_rename header base newdir tail
    have hflagged : flagged = _ := read_rename2 header base newdir flags padding tail hflags
    rw [hplain, hflagged, ← hplace]
    exact halike
  · intro hflags
    have hunknown := read_rename2_of_unknown header base newdir flags padding tail (UInt32.not_lt.mpr hflags)
    exact ⟨_, _, hunknown, rfl, rfl⟩

/-- Near the greatest base, a move with flags and dirty padding goes through as the one without does, and leaves
the byte behind the names; and an unknown flag is refused where there are no names at all. -/
theorem rename2_refines_rename_exchange :
    ((2 : UInt32) < 8 ∧ ∃ d,
      (rename2.read (Header.peek [])).run
          { offset := 0xFFFFFFFFFFFFFFF0, unread := rename2Bytes 7 2 0xFFFFFFFF [97, 0, 98, 0, 99] } =
        .ok (.rename { parent := 0, name := [97] } { parent := 7, name := [98] } 2) d ∧ d.unread = [99]) ∧
    8 ≤ (8 : UInt32) ∧ ∃ e d,
      (rename2.read (Header.peek [])).run { offset := 0xFFFFFFFFFFFFFFF8, unread := rename2Bytes 7 8 0 [] } =
        .error e d ∧ e.kind = .malformedArgument ∧ e.offset = 0 := by
  have hknown : (2 : UInt32) < 8 := by decide
  have hunknown : 8 ≤ (8 : UInt32) := by decide
  obtain ⟨halike, -⟩ :=
    rename2_refines_rename (Header.peek []) 0xFFFFFFFFFFFFFFF0 7 2 0xFFFFFFFF [97, 0, 98, 0, 99]
  obtain ⟨-, hrefused⟩ := rename2_refines_rename (Header.peek []) 0xFFFFFFFFFFFFFFF8 7 8 0 []
  have hplain : (rename.read (Header.peek [])).run
        { offset := 0xFFFFFFFFFFFFFFF0, unread := renameBytes 7 [97, 0, 98, 0, 99] } =
      .ok (.rename { parent := 0, name := [97] } { parent := 7, name := [98] } 0)
        { offset := 0xFFFFFFFFFFFFFFFC, unread := [99] } := by
    rfl
  have hmoves := halike hknown
  rw [hplain] at hmoves
  generalize hflagged : (rename2.read (Header.peek [])).run _ = flagged at hmoves
  cases hmoves with
  | ok hsame =>
    obtain ⟨old, new, hold, hnew⟩ := hsame
    cases hold
    cases hnew
    exact ⟨⟨hknown, _, hflagged, rfl⟩, hunknown, hrefused hunknown⟩

end Argument

end FuseAbi
