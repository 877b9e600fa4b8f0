import FuseAbi.Proofs.Terminator
import FuseAbi.Argument.Format

/-!
# Reading at another base

A cursor knows its place in the request, and the place is only ever reported: no read decides anything by it. So
a region that starts at another base is read as before, and every place that is reported, that of an error and
that of the cursor, is moved by as much as the base.

This is a law of two runs side by side (`Scan.Alike`), and it is made up as the reads are: for each primitive, for
one read behind the other, and from that for records, parts and whole formats. The reads that ask for the place
are the reason why the two runs are related and not just equal: what they give is moved as well
(`Scan.alike_offset`). Between two reads the values may be related by anything, so the law also compares the
reads of two different formats.
-/

namespace FuseAbi

/-- The cursor with the same bytes ahead, at a place so much further on, modulo 2 ^ 64. -/
def Cursor.shift (c : Cursor) (way : UInt64) : Cursor :=
  { c with offset := c.offset + way }

/-- A shifted cursor is moved on like the one that it was shifted from. -/
theorem Cursor.shift_advance (c : Cursor) (way : UInt64) (n : Nat) :
    (c.shift way).advance n = (c.advance n).shift way := by
  have hplace : c.offset + way + UInt64.ofNat n = c.offset + UInt64.ofNat n + way := by ac_rfl
  exact congrArg (Cursor.mk · _) hplace

/-- The error with its blame so much further on. -/
def DecodeError.shift (e : DecodeError) (way : UInt64) : DecodeError :=
  { e with offset := e.offset + way }

/-- Reads end alike, the second so much further on: both go through with related values, or both fail with the
same fault and opcode. The same bytes are left, and the places are moved. -/
inductive EndAlike (way : UInt64) {α β : Type} (R : α → β → Prop) :
    EStateM.Result DecodeError Cursor α → EStateM.Result DecodeError Cursor β → Prop
  | ok {a : α} {b : β} {c : Cursor} (h : R a b) : EndAlike way R (.ok a c) (.ok b (c.shift way))
  | error {e : DecodeError} {c : Cursor} : EndAlike way R (.error e c) (.error (e.shift way) (c.shift way))

namespace Scan

variable {way : UInt64} {α β γ δ : Type} {R : α → β → Prop} {Q : γ → δ → Prop}

/-- Reads that end alike wherever the first one starts, the second so much further on. -/
def Alike (way : UInt64) (R : α → β → Prop) (s : Scan α) (t : Scan β) : Prop :=
  ∀ c : Cursor, EndAlike way R (s.run c) (t.run (c.shift way))

theorem alike_pure {a : α} {b : β} (h : R a b) : Alike way R (pure a) (pure b) :=
  fun _ => .ok h

theorem alike_throw (e : DecodeError) : Alike way R (throw e) (throw (e.shift way)) :=
  fun _ => .error

/-- One read behind the other: related values are handed on, and the second reads start alike. -/
theorem Alike.bind {s : Scan α} {t : Scan β} {f : α → Scan γ} {g : β → Scan δ} (hs : Alike way R s t)
    (hf : ∀ a b, R a b → Alike way Q (f a) (g b)) : Alike way Q (s >>= f) (t >>= g) := by
  intro c
  have hrun := hs c
  generalize hsrun : s.run c = first at hrun
  generalize htrun : t.run (c.shift way) = second at hrun
  cases hrun with
  | ok h =>
    rw [run_bind_of_ok hsrun, run_bind_of_ok htrun]
    exact hf _ _ h _
  | error =>
    rw [run_bind_of_error hsrun, run_bind_of_error htrun]
    exact .error

theorem Alike.map {s : Scan α} {t : Scan β} {f : α → γ} {g : β → δ} (hs : Alike way R s t)
    (hf : ∀ a b, R a b → Q (f a) (g b)) : Alike way Q (f <$> s) (g <$> t) := by
  rw [← bind_pure_comp, ← bind_pure_comp]
  exact hs.bind fun a b h => alike_pure (hf a b h)

/-- Reads that give the same value are followed by reads that start from it. -/
theorem Alike.bind_eq {s t : Scan α} {f : α → Scan γ} {g : α → Scan δ} (hs : Alike way Eq s t)
    (hf : ∀ a, Alike way Q (f a) (g a)) : Alike way Q (s >>= f) (t >>= g) := by
  apply hs.bind
  rintro a _ rfl
  exact hf a

/-! ## Primitive reads -/

/-- The place itself is moved. -/
theorem alike_offset : Alike way (fun place place' => place' = place + way) offset offset :=
  fun _ => .ok rfl

theorem alike_remaining : Alike way Eq remaining remaining :=
  fun _ => .ok rfl

theorem alike_refuse (fault : Fault) : Alike way R (refuse fault) (refuse fault) := by
  apply alike_offset.bind
  rintro place _ rfl
  exact alike_throw { fault, offset := place }

theorem alike_take (n : Nat) : Alike way Eq (take n) (take n) := by
  intro c
  by_cases hn : n ≤ c.unread.length
  · rw [take_of_le hn, take_of_le (c := c.shift way) hn, c.shift_advance]
    exact .ok rfl
  · have hlt := Nat.lt_of_not_le hn
    rw [take_of_lt hlt, take_of_lt (c := c.shift way) hlt]
    exact .error

theorem alike_cstring (limit : UInt64) : Alike way Eq (cstring limit) (cstring limit) := by
  intro c
  by_cases hzero : ∃ i < (limit + 1).toNat, c.unread[i]? = some 0
  · obtain ⟨place, hlt, hfirst⟩ := exists_firstZeroAt hzero
    rw [cstring_of_firstZero hfirst hlt, cstring_of_firstZero (c := c.shift way) hfirst hlt, c.shift_advance]
    exact .ok rfl
  · push Not at hzero
    rw [cstring_of_noZero hzero, cstring_of_noZero (c := c.shift way) hzero]
    exact .error

/-! ## Words, records and rows of records -/

theorem alike_u32 : Alike way Eq u32 u32 :=
  ((alike_take 4).map fun _ _ => congrArg ofLittleEndian).map fun _ _ => congrArg UInt32.ofNat

theorem alike_u64 : Alike way Eq u64 u64 :=
  ((alike_take 8).map fun _ _ => congrArg ofLittleEndian).map fun _ _ => congrArg UInt64.ofNat

theorem alike_skip (n : Nat) : Alike way Eq (skip n) (skip n) :=
  (alike_take n).bind_eq fun _ => alike_pure rfl

theorem alike_many {s : Scan α} (hs : Alike way Eq s s) (n : Nat) : Alike way Eq (many s n) (many s n) := by
  induction n with
  | zero => exact alike_pure rfl
  | succ n ih => exact hs.bind_eq fun _ => ih.bind_eq fun _ => alike_pure rfl

end Scan

variable {way : UInt64}

theorem Values.alike_read (layout : List Field) : Scan.Alike way Eq (read layout) (read layout) := by
  induction layout with
  | nil => exact Scan.alike_pure rfl
  | cons field rest ih =>
    cases field with
    | u32 => exact Scan.alike_u32.bind_eq fun _ => ih.bind_eq fun _ => Scan.alike_pure rfl
    | u64 => exact Scan.alike_u64.bind_eq fun _ => ih.bind_eq fun _ => Scan.alike_pure rfl
    | pad width => exact (Scan.alike_skip width).bind_eq fun _ => ih

theorem Record.alike_read {α : Type} [Record α] : Scan.Alike way Eq (read : Scan α) read :=
  (Values.alike_read (layout α)).map fun _ _ => congrArg ofValues

namespace Argument

/-! ## Parts and formats -/

theorem Part.alike_readForgets (count : UInt32) :
    Scan.Alike way Eq (readForgets count) (readForgets count) := by
  refine Scan.alike_remaining.bind_eq fun left => ?_
  dsimp only
  split
  next => exact Scan.alike_refuse _
  next =>
    split
    next => exact Scan.alike_refuse _
    next => exact Scan.alike_many Record.alike_read _

theorem Part.alike_read (part : Part) : Scan.Alike way Eq part.read part.read := by
  cases part with
  | name limit => exact Scan.alike_cstring limit
  | data size => exact Scan.alike_take size.toNat
  | forgets count => exact Part.alike_readForgets count

theorem Parts.alike_read (parts : List Part) : Scan.Alike way Eq (read parts) (read parts) := by
  induction parts with
  | nil => exact Scan.alike_pure rfl
  | cons part rest ih => exact part.alike_read.bind_eq fun _ => ih.bind_eq fun _ => Scan.alike_pure rfl

/-- A value that is refused is blamed on a place counted from the start, which is moved along. -/
theorem Format.alike_read (format : Format) (header : Header) :
    Scan.Alike way Eq (format.read header) (format.read header) := by
  apply Scan.alike_offset.bind
  rintro start _ rfl
  refine Record.alike_read.bind_eq fun fixed => ?_
  cases format.objection fixed with
  | none => exact (Parts.alike_read _).bind_eq fun _ => Scan.alike_pure rfl
  | some objection =>
    have hplace : start + way + objection.place = start + objection.place + way := by ac_rfl
    dsimp only
    rw [hplace]
    exact Scan.alike_throw { fault := objection.fault, offset := start + objection.place }

end Argument

/-- A cursor at one base is that at another, shifted by the way between them. -/
theorem Cursor.shift_sub (base base' : UInt64) (region : Bytes) :
    ({ offset := base, unread := region } : Cursor).shift (base' - base) =
      { offset := base', unread := region } := by
  have hbase : base + (base' - base) = base' := by
    rw [UInt64.add_comm, UInt64.sub_add_cancel]
  exact congrArg (Cursor.mk · region) hbase

/-- The base of a region shows in the places that are reported, and nowhere else. Behind any header, a region is
read alike at any two bases, be it by the format of an opcode or as a record: both reads give the same value, or
both fail with the same fault and no other opcode; as many bytes are left; and the place of the cursor, and of
the error, are moved by the way from one base to the other, also where a place wraps around. -/
theorem reads_alike_at_any_base (header : Header) (region : Bytes) (base base' : UInt64) :
    (∀ format : Argument.Format, EndAlike (base' - base) Eq
      ((format.read header).run { offset := base, unread := region })
      ((format.read header).run { offset := base', unread := region })) ∧
    ∀ (α : Type) [Record α], EndAlike (base' - base) Eq
      ((Record.read : Scan α).run { offset := base, unread := region })
      ((Record.read : Scan α).run { offset := base', unread := region }) := by
  rw [← Cursor.shift_sub base base' region]
  exact ⟨fun format => format.alike_read header _, fun α _ => Record.alike_read _⟩

end FuseAbi
