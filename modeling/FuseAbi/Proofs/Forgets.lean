import FuseAbi.Proofs.Decode

/-!
# The arithmetic of forget records

A request to drop several references announces a number of records, and the records have to fill the arguments.
Two checks are made before the first of them is read: that what follows the count is a whole number of records,
and that it is the announced number. Behind these checks every read in the loop finds its sixteen bytes
(`many_forgets`), so the loop cannot fail, whatever was announced.

`Kernel.batchForget_arithmetic` sums up: which sizes are read and what they give, which are refused, and for
what. The entries are said of the bytes of the arguments, each by its place (`Kernel.forgetAt`).
-/

namespace FuseAbi

namespace Record

variable {α : Type} [Record α]

/-- Records in a row are the records at every multiple of their size. -/
theorem listOf_eq_map (n : Nat) (s : Bytes) :
    (listOf n s : List α) = (List.range n).map fun i => ofBytes (s.drop (size α * i)) := by
  induction n generalizing s with
  | zero => rfl
  | succ n ih =>
    rw [listOf, ih, List.range_succ_eq_map, List.map_cons, List.map_map, Nat.mul_zero, List.drop_zero]
    refine congrArg (ofBytes s :: ·) (List.map_congr_left fun i _ => ?_)
    rw [Function.comp_apply, List.drop_drop, Nat.mul_succ, Nat.add_comm]

end Record

namespace Kernel

open Argument

variable {header : Header} {c : Cursor}

/-- The record with a number, by the places of its two words in the arguments. -/
def forgetAt (s : Bytes) (i : Nat) : Forget where
  nodeid := longAt s (8 + 16 * i)
  nlookup := longAt s (16 + 16 * i)

theorem ofBytes_eq_forgetAt (s : Bytes) (i : Nat) :
    (Record.ofBytes ((s.drop 8).drop (Record.size Forget * i)) : Forget) = forgetAt s i := by
  have hplace : (s.drop 8).drop (Record.size Forget * i) = s.drop (8 + 16 * i) := List.drop_drop
  have hnext : 8 + 16 * i + 8 = 16 + 16 * i := by omega
  rw [hplace]
  simp only [Record.ofBytes, Record.layout, Values.ofBytes_drop_u64, hnext]
  rfl

/-- Records behind a count are those at their places. -/
theorem listOf_eq_forgetAt (n : Nat) (s : Bytes) :
    (Record.listOf n (s.drop 8) : List Forget) = (List.range n).map (forgetAt s) := by
  rw [Record.listOf_eq_map]
  exact List.map_congr_left fun i _ => ofBytes_eq_forgetAt s i

/-! ## The loop -/

/-- Where there is room for all announced records, the loop reads them one after the other: at every step as
many as were asked for so far are read, in the order in which they stand, and just their bytes are taken. -/
theorem many_forgets {count n : Nat} (h : 8 + 16 * count ≤ c.unread.length) (hn : n ≤ count) :
    (Scan.many (Record.read : Scan Forget) n).run (c.advance 8) =
      .ok ((List.range n).map (forgetAt c.unread)) (c.advance (8 + 16 * n)) := by
  have hsize : Record.size Forget = 16 := rfl
  have hroom : n * Record.size Forget ≤ (c.advance 8).unread.length := by
    rw [Cursor.advance_unread, List.length_drop, hsize]
    omega
  rw [Record.many_of_le hroom, Cursor.advance_unread, listOf_eq_forgetAt, Cursor.advance_advance, hsize,
    Nat.mul_comm]

/-! ## The three outcomes -/

/-- Without bytes for the count, the read is truncated. -/
theorem read_batchForget_of_lt (h : c.unread.length < 8) :
    ∃ e d, (batchForget.read header).run c = .error e d ∧ e.kind = .truncated := by
  have hsize : c.unread.length < Record.size batchForget.Fixed := h
  exact ⟨_, _, Format.read_of_lt hsize, rfl⟩

/-- Records that fill the arguments are read, to the last byte. -/
theorem read_batchForget_of_eq (hsize : 8 ≤ c.unread.length)
    (h : c.unread.length - 8 = 16 * (wordAt c.unread 0).toNat) :
    (batchForget.read header).run c =
      .ok (.batchForget ((List.range (wordAt c.unread 0).toNat).map (forgetAt c.unread)))
        (c.advance c.unread.length) := by
  have hfill : (c.advance 8).unread.length = (wordAt c.unread 0).toNat * Record.size Forget := by
    rw [Cursor.advance_unread, List.length_drop, h, Nat.mul_comm]
    rfl
  have hforgets := Part.readForgets_of_eq hfill
  have hend : (c.advance 8).advance (c.advance 8).unread.length = c.advance c.unread.length := by
    rw [Cursor.advance_advance, Cursor.advance_unread, List.length_drop, Nat.add_sub_cancel' hsize]
  rw [hend, Cursor.advance_unread, listOf_eq_forgetAt] at hforgets
  have hrecord : Record.size batchForget.Fixed ≤ c.unread.length := hsize
  have hparts : (Parts.read [.forgets (wordAt c.unread 0)]).run (c.advance 8) = .ok (_, ()) _ :=
    Parts.read_cons_of_ok hforgets rfl
  exact Format.read_of_parts_ok hrecord rfl hparts

/-- Anything else behind the count is refused there. -/
theorem read_batchForget_of_ne (hsize : 8 ≤ c.unread.length)
    (h : c.unread.length - 8 ≠ 16 * (wordAt c.unread 0).toNat) :
    (batchForget.read header).run c =
      .error { fault := Part.forgetsFault (wordAt c.unread 0) (c.unread.length - 8), offset := c.offset + 8 }
        (c.advance 8) := by
  have hleft : (c.advance 8).unread.length = c.unread.length - 8 := List.length_drop
  have hne : (c.advance 8).unread.length ≠ (wordAt c.unread 0).toNat * Record.size Forget := by
    rw [hleft, Nat.mul_comm]
    exact h
  have hforgets := Part.readForgets_of_ne hne
  rw [hleft] at hforgets
  have hrecord : Record.size batchForget.Fixed ≤ c.unread.length := hsize
  exact Format.read_of_parts_error hrecord rfl (Scan.run_bind_of_error hforgets)

/-- Only arguments that announce as many records as they have are read. -/
theorem size_of_read_batchForget {op : Operation} {d : Cursor}
    (h : (batchForget.read header).run c = .ok op d) :
    8 ≤ c.unread.length ∧ c.unread.length - 8 = 16 * (wordAt c.unread 0).toNat := by
  by_cases hsize : 8 ≤ c.unread.length
  · refine ⟨hsize, ?_⟩
    by_contra hne
    cases (read_batchForget_of_ne hsize hne).symm.trans h
  · have hshort : ∃ e d, (batchForget.read header).run c = .error e d ∧ e.kind = .truncated :=
      read_batchForget_of_lt (Nat.lt_of_not_le hsize)
    obtain ⟨e, d', he, -⟩ := hshort
    cases he.symm.trans h

/-- Only arguments without bytes for the count are truncated. -/
theorem size_of_truncated_batchForget {e : DecodeError} {d : Cursor}
    (h : (batchForget.read header).run c = .error e d) (hkind : e.kind = .truncated) :
    c.unread.length < 8 := by
  by_contra hsize
  rw [Nat.not_lt] at hsize
  by_cases heq : c.unread.length - 8 = 16 * (wordAt c.unread 0).toNat
  · cases (read_batchForget_of_eq hsize heq).symm.trans h
  · cases (read_batchForget_of_ne hsize heq).symm.trans h
    cases hkind.symm.trans (Part.ofKind_forgetsFault _ _).1

/-! ## The law -/

/-- Arguments of any size, at any place, announce a number of records and have some bytes behind it. They are
read exactly where those bytes are as many records as announced: then all of the arguments are taken, and the
entries are the records in the order of the wire, each of them once. They are truncated exactly where there is
no room for the count. In all other cases the bytes behind the count are blamed, for not being whole records
whatever was announced, or else for being another number of them. And once both checks are passed, the loop
goes through, at every step of it. -/
theorem batchForget_arithmetic (header : Header) (base : UInt64) (s : Bytes) :
    let start : Cursor := { offset := base, unread := s }
    let scan := batchForget.read header
    let count := (wordAt s 0).toNat
    ((∃ op d, scan.run start = .ok op d) ↔ 8 ≤ s.length ∧ s.length - 8 = 16 * count) ∧
      (∀ op d, scan.run start = .ok op d →
        op = .batchForget ((List.range count).map (forgetAt s)) ∧ d = start.advance s.length ∧ d.unread = []) ∧
      ((∃ e d, scan.run start = .error e d ∧ e.kind = .truncated) ↔ s.length < 8) ∧
      (8 ≤ s.length → (s.length - 8) % 16 ≠ 0 →
        ∃ e d, scan.run start = .error e d ∧ e.kind = .malformedArgument ∧ e.offset = base + 8 ∧
          e.reason = decimal (s.length - 8) ++ ascii " bytes is not a whole number of forget records") ∧
      (8 ≤ s.length → (s.length - 8) % 16 = 0 → (s.length - 8) / 16 ≠ count →
        ∃ e d, scan.run start = .error e d ∧ e.kind = .malformedArgument ∧ e.offset = base + 8 ∧
          e.reason = ascii "count " ++ decimal count ++ ascii " but " ++ decimal ((s.length - 8) / 16) ++
            ascii " records present") ∧
      (8 ≤ s.length → s.length - 8 = 16 * count → ∀ n ≤ count,
        (Scan.many (Record.read : Scan Forget) n).run (start.advance 8) =
          .ok ((List.range n).map (forgetAt s)) (start.advance (8 + 16 * n))) := by
  intro start scan count
  have hfull : 8 ≤ s.length → s.length - 8 = 16 * count → scan.run start = _ :=
    read_batchForget_of_eq (c := start)
  have hwrong : 8 ≤ s.length → s.length - 8 ≠ 16 * count → scan.run start = _ :=
    read_batchForget_of_ne (c := start)
  have hmalformed : (Part.forgetsFault (wordAt s 0) (s.length - 8)).kind = .malformedArgument :=
    (Part.ofKind_forgetsFault _ _).1
  refine ⟨⟨?_, ?_⟩, ?_, ⟨?_, read_batchForget_of_lt (c := start)⟩, ?_, ?_, ?_⟩
  · rintro ⟨op, d, hop⟩
    exact size_of_read_batchForget hop
  · rintro ⟨hsize, heq⟩
    exact ⟨_, _, hfull hsize heq⟩
  · intro op d hop
    obtain ⟨hsize, heq⟩ := size_of_read_batchForget hop
    cases (hfull hsize heq).symm.trans hop
    exact ⟨rfl, rfl, List.drop_length⟩
  · rintro ⟨e, d, he, hkind⟩
    exact size_of_truncated_batchForget he hkind
  · intro hsize hpartial
    have hne : s.length - 8 ≠ 16 * count := by omega
    exact ⟨_, _, hwrong hsize hne, hmalformed, rfl, congrArg Fault.reason (if_pos hpartial)⟩
  · intro hsize hwhole hcount
    have hne : s.length - 8 ≠ 16 * count := by omega
    exact ⟨_, _, hwrong hsize hne, hmalformed, rfl, congrArg Fault.reason (if_neg (not_not_intro hwhole))⟩
  · intro hsize heq n hn
    have hroom : 8 + 16 * count ≤ s.length := by omega
    exact many_forgets (c := start) hroom hn

/-- Two records, of nodes five and six, behind an announced number of them. -/
def twoForgets (count : UInt32) : Bytes :=
  Item.encodeAll [.u32 count, .zeros 4, .u64 5, .u64 1, .u64 6, .u64 2]

/-- They are read where two are announced, refused for their number where the most possible are, and refused as
broken where a byte is missing. -/
theorem batchForget_arithmetic_twoForgets :
    ((8 ≤ (twoForgets 2).length ∧ (twoForgets 2).length - 8 = 16 * (wordAt (twoForgets 2) 0).toNat) ∧
      ∃ op d, (batchForget.read (Header.peek [])).run { offset := -8, unread := twoForgets 2 } = .ok op d ∧
        op = .batchForget [{ nodeid := 5, nlookup := 1 }, { nodeid := 6, nlookup := 2 }] ∧ d.unread = []) ∧
      (((twoForgets (-1)).length - 8) % 16 = 0 ∧
        ((twoForgets (-1)).length - 8) / 16 ≠ (wordAt (twoForgets (-1)) 0).toNat ∧
        ∃ e d, (batchForget.read (Header.peek [])).run { offset := -8, unread := twoForgets (-1) } =
            .error e d ∧
          e.offset = 0 ∧ e.reason = ascii "count 4294967295 but 2 records present") ∧
      ((twoForgets 2).dropLast.length - 8) % 16 ≠ 0 ∧
        ∃ e d, (batchForget.read (Header.peek [])).run { offset := -8, unread := (twoForgets 2).dropLast } =
            .error e d ∧
          e.offset = 0 ∧ e.reason = ascii "31 bytes is not a whole number of forget records" := by
  obtain ⟨hread, hok, -⟩ := batchForget_arithmetic (Header.peek []) (-8) (twoForgets 2)
  obtain ⟨-, -, -, -, hmiscounted, -⟩ := batchForget_arithmetic (Header.peek []) (-8) (twoForgets (-1))
  obtain ⟨-, -, -, hbroken, -⟩ := batchForget_arithmetic (Header.peek []) (-8) (twoForgets 2).dropLast
  have hfill : 8 ≤ (twoForgets 2).length ∧
      (twoForgets 2).length - 8 = 16 * (wordAt (twoForgets 2) 0).toNat := by
    decide
  obtain ⟨op, d, hop⟩ := hread.mpr hfill
  obtain ⟨hentries, -, hend⟩ := hok op d hop
  obtain ⟨e, d', he, -, hplace, hreason⟩ := hmiscounted (by decide) (by decide) (by decide)
  obtain ⟨e', d'', he', -, hplace', hreason'⟩ := hbroken (by decide) (by decide)
  exact ⟨⟨hfill, op, d, hop, hentries.trans (by decide), hend⟩,
    ⟨by decide, by decide, e, d', he, hplace, hreason.trans (by decide)⟩,
    by decide, e', d'', he', hplace', hreason'.trans (by decide)⟩

end Kernel

end FuseAbi
