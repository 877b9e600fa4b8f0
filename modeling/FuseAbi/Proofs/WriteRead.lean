import FuseAbi.Buffer
import FuseAbi.Proofs.Probes
import FuseAbi.Proofs.Terminator

/-!
# Writing and reading undo each other

A list of items is written into one buffer, and a list of probes runs over one region. Each direction of the
law is settled for one step first and then carried over a whole list by induction:

- the probe that matches an item gives the item back, takes just its bytes and leaves what follows alone
  (`run_matching`, `runAll_matching`);
- what a probe gave, written again, is just the bytes that it took (`encode_item`, `encode_rewritten`).

The first needs a name without zero bytes: behind an inner one, every later read would be out of step. It also
needs sizes that are words, since the reads are told them as words. The second needs nothing. It is not the
first one turned around, because a region may be read in many ways: bytes that were written as a name may be
read as numbers.

**What it does not say.** A probe that passes bytes over gives nothing back, so zeros that were written are not
seen to be zeros, and the bytes passed over have to be kept to be written again.
-/

namespace FuseAbi

/-! ## Items and the probes that match them -/

namespace Item

/-- The probe that reads an item back: told its size, and for a name a limit. -/
def probe (limit : UInt64) : Item → Probe
  | u16 _ => .u16
  | u32 _ => .u32
  | u64 _ => .u64
  | bytes value => .bytes (UInt64.ofNat value.length)
  | cstring _ => .cstring limit
  | zeros n => .skip (UInt64.ofNat n)

/-- What reading an item back is to give. -/
def reading : Item → Reading
  | u16 value => .u16 value
  | u32 value => .u32 value
  | u64 value => .u64 value
  | bytes value => .bytes value
  | cstring name => .cstring name
  | zeros _ => .nothing

/-- A name can be read back if it holds no zero byte and is within its limit, one more than which is still a
number of bytes. Any other item can. -/
def Fits (limit : UInt64) : Item → Prop
  | cstring name => 0 ∉ name ∧ name.length ≤ limit.toNat ∧ limit.toNat < 2 ^ 64 - 1
  | _ => True

instance (limit : UInt64) (item : Item) : Decidable (item.Fits limit) :=
  match item with
  | cstring _ => inferInstanceAs (Decidable (_ ∧ _ ∧ _))
  | u16 _ | u32 _ | u64 _ | bytes _ | zeros _ => isTrue trivial

theorem encodeAll_cons (item : Item) (rest : List Item) :
    encodeAll (item :: rest) = item.encode ++ encodeAll rest := rfl

end Item

/-- A buffer that is handed over behind some items holds their bytes, in order, behind what it held before;
another one starts empty. -/
theorem Buffer.getLast?_trace (items : List Item) (buffer : Bytes) :
    (trace buffer (items.map .put ++ [.release])).getLast? =
      some (some (buffer ++ Item.encodeAll items), []) := by
  induction items generalizing buffer with
  | nil =>
    rw [Item.encodeAll, List.flatMap_nil, List.append_nil]
    rfl
  | cons item rest ih =>
    have hrest := ih (buffer ++ item.encode)
    rw [List.append_assoc, ← Item.encodeAll_cons] at hrest
    rw [List.map_cons, List.cons_append, trace, List.getLast?_cons, Edit.apply, hrest]
    rfl

/-- The item that a reading is written again as. A signed number stands on the wire as the unsigned one with
the same bits; where nothing was given, the bytes passed over stand there as they are. -/
def Reading.item (passed : Bytes) : Reading → Item
  | u16 value => .u16 value
  | u32 value => .u32 value
  | u64 value => .u64 value
  | i32 value => .u32 value.toUInt32
  | i64 value => .u64 value.toUInt64
  | bytes value => .bytes value
  | cstring name => .cstring name
  | nothing => .bytes passed

namespace Probe

/-- What some probes gave in front of a region, as items to be written again. -/
def rewritten : List Probe → List Reading → Bytes → List Item
  | p :: probes, r :: readings, s =>
    r.item (s.take (p.consumed r)) :: rewritten probes readings (s.drop (p.consumed r))
  | _, _, _ => []

/-! ## Numbers -/

theorem spelled_eq (width : Nat) (s : Bytes) : spelled width s = ofLittleEndian (s.take width) :=
  (ofLittleEndian_eq_ofDigits _).symm

/-- A number that is written is spelled by the bytes in front. -/
theorem spelled_littleEndian {width n : Nat} (h : n < 256 ^ width) (more : Bytes) :
    spelled width (littleEndian width n ++ more) = n := by
  rw [spelled_eq, List.take_left' (length_littleEndian width n), ofLittleEndian_littleEndian width n h]

/-- The number that the bytes in front spell is written as those bytes. -/
theorem littleEndian_spelled {width : Nat} {s : Bytes} (h : width ≤ s.length) :
    littleEndian width (spelled width s) = s.take width := by
  have hback := littleEndian_ofLittleEndian (s.take width)
  rwa [List.length_take_of_le h, ← spelled_eq] at hback

theorem spelled_lt (width : Nat) (s : Bytes) : spelled width s < 256 ^ width := by
  rw [spelled_eq]
  exact ofLittleEndian_take_lt width s

/-- A signed number has the bits of the unsigned one that it is spelled as. -/
theorem toNat_toUInt32_of_toInt {value : Int32} {n : Nat} (hn : n < 2 ^ 32)
    (h : value.toInt = (n : Int).bmod (2 ^ 32)) : value.toUInt32.toNat = n := by
  have hvalue : value = (UInt32.ofNat n).toInt32 := Int32.toInt_inj.mp (h.trans (toInt_toInt32_ofNat n).symm)
  rw [hvalue, UInt32.toUInt32_toInt32, UInt32.toNat_ofNat_of_lt' hn]

theorem toNat_toUInt64_of_toInt {value : Int64} {n : Nat} (hn : n < 2 ^ 64)
    (h : value.toInt = (n : Int).bmod (2 ^ 64)) : value.toUInt64.toNat = n := by
  have hvalue : value = (UInt64.ofNat n).toInt64 := Int64.toInt_inj.mp (h.trans (toInt_toInt64_ofNat n).symm)
  rw [hvalue, UInt64.toUInt64_toInt64, UInt64.toNat_ofNat_of_lt' hn]

/-! ## Reading what was written -/

section

variable {item : Item} {limit : UInt64}

/-- The matching probe takes as many bytes as the item has. -/
theorem consumed_matching (hsize : item.encode.length < 2 ^ 64) :
    (item.probe limit).consumed item.reading = item.encode.length := by
  cases item with
  | u16 | u32 | u64 => exact (length_littleEndian _ _).symm
  | bytes value => exact UInt64.toNat_ofNat_of_lt' hsize
  | cstring name => exact (List.length_append : (name ++ [0]).length = _).symm
  | zeros n =>
    rw [Item.encode, List.length_replicate] at hsize
    exact (UInt64.toNat_ofNat_of_lt' hsize).trans List.length_replicate.symm

/-- In front of the item's bytes, the matching probe is to give the item back. -/
theorem gives_matching (h : item.Fits limit) (hsize : item.encode.length < 2 ^ 64) (more : Bytes) :
    (item.probe limit).Gives (item.encode ++ more) item.reading := by
  cases item with
  | u16 value => exact (spelled_littleEndian value.toNat_lt more).symm
  | u32 value => exact (spelled_littleEndian value.toNat_lt more).symm
  | u64 value => exact (spelled_littleEndian value.toNat_lt more).symm
  | bytes value =>
    have hcount : (UInt64.ofNat value.length).toNat = value.length := UInt64.toNat_ofNat_of_lt' hsize
    exact (List.take_left' hcount.symm).symm
  | cstring name =>
    obtain ⟨hzero, hlimit, hword⟩ := h
    have hsum := Scan.toNat_add_one hword
    exact ⟨hzero, by omega, List.prefix_append _ _⟩
  | zeros n => trivial

/-- The matching probe gives an item back and leaves what follows it alone. -/
theorem run_matching (h : item.Fits limit) (hsize : item.encode.length < 2 ^ 64) {c : Cursor} {more : Bytes}
    (hc : c.unread = item.encode ++ more) :
    (item.probe limit).run c = (.ok item.reading, c.advance item.encode.length) := by
  have hconsumed : (item.probe limit).consumed item.reading = item.encode.length := consumed_matching hsize
  have hle : (item.probe limit).consumed item.reading ≤ c.unread.length := by
    rw [hconsumed, hc, List.length_append]
    exact Nat.le_add_right _ _
  rw [run_of_gives (hc ▸ gives_matching h hsize more) hle, moves, hconsumed]

end

/-- Matching probes give all items back, in order, and leave what follows them alone. -/
theorem runAll_matching {entries : List (Item × UInt64)} (h : ∀ entry ∈ entries, entry.1.Fits entry.2)
    (hsize : (Item.encodeAll (entries.map Prod.fst)).length < 2 ^ 64) {c : Cursor} {more : Bytes}
    (hc : c.unread = Item.encodeAll (entries.map Prod.fst) ++ more) :
    (runAll (entries.map fun entry => entry.1.probe entry.2) c).map Prod.fst =
        entries.map (fun entry => .ok entry.1.reading) ∧
      (leave (entries.map fun entry => entry.1.probe entry.2) c).unread = more := by
  induction entries generalizing c with
  | nil => exact ⟨rfl, hc⟩
  | cons entry rest ih =>
    rw [List.map_cons, Item.encodeAll_cons, List.length_append] at hsize
    rw [List.map_cons, Item.encodeAll_cons, List.append_assoc] at hc
    have hrun := run_matching (h entry List.mem_cons_self) (by omega) hc
    have hrest : (c.advance entry.1.encode.length).unread = Item.encodeAll (rest.map Prod.fst) ++ more := by
      rw [Cursor.advance_unread, hc, List.drop_left]
    obtain ⟨hgiven, hleft⟩ := ih (fun other hmem => h other (List.mem_cons_of_mem _ hmem)) (by omega) hrest
    rw [List.map_cons, runAll, leave, hrun]
    exact ⟨congrArg (Except.ok entry.1.reading :: ·) hgiven, hleft⟩

/-! ## Writing what was read -/

/-- What a probe gave, written again, is just the bytes that it took. -/
theorem encode_item {p : Probe} {s : Bytes} {r : Reading} (hr : p.Gives s r) (hle : p.consumed r ≤ s.length) :
    (r.item (s.take (p.consumed r))).encode = s.take (p.consumed r) := by
  cases p with
  | u16 =>
    cases r with
    | u16 value => exact (congrArg (littleEndian 2) hr).trans (littleEndian_spelled hle)
    | _ => exact hr.elim
  | u32 =>
    cases r with
    | u32 value => exact (congrArg (littleEndian 4) hr).trans (littleEndian_spelled hle)
    | _ => exact hr.elim
  | u64 =>
    cases r with
    | u64 value => exact (congrArg (littleEndian 8) hr).trans (littleEndian_spelled hle)
    | _ => exact hr.elim
  | i32 =>
    cases r with
    | i32 value =>
      have hbits := toNat_toUInt32_of_toInt (spelled_lt 4 s) hr
      exact (congrArg (littleEndian 4) hbits).trans (littleEndian_spelled hle)
    | _ => exact hr.elim
  | i64 =>
    cases r with
    | i64 value =>
      have hbits := toNat_toUInt64_of_toInt (spelled_lt 8 s) hr
      exact (congrArg (littleEndian 8) hbits).trans (littleEndian_spelled hle)
    | _ => exact hr.elim
  | bytes n =>
    cases r with
    | bytes value => exact hr
    | _ => exact hr.elim
  | cstring limit =>
    cases r with
    | cstring name =>
      have hfront := List.prefix_iff_eq_take.mp hr.2.2
      rwa [List.length_append, List.length_singleton] at hfront
    | _ => exact hr.elim
  | skip n | finish =>
    cases r with
    | nothing => rfl
    | _ => exact hr.elim

/-- What a run gave, written again, is just the bytes that it took. -/
theorem encode_rewritten {probes : List Probe} {readings : List Reading} {c : Cursor}
    (h : (runAll probes c).map Prod.fst = readings.map .ok) :
    ∃ n ≤ c.unread.length, leave probes c = c.advance n ∧
      Item.encodeAll (rewritten probes readings c.unread) = c.unread.take n := by
  induction probes generalizing readings c with
  | nil => exact ⟨0, Nat.zero_le _, c.advance_zero.symm, rfl⟩
  | cons p rest ih =>
    cases readings with
    | nil => cases h
    | cons r readings =>
      obtain ⟨hfirst, hrest⟩ := List.cons.inj h
      have hrun : p.run c = (.ok r, (p.run c).2) := Prod.ext hfirst rfl
      obtain ⟨hgives, hle, hmove⟩ := (bounded p c).ok_iff.mp hrun
      rw [hmove] at hrest
      obtain ⟨n, hn, hleave, hbytes⟩ := ih hrest
      rw [Cursor.advance_unread, List.length_drop] at hn
      refine ⟨p.consumed r + n, by omega, ?_, ?_⟩
      · rw [leave, hmove, hleave, Cursor.advance_advance]
      · rw [rewritten, Item.encodeAll_cons, encode_item hgives hle, ← Cursor.advance_unread, hbytes,
          Cursor.advance_unread, List.take_add]

/-! ## The law -/

/-- Writing and reading undo each other, on every list and on every region.

Items that fit and are words in size all told, written into one buffer and handed over, are given back by the
matching probes, without a failure, and then the region is at its end. Conversely, where a run of any probes
goes through, what it gave, written again, is just the part of the region that it took. -/
theorem runAll_inverse :
    (∀ (entries : List (Item × UInt64)) (base : UInt64), (∀ entry ∈ entries, entry.1.Fits entry.2) →
      (Item.encodeAll (entries.map Prod.fst)).length < 2 ^ 64 →
      ∃ released,
        (Buffer.trace [] (entries.map (fun entry => .put entry.1) ++ [.release])).getLast? =
          some (some released, []) ∧
        (runAll (entries.map (fun entry => entry.1.probe entry.2) ++ [.finish])
            { offset := base, unread := released }).map Prod.fst =
          entries.map (fun entry => .ok entry.1.reading) ++ [.ok .nothing]) ∧
    ∀ (region : Bytes) (base : UInt64) (probes : List Probe) (readings : List Reading),
      let start : Cursor := { offset := base, unread := region }
      (runAll probes start).map Prod.fst = readings.map .ok →
      ∃ n ≤ region.length, leave probes start = start.advance n ∧
        Item.encodeAll (rewritten probes readings region) = region.take n := by
  constructor
  · intro entries base hfits hsize
    have hreleased := Buffer.getLast?_trace (entries.map Prod.fst) []
    rw [List.map_map, List.nil_append] at hreleased
    refine ⟨_, hreleased, ?_⟩
    obtain ⟨hgiven, hleft⟩ := runAll_matching hfits hsize
      (c := { offset := base, unread := Item.encodeAll (entries.map Prod.fst) })
      (List.append_nil _).symm
    have hend := run_of_gives (p := finish) (r := .nothing) hleft (Nat.zero_le _)
    rw [runAll_append, List.map_append, hgiven, runAll, hend]
    rfl
  · intro region base probes readings start h
    exact encode_rewritten h

/-- Items of every width, a name at its limit, and data that looks like the end of a name. -/
def mixedItems : List (Item × UInt64) :=
  [(.u16 0xBEEF, 0), (.cstring [97, 98], 2), (.bytes [0, 7, 0], 0), (.zeros 2, 0), (.u32 5, 0),
    (.u64 0xCAFEBABE12345678, 0)]

/-- They are read back across the top of the range of places; and a region is read as a signed number, a name
and a byte that is passed over. -/
theorem runAll_inverse_mixedItems :
    ((∀ entry ∈ mixedItems, entry.1.Fits entry.2) ∧
      (Item.encodeAll (mixedItems.map Prod.fst)).length < 2 ^ 64 ∧
      ∃ released,
        (Buffer.trace [] (mixedItems.map (fun entry => .put entry.1) ++ [.release])).getLast? =
          some (some released, []) ∧
        (runAll [.u16, .cstring 2, .bytes 3, .skip 2, .u32, .u64, .finish]
            { offset := -4, unread := released }).map Prod.fst =
          [.ok (.u16 0xBEEF), .ok (.cstring [97, 98]), .ok (.bytes [0, 7, 0]), .ok .nothing, .ok (.u32 5),
            .ok (.u64 0xCAFEBABE12345678), .ok .nothing]) ∧
    (runAll [.i32, .cstring 1, .skip 1] { offset := 7, unread := [254, 255, 255, 255, 97, 0, 9, 9] }).map
        Prod.fst = [.ok (.i32 (-2)), .ok (.cstring [97]), .ok .nothing] ∧
      ∃ n ≤ 8, Item.encodeAll [.u32 0xFFFFFFFE, .cstring [97], .bytes [9]] =
        [254, 255, 255, 255, 97, 0, 9, 9].take n := by
  have hread : (runAll [.i32, .cstring 1, .skip 1]
      { offset := 7, unread := [254, 255, 255, 255, 97, 0, 9, 9] }).map Prod.fst =
        [Reading.i32 (-2), .cstring [97], .nothing].map .ok := by
    decide
  obtain ⟨n, hn, -, hbytes⟩ := runAll_inverse.2 _ _ _ _ hread
  exact ⟨⟨by decide, by decide, runAll_inverse.1 mixedItems (-4) (by decide) (by decide)⟩, hread, n, hn, hbytes⟩

end Probe

end FuseAbi
