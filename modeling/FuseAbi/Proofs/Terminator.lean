import FuseAbi.Proofs.Scan

/-!
# Reading a name up to its terminator

`Scan.cstring` seeks a zero byte among the next `limit + 1` bytes, that sum taken modulo 2 ^ 64, and there are
just two outcomes. Where the first zero byte of the region stands inside that window, the bytes before it are
the name (`cstring_of_firstZero`); where the window holds no zero byte, the read is refused, and the number of
bytes left alone decides what is said (`cstring_of_noZero`).

`Scan.ReadsName` says the same of the bytes and of the limit as a natural number: when a name is read, which
one, what it hangs on, and what is said if there is none. It holds at every cursor under every limit but the
greatest (`cstring_exact`). Under the greatest the sum wraps around to an empty window, and nothing is ever read.
-/

namespace FuseAbi

/-! ## The first zero byte of a text -/

/-- The first zero byte of a text stands at a place. -/
def FirstZeroAt (s : Bytes) (place : Nat) : Prop :=
  s[place]? = some 0 ∧ ∀ i < place, s[i]? ≠ some 0

/-- Where there is a zero byte in front of a place, the first one is in front of it too. -/
theorem exists_firstZeroAt {s : Bytes} {bound : Nat} (h : ∃ i < bound, s[i]? = some 0) :
    ∃ place < bound, FirstZeroAt s place := by
  obtain ⟨i, hi, hzero⟩ := h
  have hex : ∃ place : Nat, s[place]? = some 0 := ⟨i, hzero⟩
  have hle : Nat.find hex ≤ i := Nat.find_le hzero
  exact ⟨Nat.find hex, by omega, Nat.find_spec hex, fun j hj => Nat.find_min hex hj⟩

/-- The first zero byte parts a text into a name without zero bytes and a rest. -/
theorem FirstZeroAt.parts {s : Bytes} {place : Nat} (h : FirstZeroAt s place) :
    0 ∉ s.take place ∧ (s.take place).length = place ∧ s = s.take place ++ 0 :: s.drop (place + 1) := by
  obtain ⟨hlt, hzero⟩ := List.getElem?_eq_some_iff.mp h.1
  refine ⟨fun hmem => ?_, List.length_take_of_le hlt.le, ?_⟩
  · obtain ⟨i, hi, hbyte⟩ := List.mem_take_iff_getElem.mp hmem
    exact h.2 i (by omega) (List.getElem?_eq_some_iff.mpr ⟨by omega, hbyte⟩)
  · rw [← hzero, ← List.drop_eq_getElem_cons hlt, List.take_append_drop]

/-- A name without zero bytes ends at the first zero byte behind it. -/
theorem firstZeroAt_length {s name rest : Bytes} (hzero : 0 ∉ name) (h : s = name ++ 0 :: rest) :
    FirstZeroAt s name.length := by
  subst h
  refine ⟨by rw [List.getElem?_append_right le_rfl, Nat.sub_self]; rfl, fun i hi hbyte => ?_⟩
  rw [List.getElem?_append_left hi] at hbyte
  exact hzero (List.mem_of_getElem? hbyte)

/-- The bytes up to the first zero byte say where it stands. -/
theorem FirstZeroAt.of_take_eq {s t : Bytes} {place : Nat} (h : FirstZeroAt s place)
    (htake : t.take (place + 1) = s.take (place + 1)) : FirstZeroAt t place := by
  have hbyte : ∀ i < place + 1, t[i]? = s[i]? := by
    intro i hi
    rw [← List.getElem?_take_of_lt hi, htake, List.getElem?_take_of_lt hi]
  refine ⟨(hbyte place (Nat.lt_succ_self place)).trans h.1, fun i hi => ?_⟩
  rw [hbyte i (by omega)]
  exact h.2 i hi

namespace Scan

variable {limit : UInt64} {c d : Cursor} {name : Bytes}

/-! ## The two outcomes -/

/-- A zero byte inside the window ends the name in front of the first of them. -/
theorem cstring_of_firstZero {place : Nat} (h : FirstZeroAt c.unread place)
    (hwindow : place < (limit + 1).toNat) :
    (cstring limit).run c = .ok (c.unread.take place) (c.advance (place + 1)) := by
  obtain ⟨hzero, hlen, hsplit⟩ := h.parts
  have hread := cstring_of_terminated hzero (by rwa [hlen]) hsplit
  rwa [hlen] at hread

/-- Without a zero byte in the window no name is read. A region that the window covers lacks a terminator; of
a longer one it is only known that a name would be over its limit. -/
theorem cstring_of_noZero (h : ∀ i < (limit + 1).toNat, c.unread[i]? ≠ some 0) :
    (cstring limit).run c =
      .error
        { fault := if c.unread.length ≤ (limit + 1).toNat then .unterminated else .overlong limit
          offset := c.offset } c := by
  have hnone : 0 ∉ c.unread.take (limit + 1).toNat := by
    intro hmem
    obtain ⟨i, hi, hbyte⟩ := List.mem_take_iff_getElem.mp hmem
    exact h i (by omega) (List.getElem?_eq_some_iff.mpr ⟨by omega, hbyte⟩)
  have hall : (c.unread.take (limit + 1).toNat).length = c.unread.length ↔
      c.unread.length ≤ (limit + 1).toNat := by
    rw [List.length_take]
    omega
  simp only [cstring, EStateM.run, untilZero_of_notMem hnone, hall, lt_irrefl, if_false]
  split <;> rfl

/-- A name that is read ends at the first zero byte, which the window holds. -/
theorem firstZeroAt_of_cstring_ok (h : (cstring limit).run c = .ok name d) :
    FirstZeroAt c.unread name.length ∧ name.length < (limit + 1).toNat := by
  obtain ⟨hzero, hlimit, hunread, -⟩ := cstring_ok h
  exact ⟨firstZeroAt_length hzero hunread, hlimit⟩

/-! ## Limits as numbers -/

/-- What is to come of reading a name of at most `limit` bytes at a cursor. -/
structure ReadsName (limit : UInt64) (c : Cursor) : Prop where
  /-- A name is read exactly when one of the next `limit + 1` bytes, or of as many as are left, is zero. -/
  ok_iff : (∃ name d, (cstring limit).run c = .ok name d) ↔
    ∃ i < min c.unread.length (limit.toNat + 1), c.unread[i]? = some 0
  /-- The name is what stands before the first zero byte, and the zero byte is passed over along with it. -/
  ok : ∀ {name d}, (cstring limit).run c = .ok name d →
    FirstZeroAt c.unread name.length ∧ name = c.unread.take name.length ∧
      0 ∉ name ∧ name.length ≤ limit.toNat ∧ d = c.advance (name.length + 1)
  /-- No byte behind the terminator matters, nor does the place: any other cursor with the same bytes up to
  there gives the same name and moves as far. -/
  ok_congr : ∀ {name d} {c' : Cursor}, (cstring limit).run c = .ok name d →
    c'.unread.take (name.length + 1) = c.unread.take (name.length + 1) →
    (cstring limit).run c' = .ok name (c'.advance (name.length + 1))
  /-- Without such a zero byte the read fails where it stands. It says that the terminator is missing exactly
  when the window covers the region, and that the name is over its limit exactly when it does not. -/
  error : (¬∃ i < min c.unread.length (limit.toNat + 1), c.unread[i]? = some 0) →
    ∃ fault, (cstring limit).run c = .error { fault, offset := c.offset } c ∧
      fault.kind = .invalidString ∧
      (fault.reason = ascii "string is not NUL-terminated" ↔ c.unread.length ≤ limit.toNat + 1) ∧
      (fault.reason = ascii "string longer than " ++ decimal limit.toNat ++ ascii " bytes" ↔
        limit.toNat + 1 < c.unread.length)

theorem toNat_add_one (h : limit.toNat < 2 ^ 64 - 1) : (limit + 1).toNat = limit.toNat + 1 := by
  rw [UInt64.toNat_add, show (1 : UInt64).toNat = 1 from rfl]
  omega

/-- A zero byte stands inside a region, so a window on it may be cut down to the region. -/
theorem exists_zero_iff (s : Bytes) (bound : Nat) :
    (∃ i < min s.length bound, s[i]? = some 0) ↔ ∃ i < bound, s[i]? = some 0 := by
  constructor
  · rintro ⟨i, hi, hzero⟩
    exact ⟨i, by omega, hzero⟩
  · rintro ⟨i, hi, hzero⟩
    obtain ⟨hlt, -⟩ := List.getElem?_eq_some_iff.mp hzero
    exact ⟨i, by omega, hzero⟩

/-- The two things that are said of a name are told apart by their eighth byte. -/
theorem unterminated_ne_overlong (limit : UInt64) :
    Fault.unterminated.reason ≠ (Fault.overlong limit).reason := by
  intro h
  have hbyte := congrArg (·[7]?) h
  cases hbyte

theorem readsName (h : limit.toNat < 2 ^ 64 - 1) (c : Cursor) : ReadsName limit c where
  ok_iff := by
    rw [exists_zero_iff, ← toNat_add_one h]
    constructor
    · rintro ⟨name, d, hread⟩
      obtain ⟨hzero, hlt⟩ := firstZeroAt_of_cstring_ok hread
      exact ⟨name.length, hlt, hzero.1⟩
    · intro hzero
      obtain ⟨place, hlt, hfirst⟩ := exists_firstZeroAt hzero
      exact ⟨_, _, cstring_of_firstZero hfirst hlt⟩
  ok {name d} hread := by
    obtain ⟨hfirst, hlt⟩ := firstZeroAt_of_cstring_ok hread
    rw [toNat_add_one h] at hlt
    obtain ⟨hzero, -, hunread, hd⟩ := cstring_ok hread
    have hname : c.unread.take name.length = name := by rw [hunread, List.take_left]
    exact ⟨hfirst, hname.symm, hzero, by omega, hd⟩
  ok_congr {name d c'} hread htake := by
    obtain ⟨hfirst, hlt⟩ := firstZeroAt_of_cstring_ok hread
    obtain ⟨-, -, hunread, -⟩ := cstring_ok hread
    have hname : c'.unread.take name.length = name := by
      have hcut := congrArg (List.take name.length) htake
      rwa [List.take_take, List.take_take, Nat.min_eq_left (Nat.le_succ _), hunread, List.take_left] at hcut
    rw [cstring_of_firstZero (hfirst.of_take_eq htake) hlt, hname]
  error hnone := by
    rw [exists_zero_iff, ← toNat_add_one h] at hnone
    push Not at hnone
    refine ⟨_, cstring_of_noZero hnone, ?_⟩
    have hne := unterminated_ne_overlong limit
    rw [toNat_add_one h]
    split
    next hle => exact ⟨rfl, iff_of_true rfl hle, iff_of_false hne (by omega)⟩
    next hgt => exact ⟨rfl, iff_of_false hne.symm hgt, iff_of_true rfl (by omega)⟩

/-- Reading a name keeps to its limit at every cursor, where one more than the limit is still a number of
bytes. Under the greatest limit it is not: the sum wraps around, every read fails and nothing is moved, a zero
byte right at the cursor notwithstanding. -/
theorem cstring_exact (limit : UInt64) (c : Cursor) :
    (limit.toNat < 2 ^ 64 - 1 → ReadsName limit c) ∧
      (limit.toNat = 2 ^ 64 - 1 → ∃ fault,
        (cstring limit).run c = .error { fault, offset := c.offset } c ∧ fault.kind = .invalidString) := by
  refine ⟨fun h => readsName h c, fun h => ?_⟩
  have hwindow : (limit + 1).toNat = 0 := by
    rw [UInt64.toNat_add, h]
    rfl
  have hnone : ∀ i < (limit + 1).toNat, c.unread[i]? ≠ some 0 := by
    intro i hi
    omega
  refine ⟨_, cstring_of_noZero hnone, ?_⟩
  split <;> rfl

/-- Two bytes and a terminator, near the top of the range of places. -/
def twoBytesEnded : Cursor where
  offset := -2
  unread := [97, 98, 0]

/-- They are a name under a limit of two, over one of one, and no name under the greatest. -/
theorem cstring_exact_twoBytesEnded :
    ((2 : UInt64).toNat < 2 ^ 64 - 1 ∧ ∃ name d, (cstring 2).run twoBytesEnded = .ok name d) ∧
      ((1 : UInt64).toNat < 2 ^ 64 - 1 ∧ ∃ fault,
        (cstring 1).run twoBytesEnded = .error { fault, offset := -2 } twoBytesEnded ∧
        fault.reason = ascii "string longer than 1 bytes") ∧
      ((-1 : UInt64).toNat = 2 ^ 64 - 1 ∧ ∃ fault,
        (cstring (-1)).run twoBytesEnded = .error { fault, offset := -2 } twoBytesEnded ∧
        fault.kind = .invalidString) := by
  have hat := (cstring_exact 2 twoBytesEnded).1 (by decide)
  have hover := (cstring_exact 1 twoBytesEnded).1 (by decide)
  obtain ⟨fault, hread, -, -, hsaid⟩ := hover.error (by decide)
  exact ⟨⟨by decide, hat.ok_iff.mpr ⟨2, by decide, rfl⟩⟩, ⟨by decide, fault, hread, hsaid.mpr (by decide)⟩,
    by decide, (cstring_exact (-1) twoBytesEnded).2 (by decide)⟩

end Scan

end FuseAbi
