import FuseAbi.Text

/-!
# Little-endian words

A request holds its numbers least significant byte first, in words of two, four or eight bytes. Reading and
writing are stated for any width over natural numbers; the fixed-width types only come in where a width is
known.
-/

namespace FuseAbi

/-- The `width` low bytes of a number, least significant first. -/
def littleEndian : (width : Nat) → (n : Nat) → Bytes
  | 0, _ => []
  | width + 1, n => n.toUInt8 :: littleEndian width (n / 256)

/-- The number that a sequence of bytes spells, least significant byte first. -/
def ofLittleEndian : Bytes → Nat
  | [] => 0
  | b :: rest => b.toNat + 256 * ofLittleEndian rest

@[simp] theorem length_littleEndian (width n : Nat) : (littleEndian width n).length = width := by
  induction width generalizing n with
  | zero => rfl
  | succ width ih => simp [littleEndian, ih]

/-- Writing the number that some bytes spell, in as many bytes, gives those bytes. -/
theorem littleEndian_ofLittleEndian (s : Bytes) : littleEndian s.length (ofLittleEndian s) = s := by
  induction s with
  | nil => rfl
  | cons b rest ih =>
    have hb := b.toNat_lt
    have low : (b.toNat + 256 * ofLittleEndian rest).toUInt8 = b := by
      apply UInt8.toNat_inj.1
      simp only [Nat.toUInt8_eq, UInt8.toNat_ofNat']
      omega
    have high : (b.toNat + 256 * ofLittleEndian rest) / 256 = ofLittleEndian rest := by omega
    simp only [ofLittleEndian, List.length_cons, littleEndian, low, high, ih]

/-! ## Flags -/

/-- Whether the word has a bit in common with the mask. -/
def hasBit (word mask : UInt32) : Bool :=
  word &&& mask != 0

/-- The mask where the flag is on, and no bit where it is off. -/
def bitIf (flag : Bool) (mask : UInt32) : UInt32 :=
  if flag then mask else 0

end FuseAbi
