import FuseAbi.Word
import Mathlib.Algebra.Ring.Nat

/-!
# Lemmas about little-endian words

A sequence of bytes spells a number below the power of 256 that its length gives, and every number below that
power is spelled by so many bytes. With `littleEndian_ofLittleEndian` the two directions undo each other.
-/

namespace FuseAbi

theorem ofLittleEndian_lt (s : Bytes) : ofLittleEndian s < 256 ^ s.length := by
  induction s with
  | nil => simp [ofLittleEndian]
  | cons b rest ih =>
    have := b.toNat_lt
    simp only [ofLittleEndian, List.length_cons, Nat.pow_succ]
    omega

/-- As many bytes as the word is wide spell a number that the word can hold. -/
theorem ofLittleEndian_take_lt (width : Nat) (s : Bytes) : ofLittleEndian (s.take width) < 256 ^ width :=
  Nat.lt_of_lt_of_le (ofLittleEndian_lt _) (Nat.pow_le_pow_right (by decide) (List.length_take_le width s))

/-- A number that fits into so many bytes is read back from them. -/
theorem ofLittleEndian_littleEndian (width n : Nat) (h : n < 256 ^ width) :
    ofLittleEndian (littleEndian width n) = n := by
  induction width generalizing n with
  | zero =>
    simp only [Nat.pow_zero] at h
    simp only [littleEndian, ofLittleEndian]
    omega
  | succ width ih =>
    have small : n / 256 < 256 ^ width := by
      rw [Nat.pow_succ] at h
      exact Nat.div_lt_of_lt_mul (by omega)
    simp only [littleEndian, ofLittleEndian, ih (n / 256) small, Nat.toUInt8_eq, UInt8.toNat_ofNat']
    omega

end FuseAbi
