import FuseAbi.Word
import Mathlib.Data.Nat.Bitwise

/-!
# Flags in a word

A flag is a mask with one bit, and then `hasBit` and `bitIf` are inverse: cutting a word down to the mask
gives the mask where the flag is on and zero where it is off (`and_eq_bitIf`). What is left of a word without
a flag, and the flag, make up the word again (`or_bitIf_eq`).
-/

namespace FuseAbi

variable {word mask : UInt32}

theorem hasBit_eq_false_iff : hasBit word mask = false ↔ word &&& mask = 0 := by
  rw [hasBit, bne_eq_false_iff_eq]

theorem hasBit_eq_true_iff : hasBit word mask = true ↔ word &&& mask ≠ 0 := by
  rw [hasBit, bne_iff_ne]

theorem and_or_distrib_left (a b c : UInt32) : a &&& (b ||| c) = a &&& b ||| a &&& c :=
  UInt32.toBitVec_inj.mp BitVec.and_or_distrib_left

theorem and_or_distrib_right (a b c : UInt32) : (a ||| b) &&& c = a &&& c ||| b &&& c :=
  UInt32.toBitVec_inj.mp BitVec.and_or_distrib_right

/-- A word is the part of it outside a mask and the part inside. -/
theorem and_not_or_and (word mask : UInt32) : word &&& ~~~mask ||| word &&& mask = word := by
  rw [← and_or_distrib_left, UInt32.not_or_self, UInt32.and_neg_one]

/-! ## One bit -/

/-- A mask with one bit only. -/
def IsBit (mask : UInt32) : Prop :=
  ∃ i < 32, mask.toNat = 2 ^ i

/-- A mask with one bit asks for that bit of a word. -/
theorem hasBit_eq_testBit {i : Nat} (h : mask.toNat = 2 ^ i) (word : UInt32) :
    hasBit word mask = word.toNat.testBit i := by
  have hand : (word &&& mask).toNat = (word.toNat.testBit i).toNat * 2 ^ i := by
    rw [UInt32.toNat_and, h, Nat.and_two_pow]
  cases hbit : word.toNat.testBit i with
  | false =>
    rw [hbit, Bool.toNat_false, Nat.zero_mul] at hand
    exact hasBit_eq_false_iff.mpr (UInt32.toNat_inj.mp hand)
  | true =>
    rw [hbit, Bool.toNat_true, Nat.one_mul] at hand
    refine hasBit_eq_true_iff.mpr fun hzero => ?_
    rw [hzero] at hand
    exact (Nat.two_pow_pos i).ne hand

/-- Cut down to one bit, a word is that bit or nothing. -/
theorem and_eq_bitIf (h : IsBit mask) (word : UInt32) : word &&& mask = bitIf (hasBit word mask) mask := by
  obtain ⟨i, -, hi⟩ := h
  apply UInt32.toNat_inj.mp
  rw [hasBit_eq_testBit hi, UInt32.toNat_and, hi, Nat.and_two_pow]
  cases word.toNat.testBit i with
  | false => exact Nat.zero_mul _
  | true => exact (Nat.one_mul _).trans hi.symm

theorem bitIf_and_self (on : Bool) (mask : UInt32) : bitIf on mask &&& mask = bitIf on mask := by
  cases on with
  | false => exact UInt32.zero_and
  | true => exact UInt32.and_self

/-- The flag of a word, written on its own, has the word's bits on its mask. -/
theorem bitIf_hasBit_and (h : IsBit mask) (word : UInt32) :
    word &&& mask = bitIf (hasBit word mask) mask &&& mask := by
  rw [bitIf_and_self, and_eq_bitIf h]

/-- A flag that is written is read. -/
theorem hasBit_bitIf (h : mask ≠ 0) (on : Bool) : hasBit (bitIf on mask) mask = on := by
  cases on with
  | false => exact hasBit_eq_false_iff.mpr UInt32.zero_and
  | true =>
    refine hasBit_eq_true_iff.mpr ?_
    rw [bitIf, if_pos rfl, UInt32.and_self]
    exact h

/-! ## A flag among other bits -/

/-- A flag that is taken out of a word and put back in gives the word. -/
theorem or_bitIf_eq (h : IsBit mask) (word : UInt32) :
    word &&& ~~~mask ||| bitIf (hasBit word mask) mask = word := by
  rw [← and_eq_bitIf h, and_not_or_and]

theorem hasBit_and_not (word mask : UInt32) : hasBit (word &&& ~~~mask) mask = false := by
  rw [hasBit_eq_false_iff, UInt32.and_assoc, UInt32.not_and_self, UInt32.and_zero]

/-- A flag that is put into a word without it is read, and taken out again leaves the word. -/
theorem hasBit_or_bitIf (h : mask ≠ 0) (hword : hasBit word mask = false) (on : Bool) :
    hasBit (word ||| bitIf on mask) mask = on := by
  have hclear := hasBit_eq_false_iff.mp hword
  rw [hasBit, and_or_distrib_right, hclear, UInt32.zero_or]
  exact hasBit_bitIf h on

theorem or_bitIf_and_not (hword : hasBit word mask = false) (on : Bool) :
    (word ||| bitIf on mask) &&& ~~~mask = word := by
  have hclear := hasBit_eq_false_iff.mp hword
  have hkeep := and_not_or_and word mask
  rw [hclear, UInt32.or_zero] at hkeep
  rw [and_or_distrib_right, hkeep, ← bitIf_and_self, UInt32.and_assoc, UInt32.and_not_self, UInt32.and_zero,
    UInt32.or_zero]

/-! ## Low bits -/

/-- Below a power of two there are no bits but the low ones. -/
theorem hasBit_not_seven (word : UInt32) : hasBit word (~~~7) = false ↔ word < 8 := by
  have hlow : (word &&& 7).toNat = word.toNat % 8 := by
    rw [UInt32.toNat_and]
    exact Nat.and_two_pow_sub_one_eq_mod word.toNat 3
  have hsplit := and_not_or_and word 7
  rw [hasBit_eq_false_iff, UInt32.lt_iff_toNat_lt]
  constructor
  · intro hclear
    rw [hclear, UInt32.zero_or] at hsplit
    rw [← hsplit, hlow]
    exact Nat.mod_lt _ (by decide)
  · intro hlt
    have hself : word &&& 7 = word := UInt32.toNat_inj.mp (hlow.trans (Nat.mod_eq_of_lt hlt))
    rw [← hself, UInt32.and_assoc, UInt32.and_not_self, UInt32.and_zero]

end FuseAbi
