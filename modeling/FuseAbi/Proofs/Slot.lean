import FuseAbi.Argument.Format
import FuseAbi.Proofs.Record

/-!
# Slots: values and the bits of them that count

A request holds bits that mean nothing: padding, flags that are not looked at, and fields that a flag
leaves unused. A `Slot` is one value as it stands on the wire together with which of its bits count, so a
list of slots describes both how a request is written and which bits of it a reader may not ignore.

Two texts agree on a mask (`AgreeOn`) when they differ at most in the bits that the mask leaves out. The
words of a record fit some slots (`Slot.Fits`) when they have the slots' values in the bits that count, and
then the record's bytes agree with those of the slots (`Slot.Fits.agreeOn`).
-/

namespace FuseAbi

/-! ## Texts that agree on a mask -/

/-- Two texts that have the bits of a mask in common. -/
def AgreeOn (mask s t : Bytes) : Prop :=
  s.length = mask.length ∧ t.length = mask.length ∧
    List.zipWith (· &&& ·) s mask = List.zipWith (· &&& ·) t mask

namespace AgreeOn

variable {mask mask' s s' t t' u : Bytes}

theorem refl (h : s.length = mask.length) : AgreeOn mask s s :=
  ⟨h, h, rfl⟩

theorem symm (h : AgreeOn mask s t) : AgreeOn mask t s :=
  ⟨h.2.1, h.1, h.2.2.symm⟩

theorem trans (h : AgreeOn mask s t) (h' : AgreeOn mask t u) : AgreeOn mask s u :=
  ⟨h.1, h'.2.1, h.2.2.trans h'.2.2⟩

theorem length_eq (h : AgreeOn mask s t) : s.length = t.length :=
  h.1.trans h.2.1.symm

/-- Agreement piece by piece is agreement. -/
theorem append (h : AgreeOn mask s t) (h' : AgreeOn mask' s' t') :
    AgreeOn (mask ++ mask') (s ++ s') (t ++ t') := by
  refine ⟨?_, ?_, ?_⟩
  · rw [List.length_append, List.length_append, h.1, h'.1]
  · rw [List.length_append, List.length_append, h.2.1, h'.2.1]
  · rw [List.zipWith_append h.1, List.zipWith_append h.2.1, h.2.2, h'.2.2]

end AgreeOn

/-- A mask without bits asks nothing of texts but their length. -/
theorem agreeOn_zeros {n : Nat} {s t : Bytes} (hs : s.length = n) (ht : t.length = n) :
    AgreeOn (List.replicate n 0) s t := by
  have hzero : ∀ {u : Bytes}, u.length = n → List.zipWith (· &&& ·) u (List.replicate n 0) =
      List.replicate n (0 : UInt8) := by
    intro u hu
    apply List.ext_getElem
    · rw [List.length_zipWith, hu, List.length_replicate, Nat.min_self]
    · intro i _ _
      rw [List.getElem_zipWith, List.getElem_replicate, UInt8.and_zero]
  exact ⟨hs.trans List.length_replicate.symm, ht.trans List.length_replicate.symm,
    (hzero hs).trans (hzero ht).symm⟩

/-- The bytes of a word cut down to a mask are its bytes cut down to those of the mask. -/
theorem zipWith_littleEndian (width m n : Nat) :
    List.zipWith (· &&& ·) (littleEndian width m) (littleEndian width n) =
      littleEndian width (m &&& n) := by
  induction width generalizing m n with
  | zero => rfl
  | succ width ih =>
    have hlow : m.toUInt8 &&& n.toUInt8 = (m &&& n).toUInt8 := by
      apply UInt8.toNat_inj.mp
      simp only [Nat.toUInt8_eq, UInt8.toNat_and, UInt8.toNat_ofNat']
      exact Nat.and_mod_two_pow.symm
    have hhigh : (m &&& n) / 256 = m / 256 &&& n / 256 := Nat.and_div_two_pow (n := 8)
    rw [littleEndian, littleEndian, littleEndian, List.zipWith_cons_cons, ih, hlow, hhigh]

/-- Words that have the bits of a mask in common are written alike on it. -/
theorem agreeOn_littleEndian (width : Nat) {m n known : Nat} (h : m &&& known = n &&& known) :
    AgreeOn (littleEndian width known) (littleEndian width m) (littleEndian width n) := by
  refine ⟨?_, ?_, ?_⟩
  · rw [length_littleEndian, length_littleEndian]
  · rw [length_littleEndian, length_littleEndian]
  · rw [zipWith_littleEndian, zipWith_littleEndian, h]

/-! ## Slots -/

/-- A value on the wire with the bits of it that count. -/
inductive Slot where
  /-- A word of four bytes, with the mask of its bits that count. -/
  | word32 (value known : UInt32)
  /-- A word of eight bytes, and whether it counts. -/
  | word64 (value : UInt64) (counts : Bool)
  /-- So many zero bytes that do not count. -/
  | unused (width : Nat)
  /-- A name, with its terminator. -/
  | name (text : Bytes)
  /-- Bytes as they stand. -/
  | data (bytes : Bytes)
deriving DecidableEq, Repr

namespace Slot

/-- The value as an item to be written. -/
def item : Slot → Item
  | word32 value _ => .u32 value
  | word64 value _ => .u64 value
  | unused width => .zeros width
  | name text => .cstring text
  | data bytes => .bytes bytes

/-- The bits of a slot that count. -/
def mask : Slot → Bytes
  | word32 _ known => littleEndian 4 known.toNat
  | word64 _ counts => List.replicate 8 (if counts then 255 else 0)
  | unused width => List.replicate width 0
  | name text => List.replicate (text.length + 1) 255
  | data bytes => List.replicate bytes.length 255

/-- The bytes of some slots, one after the other. -/
def encodeAll (slots : List Slot) : Bytes :=
  Item.encodeAll (slots.map item)

/-- The bits of some slots that count. -/
def maskAll (slots : List Slot) : Bytes :=
  slots.flatMap mask

theorem encodeAll_cons (slot : Slot) (rest : List Slot) :
    encodeAll (slot :: rest) = slot.item.encode ++ encodeAll rest :=
  rfl

theorem encodeAll_append (slots slots' : List Slot) :
    encodeAll (slots ++ slots') = encodeAll slots ++ encodeAll slots' := by
  simp only [encodeAll, Item.encodeAll, List.map_append, List.flatMap_append]

theorem maskAll_cons (slot : Slot) (rest : List Slot) :
    maskAll (slot :: rest) = slot.mask ++ maskAll rest :=
  rfl

theorem maskAll_append (slots slots' : List Slot) :
    maskAll (slots ++ slots') = maskAll slots ++ maskAll slots' :=
  List.flatMap_append ..

theorem length_mask (slot : Slot) : slot.mask.length = slot.item.encode.length := by
  cases slot with
  | word32 value known => exact (length_littleEndian _ _).trans (length_littleEndian _ _).symm
  | word64 value counts => exact List.length_replicate.trans (length_littleEndian _ _).symm
  | unused width => exact List.length_replicate.trans List.length_replicate.symm
  | name text =>
    have htext : (text ++ [0]).length = text.length + 1 := List.length_append
    exact List.length_replicate.trans htext.symm
  | data bytes => exact List.length_replicate

theorem length_maskAll (slots : List Slot) : (maskAll slots).length = (encodeAll slots).length := by
  induction slots with
  | nil => rfl
  | cons slot rest ih =>
    rw [maskAll_cons, encodeAll_cons, List.length_append, List.length_append, length_mask, ih]

/-! ## Words in slots -/

/-- The words of a layout have the values of some slots in the bits that count, and the slots that are left
over are the given ones. -/
def Fits (back : List Slot) : List Slot → (layout : List Field) → Values layout → Prop
  | slots, [], _ => slots = back
  | .word32 value known :: slots, .u32 :: rest, (word, values) =>
    word &&& known = value &&& known ∧ Fits back slots rest values
  | .word64 value counts :: slots, .u64 :: rest, (word, values) =>
    (counts = true → word = value) ∧ Fits back slots rest values
  | .unused width :: slots, .pad width' :: rest, values => width = width' ∧ Fits back slots rest values
  | _, _ :: _, _ => False

theorem fits_nil {back slots : List Slot} {values : Values []} :
    Fits back slots [] values ↔ slots = back := by
  cases slots with
  | nil => rfl
  | cons slot rest => cases slot <;> rfl

/-- Bytes that agree with a first slot, and behind it with the other slots, agree with all of them. -/
theorem agreeOn_cons {slot : Slot} {rest : List Slot} {s s' : Bytes} {n : Nat}
    (hslot : AgreeOn slot.mask (s.take n) slot.item.encode)
    (hrest : AgreeOn (maskAll rest) (s.drop n ++ s') (encodeAll rest)) :
    AgreeOn (maskAll (slot :: rest)) (s ++ s') (encodeAll (slot :: rest)) := by
  have happend := hslot.append hrest
  rwa [← List.append_assoc, List.take_append_drop] at happend

/-- Bytes whose words fit some slots agree with the bytes of the slots. -/
theorem Fits.agreeOn {back slots : List Slot} {layout : List Field} {s s' : Bytes}
    (h : Fits back slots layout (Values.ofBytes layout s)) (hs : s.length = layoutSize layout)
    (hback : AgreeOn (maskAll back) s' (encodeAll back)) :
    AgreeOn (maskAll slots) (s ++ s') (encodeAll slots) := by
  induction layout generalizing slots s with
  | nil =>
    rw [fits_nil.mp h, List.length_eq_zero_iff.mp hs]
    exact hback
  | cons field rest ih =>
    rw [layoutSize] at hs
    have htake : (s.take field.width).length = field.width := by
      rw [List.length_take]
      omega
    have hdrop : (s.drop field.width).length = layoutSize rest := by
      rw [List.length_drop]
      omega
    cases slots with
    | nil => cases field <;> exact False.elim h
    | cons slot slots =>
      cases field with
      | u32 =>
        cases slot with
        | word32 value known =>
          obtain ⟨hword, hfits⟩ := h
          have hbits := congrArg UInt32.toNat hword
          rw [UInt32.toNat_and, UInt32.toNat_and] at hbits
          refine agreeOn_cons ?_ (ih hfits hdrop)
          have hbytes : littleEndian 4 (UInt32.ofNat (ofLittleEndian (s.take 4))).toNat = s.take 4 :=
            littleEndian_u32 htake
          have hfield := agreeOn_littleEndian 4 hbits
          rw [hbytes] at hfield
          exact hfield
        | word64 | unused | name | data => exact False.elim h
      | u64 =>
        cases slot with
        | word64 value counts =>
          obtain ⟨hword, hfits⟩ := h
          refine agreeOn_cons ?_ (ih hfits hdrop)
          cases counts with
          | false => exact agreeOn_zeros htake (length_littleEndian _ _)
          | true =>
            have hbytes : littleEndian 8 (UInt64.ofNat (ofLittleEndian (s.take 8))).toNat = s.take 8 :=
              littleEndian_u64 htake
            rw [hword rfl] at hbytes
            have hfield : AgreeOn (List.replicate 8 255) (s.take 8) (littleEndian 8 value.toNat) := by
              rw [hbytes]
              exact AgreeOn.refl (htake.trans List.length_replicate.symm)
            exact hfield
        | word32 | unused | name | data => exact False.elim h
      | pad width =>
        cases slot with
        | unused width' =>
          obtain ⟨rfl, hfits⟩ := h
          exact agreeOn_cons (agreeOn_zeros htake List.length_replicate) (ih hfits hdrop)
        | word32 | word64 | name | data => exact False.elim h

end Slot

end FuseAbi
