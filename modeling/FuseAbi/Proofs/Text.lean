import FuseAbi.Fault
import Mathlib.Data.List.TakeWhile
import Mathlib.Tactic.IntervalCases

/-!
# Zero bytes and control bytes in texts

A name on the wire ends at its first zero byte, and so does a message when it is printed. The first
part of this module says what `untilZero` cuts off. The second part says that everything this library
words itself is printable, so that a message shows its reason in full and stays on one line. The one
exception is a reason that a caller words (`Fault.worded`).
-/

namespace FuseAbi

/-! ## The first zero byte -/

theorem zero_notMem_untilZero (s : Bytes) : 0 ∉ untilZero s := by
  intro h
  have hne := List.mem_takeWhile_imp (p := fun b : UInt8 => decide (b ≠ 0)) h
  exact of_decide_eq_true hne rfl

/-- Without a zero byte, nothing is cut off. -/
theorem untilZero_append {s : Bytes} (h : 0 ∉ s) (rest : Bytes) :
    untilZero (s ++ rest) = s ++ untilZero rest := by
  apply List.takeWhile_append_of_pos
  intro b hb
  exact decide_eq_true fun hzero => h (hzero ▸ hb)

theorem untilZero_of_notMem {s : Bytes} (h : 0 ∉ s) : untilZero s = s := by
  have happ := untilZero_append h []
  rwa [List.append_nil, show untilZero [] = [] from rfl, List.append_nil] at happ

/-- A text without zero bytes is read up to the zero byte behind it. -/
theorem untilZero_append_zero {s : Bytes} (h : 0 ∉ s) (rest : Bytes) :
    untilZero (s ++ 0 :: rest) = s := by
  rw [untilZero_append h, show untilZero (0 :: rest) = [] from rfl, List.append_nil]

/-- Where something is cut off, a zero byte comes first. -/
theorem untilZero_append_drop {s : Bytes} (h : (untilZero s).length < s.length) :
    untilZero s ++ 0 :: s.drop ((untilZero s).length + 1) = s := by
  induction s with
  | nil => cases h
  | cons b rest ih =>
    by_cases hb : b = 0
    · subst hb
      rfl
    · have hcons : untilZero (b :: rest) = b :: untilZero rest :=
        List.takeWhile_cons_of_pos (p := fun b : UInt8 => decide (b ≠ 0)) (decide_eq_true hb)
      rw [hcons, List.length_cons, List.length_cons] at h
      rw [hcons, List.length_cons, List.drop_succ_cons, List.cons_append]
      exact congrArg (b :: ·) (ih (by omega))

/-! ## Printable text -/

/-- A text without control bytes: neither a zero byte nor a newline stands in it. -/
def Printable (s : Bytes) : Prop :=
  ∀ b ∈ s, 32 ≤ b

instance (s : Bytes) : Decidable (Printable s) :=
  List.decidableBAll _ s

@[simp] theorem printable_append {s t : Bytes} : Printable (s ++ t) ↔ Printable s ∧ Printable t :=
  List.forall_mem_append

theorem Printable.notMem {s : Bytes} (h : Printable s) {b : UInt8} (hb : b < 32) : b ∉ s := by
  intro hmem
  exact absurd hb (UInt8.not_lt.mpr (h b hmem))

/-- The byte of a digit is printable in every base: past the digits that have a letter stands a star. -/
theorem printable_digitChar (d : Nat) : Printable (ofChars [d.digitChar]) := by
  by_cases hd : d < 16
  · interval_cases d <;> decide
  · have hstar : d.digitChar = '*' := Nat.digitChar_eq_star.mpr (Nat.le_of_not_lt hd)
    rw [hstar]
    decide

theorem printable_toDigits {base : Nat} (hbase : 1 < base) (n : Nat) :
    Printable (ofChars (Nat.toDigits base n)) := by
  induction n using Nat.strongRecOn with
  | ind n ih =>
    rw [Nat.toDigits_eq_if hbase]
    split
    next => exact printable_digitChar n
    next hn =>
      have hlt : n / base < n := Nat.div_lt_self (by omega) hbase
      rw [ofChars, List.map_append]
      exact printable_append.mpr ⟨ih _ hlt, printable_digitChar _⟩

@[simp] theorem printable_decimal (n : Nat) : Printable (decimal n) :=
  printable_toDigits (by decide) n

@[simp] theorem printable_hexadecimal (n : Nat) : Printable (hexadecimal n) :=
  printable_toDigits (by decide) n

@[simp] theorem Opcode.printable_name (op : Opcode) : Printable (ascii op.name) := by
  cases op <;> decide

@[simp] theorem TimeField.printable_name (field : TimeField) : Printable (ascii field.name) := by
  cases field <;> decide

@[simp] theorem ErrorKind.printable_name (kind : ErrorKind) : Printable (ascii kind.name) := by
  cases kind with
  | unassigned code => exact show Printable (ascii "DecodeError") by decide
  | _ => decide

/-! ## Reasons and messages -/

/-- A fault whose reason is worded by this library. -/
def Fault.Native : Fault → Prop
  | .worded .. => False
  | _ => True

/-- A fault of the given kind, worded by this library. -/
def Fault.OfKind (kind : ErrorKind) (fault : Fault) : Prop :=
  fault.kind = kind ∧ fault.Native

/-- What this library says of a fault is made of words and numbers. -/
theorem Fault.Native.printable_reason {fault : Fault} (h : fault.Native) : Printable fault.reason := by
  cases fault with
  | worded => exact h.elim
  | _ =>
    simp only [Fault.reason, printable_append, printable_decimal, Opcode.printable_name,
      TimeField.printable_name, true_and, and_true]
    decide

/-- The message of such a fault is its kind, opcode and place, and then its whole reason. -/
theorem DecodeError.message_of_native {e : DecodeError} (h : e.fault.Native) :
    e.message = ascii e.kind.name ++ ascii " (opcode=" ++ decimal e.opcode.toNat ++ ascii ", offset=" ++
      decimal e.offset.toNat ++ ascii "): " ++ e.reason := by
  have hzero : 0 ∉ e.reason := h.printable_reason.notMem (by decide)
  rw [DecodeError.message, untilZero_of_notMem hzero]

theorem DecodeError.printable_message {e : DecodeError} (h : e.fault.Native) : Printable e.message := by
  have hreason : Printable e.reason := h.printable_reason
  rw [message_of_native h]
  simp only [printable_append, ErrorKind.printable_name, printable_decimal, hreason, true_and, and_true]
  decide

end FuseAbi
