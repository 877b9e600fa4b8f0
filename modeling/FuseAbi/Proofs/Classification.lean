import FuseAbi.Proofs.Decode

/-!
# What a refusal says

The header of a buffer decides beforehand how decoding can end. Its declared length and its opcode are
the words at bytes 0 and 4, and the outcome goes by the first of these conditions that applies:

- there is no whole header: the request is truncated;
- the declared length is not the buffer's: the lengths do not match;
- the opcode is not decoded at the minor: it is unknown, and only then is the request not implemented;
- otherwise the arguments decide.

The conditions are about the buffer alone and exclude each other, so of several faults it is always the
first that is reported. Whatever is reported behind the header names the opcode of the header.
-/

namespace FuseAbi

/-- The kinds of error that are about the arguments. -/
def ErrorKind.OfArguments (kind : ErrorKind) : Prop :=
  kind = .truncated ∨ kind = .invalidString ∨ kind = .trailingData ∨ kind = .malformedArgument

/-- An error that carries the given opcode and says its own kind, opcode, place and whole reason. -/
structure DecodeError.Reports (e : DecodeError) (opcode : UInt32) : Prop where
  opcode_eq : e.opcode = opcode
  message_eq : e.message =
    ascii e.kind.name ++ ascii " (opcode=" ++ decimal opcode.toNat ++ ascii ", offset=" ++
      decimal e.offset.toNat ++ ascii "): " ++ e.reason

theorem DecodeError.reports_of_native {e : DecodeError} (h : e.fault.Native) : e.Reports e.opcode :=
  ⟨rfl, DecodeError.message_of_native h⟩

/-- Only an unknown opcode is answered with the number for what is not implemented. -/
theorem ErrorKind.errno_eq_iff (kind : ErrorKind) : kind.errno = 38 ↔ kind = .unknownOpcode := by
  cases kind <;> simp [ErrorKind.errno]

theorem Fault.InArguments.ofArguments {fault : Fault} (h : fault.InArguments) :
    fault.kind.OfArguments ∧ fault.Native := by
  rcases h with ⟨hkind, hnative⟩ | ⟨hkind, hnative⟩ | ⟨hkind, hnative⟩
  · exact ⟨.inl hkind, hnative⟩
  · exact ⟨.inr (.inl hkind), hnative⟩
  · exact ⟨.inr (.inr (.inr hkind)), hnative⟩

namespace Request

variable {minor : Minor} {buffer : Bytes}

/-- A place in the arguments, counted from the start of the request. -/
theorem toNat_argument_offset (hsize : buffer.length < 2 ^ 64) (h : Header.size ≤ buffer.length) {n : Nat}
    (hn : n ≤ (buffer.drop Header.size).length) :
    ((argumentCursor (buffer.drop Header.size)).offset + UInt64.ofNat n).toNat = Header.size + n := by
  have hstart : (argumentCursor (buffer.drop Header.size)).offset = UInt64.ofNat Header.size := rfl
  rw [List.length_drop] at hn
  rw [hstart, ← UInt64.ofNat_add, UInt64.toNat_ofNat']
  exact Nat.mod_eq_of_lt (by omega)

/-- Where the header is right, a refusal is about the arguments and placed in them. -/
theorem refused_arguments (hsize : buffer.length < 2 ^ 64) (h : Header.size ≤ buffer.length)
    (hlen : (wordAt buffer 0).toNat = buffer.length) (hdecodes : minor.Decodes (wordAt buffer 4))
    {e : DecodeError} (he : decode minor buffer = .error e) :
    e.kind.OfArguments ∧ Header.size ≤ e.offset.toNat ∧ e.offset.toNat ≤ buffer.length ∧
      (e.kind = .trailingData → e.offset.toNat < buffer.length) ∧ e.Reports (wordAt buffer 4) := by
  have hdrop := List.length_drop (l := buffer) (i := Header.size)
  obtain ⟨op, format, e', -, hopformat, hargs, rfl⟩ := error_of_decode h hlen hdecodes he
  dsimp only
  rcases decodeArguments_eq_error (Opcode.regular_format hopformat) hargs with
    ⟨⟨-, n, hn, hoffset⟩, hfault⟩ | ⟨-, ⟨hkind, hnative⟩, n, hn, hoffset⟩
  · obtain ⟨hkind, hnative⟩ := hfault.ofArguments
    replace hn : n ≤ (buffer.drop Header.size).length := hn
    have hplace := toNat_argument_offset hsize h hn
    rw [← hoffset] at hplace
    refine ⟨hkind, by omega, by omega, ?_, DecodeError.reports_of_native hnative⟩
    intro htrailing
    rcases hfault with ⟨hk, -⟩ | ⟨hk, -⟩ | ⟨hk, -⟩ <;> cases hk.symm.trans htrailing
  · have hplace := toNat_argument_offset hsize h (Nat.le_of_lt hn)
    rw [← hoffset] at hplace
    refine ⟨.inr (.inr (.inl hkind)), by omega, by omega, ?_, DecodeError.reports_of_native hnative⟩
    intro _
    omega

/-- A refusal of the given kind at the given place, that reports the given opcode. -/
def Refused (minor : Minor) (buffer : Bytes) (kind : ErrorKind) (place : Nat) (opcode : UInt32) : Prop :=
  ∃ e, decode minor buffer = .error e ∧ e.kind = kind ∧ e.offset.toNat = place ∧ e.Reports opcode

/-- A decode has one outcome, so a refusal has one kind. -/
theorem Refused.kind_eq {kind : ErrorKind} {place : Nat} {opcode : UInt32}
    (h : Refused minor buffer kind place opcode) {e : DecodeError} (he : decode minor buffer = .error e) :
    e.kind = kind := by
  obtain ⟨e', he', hkind, -⟩ := h
  obtain rfl : e = e' := Except.error.inj (he.symm.trans he')
  exact hkind

theorem refused_header (hsize : buffer.length < 2 ^ 64) (h : buffer.length < Header.size) :
    Refused minor buffer .truncated buffer.length 0 := by
  refine ⟨_, decode_of_lt h, rfl, ?_, DecodeError.reports_of_native trivial⟩
  exact (UInt64.toNat_ofNat' ..).trans (Nat.mod_eq_of_lt hsize)

theorem refused_length (h : Header.size ≤ buffer.length) (hne : (wordAt buffer 0).toNat ≠ buffer.length) :
    Refused minor buffer .lengthMismatch 0 (wordAt buffer 4) := by
  rw [← Header.peek_len] at hne
  rw [← Header.peek_opcode]
  obtain ⟨hkind, hnative⟩ := ofKind_lengthFault (Header.peek buffer).len buffer.length
  exact ⟨_, decode_of_ne h hne, hkind, rfl, DecodeError.reports_of_native hnative⟩

theorem refused_opcode (h : Header.size ≤ buffer.length) (hlen : (wordAt buffer 0).toNat = buffer.length)
    (hnot : ¬ minor.Decodes (wordAt buffer 4)) :
    Refused minor buffer .unknownOpcode 4 (wordAt buffer 4) := by
  rw [← Header.peek_len] at hlen
  rw [← Header.peek_opcode] at hnot ⊢
  cases hformat : minor.format (Header.peek buffer).opcode with
  | ok format =>
    obtain ⟨op, hop, hopformat, hminor⟩ := Minor.format_eq_ok_iff.mp hformat
    exact absurd ⟨op, hop, Option.isSome_of_mem hopformat, hminor⟩ hnot
  | error fault =>
    obtain ⟨hkind, hnative⟩ := (Minor.format_eq_error hformat).1
    exact ⟨_, decode_of_format_error h hlen hformat, hkind, rfl, DecodeError.reports_of_native hnative⟩

/-- Whatever a request is refused for, the reason is worded by this library. -/
theorem native_of_decode {e : DecodeError} (he : decode minor buffer = .error e) : e.fault.Native := by
  by_cases h : Header.size ≤ buffer.length
  case neg =>
    cases he.symm.trans (decode_of_lt (Nat.lt_of_not_le h))
    trivial
  by_cases hlen : (Header.peek buffer).len.toNat = buffer.length
  case neg =>
    cases he.symm.trans (decode_of_ne h hlen)
    exact (ofKind_lengthFault _ _).2
  cases hformat : minor.format (Header.peek buffer).opcode with
  | error fault =>
    cases he.symm.trans (decode_of_format_error h hlen hformat)
    exact (Minor.format_eq_error hformat).1.2
  | ok format =>
    obtain ⟨op, hop, hopformat, hminor⟩ := Minor.format_eq_ok_iff.mp hformat
    obtain ⟨_, _, e', -, hopformat', hargs, rfl⟩ :=
      error_of_decode h hlen ⟨op, hop, Option.isSome_of_mem hopformat, hminor⟩ he
    rcases decodeArguments_eq_error (Opcode.regular_format hopformat') hargs with
      ⟨-, hfault⟩ | ⟨-, hfault, -⟩
    · exact hfault.ofArguments.2
    · exact hfault.2

/-- A request is refused as unknown for its opcode alone. -/
theorem kind_eq_unknownOpcode_iff (hsize : buffer.length < 2 ^ 64) {e : DecodeError}
    (he : decode minor buffer = .error e) :
    e.kind = .unknownOpcode ↔
      Header.size ≤ buffer.length ∧ (wordAt buffer 0).toNat = buffer.length ∧
        ¬ minor.Decodes (wordAt buffer 4) := by
  constructor
  · intro hunknown
    by_cases h : Header.size ≤ buffer.length
    case neg =>
      have hkind := (refused_header hsize (Nat.lt_of_not_le h)).kind_eq he
      cases hunknown.symm.trans hkind
    by_cases hlen : (wordAt buffer 0).toNat = buffer.length
    case neg =>
      have hkind := (refused_length h hlen).kind_eq he
      cases hunknown.symm.trans hkind
    refine ⟨h, hlen, fun hdecodes => ?_⟩
    have hkind := (refused_arguments hsize h hlen hdecodes he).1
    rcases hkind with hk | hk | hk | hk <;> cases hunknown.symm.trans hk
  · rintro ⟨h, hlen, hnot⟩
    exact (refused_opcode h hlen hnot).kind_eq he

/-- The outcome of decoding goes by the first condition on the buffer that applies. -/
theorem decode_classified (minor : Minor) {buffer : Bytes} (hsize : buffer.length < 2 ^ 64) :
    (buffer.length < 40 → Refused minor buffer .truncated buffer.length 0) ∧
    (40 ≤ buffer.length → (wordAt buffer 0).toNat ≠ buffer.length →
      Refused minor buffer .lengthMismatch 0 (wordAt buffer 4)) ∧
    (40 ≤ buffer.length → (wordAt buffer 0).toNat = buffer.length → ¬ minor.Decodes (wordAt buffer 4) →
      Refused minor buffer .unknownOpcode 4 (wordAt buffer 4)) ∧
    (40 ≤ buffer.length → (wordAt buffer 0).toNat = buffer.length → minor.Decodes (wordAt buffer 4) →
      ∀ e, decode minor buffer = .error e →
        e.kind.OfArguments ∧ 40 ≤ e.offset.toNat ∧ e.offset.toNat ≤ buffer.length ∧
          (e.kind = .trailingData → e.offset.toNat < buffer.length) ∧ e.Reports (wordAt buffer 4)) ∧
    (∀ e, decode minor buffer = .error e →
      (e.kind.errno = 38 ↔
        40 ≤ buffer.length ∧ (wordAt buffer 0).toNat = buffer.length ∧
          ¬ minor.Decodes (wordAt buffer 4))) := by
  refine ⟨refused_header hsize, refused_length, refused_opcode, ?_, ?_⟩
  · intro h hlen hdecodes e he
    exact refused_arguments hsize h hlen hdecodes he
  · intro e he
    rw [ErrorKind.errno_eq_iff]
    exact kind_eq_unknownOpcode_iff hsize he

/-- Of a wrong length and an unknown opcode, the length is reported. -/
theorem decode_classified_ones :
    (List.replicate 41 255).length < 2 ^ 64 ∧
      Refused .newest (List.replicate 41 255) .lengthMismatch 0 (wordAt (List.replicate 41 255) 4) ∧
      wordAt (List.replicate 41 255) 4 = 0xffffffff := by
  have hsize : (List.replicate 41 (255 : UInt8)).length < 2 ^ 64 := by decide
  have hclass := decode_classified .newest hsize
  exact ⟨hsize, hclass.2.1 (by decide) (by decide), by decide⟩

end Request

end FuseAbi
