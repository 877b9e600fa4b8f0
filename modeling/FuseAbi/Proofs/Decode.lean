import FuseAbi.Proofs.Format

/-!
# Decoding, case by case

`Request.decode` makes its checks one after the other. Here each outcome is stated on its own, with
the conditions under which it comes about, so that later proofs need not open the definition:

- there is no whole header (`decode_of_lt`);
- the header's length is not that of the buffer (`decode_of_ne`);
- the opcode is not decoded at the minor (`decode_of_format_error`);
- the outcome is that of the arguments (`decode_of_format_ok`).

The conditions are about `Header.peek`, the header that the first forty bytes spell, whatever else is
wrong with the buffer. `decode_eq_ok_iff` sums up when a request is decoded.
-/

namespace FuseAbi

/-- The number that the four bytes from a place on spell. -/
def wordAt (buffer : Bytes) (place : Nat) : UInt32 :=
  UInt32.ofNat (ofLittleEndian ((buffer.drop place).take 4))

theorem toNat_wordAt (buffer : Bytes) (place : Nat) :
    (wordAt buffer place).toNat = ofLittleEndian ((buffer.drop place).take 4) :=
  UInt32.toNat_ofNat_of_lt' (ofLittleEndian_take_lt 4 _)

/-- The number that the eight bytes from a place on spell. -/
def longAt (buffer : Bytes) (place : Nat) : UInt64 :=
  UInt64.ofNat (ofLittleEndian ((buffer.drop place).take 8))

theorem toNat_longAt (buffer : Bytes) (place : Nat) :
    (longAt buffer place).toNat = ofLittleEndian ((buffer.drop place).take 8) :=
  UInt64.toNat_ofNat_of_lt' (ofLittleEndian_take_lt 8 _)

namespace Values

/-! The words of a layout, by the places where they stand in a buffer. -/

theorem ofBytes_drop_u32 (rest : List Field) (buffer : Bytes) (place : Nat) :
    ofBytes (.u32 :: rest) (buffer.drop place) =
      (wordAt buffer place, ofBytes rest (buffer.drop (place + 4))) :=
  congrArg (fun s => (wordAt buffer place, ofBytes rest s)) List.drop_drop

theorem ofBytes_drop_u64 (rest : List Field) (buffer : Bytes) (place : Nat) :
    ofBytes (.u64 :: rest) (buffer.drop place) =
      (longAt buffer place, ofBytes rest (buffer.drop (place + 8))) :=
  congrArg (fun s => (longAt buffer place, ofBytes rest s)) List.drop_drop

theorem ofBytes_drop_pad (width : Nat) (rest : List Field) (buffer : Bytes) (place : Nat) :
    ofBytes (.pad width :: rest) (buffer.drop place) = ofBytes rest (buffer.drop (place + width)) :=
  congrArg (ofBytes rest) List.drop_drop

end Values

/-- The flags of a rename stand at byte 48 of the request. -/
theorem Rename2Args.flags_ofBytes (buffer : Bytes) :
    (Record.ofBytes (buffer.drop Header.size) : Rename2Args).flags = wordAt buffer 48 := by
  simp only [Record.ofBytes, Record.layout, Values.ofBytes_drop_u32, Values.ofBytes_drop_u64]
  rfl

namespace Header

/-- The header that the bytes at the start of a buffer spell. -/
def peek (buffer : Bytes) : Header :=
  Record.ofBytes buffer

theorem peek_len (buffer : Bytes) : (peek buffer).len = wordAt buffer 0 :=
  rfl

theorem peek_opcode (buffer : Bytes) : (peek buffer).opcode = wordAt buffer 4 :=
  rfl

theorem peek_unique (buffer : Bytes) : (peek buffer).unique = longAt buffer 8 := by
  rw [longAt, show buffer.drop 8 = (buffer.drop 4).drop 4 by simp only [List.drop_drop]]
  rfl

theorem peek_nodeid (buffer : Bytes) : (peek buffer).nodeid = longAt buffer 16 := by
  rw [longAt, show buffer.drop 16 = ((buffer.drop 4).drop 4).drop 8 by simp only [List.drop_drop]]
  rfl

/-- A header hangs on the first forty bytes only. -/
theorem peek_append {buffer : Bytes} (h : size ≤ buffer.length) (more : Bytes) :
    peek (buffer ++ more) = peek buffer :=
  Record.ofBytes_append (α := Header) h more

theorem peek_take {buffer : Bytes} {n : Nat} (h : size ≤ n) (hn : n ≤ buffer.length) :
    peek (buffer.take n) = peek buffer :=
  Record.ofBytes_take (α := Header) (Nat.le_trans h hn) h

theorem decode_of_lt {buffer : Bytes} (h : buffer.length < size) :
    decode buffer = .error { fault := .noHeader buffer.length, offset := UInt64.ofNat buffer.length } := by
  rw [decode, if_pos h]
  rfl

/-- A buffer with a whole header has its header, unless the length in it is out of bounds. -/
theorem decode_of_le {buffer : Bytes} (h : size ≤ buffer.length) :
    decode buffer =
      if (peek buffer).len.toNat < size then
        .error { fault := .lengthBelowHeader (peek buffer).len, offset := 0,
                 opcode := (peek buffer).opcode }
      else if buffer.length < (peek buffer).len.toNat then
        .error { fault := .lengthAboveBuffer (peek buffer).len buffer.length, offset := 0,
                 opcode := (peek buffer).opcode }
      else .ok (peek buffer) := by
  have htake : (buffer.take size).length = size := by
    rw [List.length_take]
    omega
  have hread := Scan.eval_of_ok (Record.read_of_le (α := Header)
    (c := { offset := 0, unread := buffer.take size }) (le_of_eq htake.symm))
  have hheader : (Record.ofBytes (buffer.take size) : Header) = peek buffer := peek_take le_rfl h
  rw [hheader] at hread
  rw [decode, if_neg (by omega), hread]
  rfl

/-- A header is read where there are bytes for it and its length lies between its own and the buffer's. -/
theorem decode_eq_error_iff {buffer : Bytes} :
    (∃ e, decode buffer = .error e) ↔
      ¬ (40 ≤ (wordAt buffer 0).toNat ∧ (wordAt buffer 0).toNat ≤ buffer.length) := by
  by_cases hsize : size ≤ buffer.length
  · have hsize' : size = 40 := rfl
    rw [decode_of_le hsize, peek_len, hsize', not_and_or, Nat.not_le, Nat.not_le]
    split
    next hbelow => exact iff_of_true ⟨_, rfl⟩ (.inl hbelow)
    next hbelow =>
      split
      next habove => exact iff_of_true ⟨_, rfl⟩ (.inr habove)
      next habove =>
        refine iff_of_false ?_ (not_or_intro hbelow habove)
        rintro ⟨e, he⟩
        cases he
  · have hlt : buffer.length < 40 := Nat.lt_of_not_le hsize
    exact iff_of_true ⟨_, decode_of_lt hlt⟩ (by omega)

end Header

/-! ## Opcodes at a minor -/

namespace Minor

/-- A number that is decoded at a minor: it stands for an opcode with a format, and one that the minor
already has. -/
def Decodes (minor : Minor) (code : UInt32) : Prop :=
  ∃ op, Opcode.ofCode? code = some op ∧ op.format?.isSome ∧ op.sinceMinor ≤ minor.number

variable {minor : Minor} {code : UInt32}

theorem format_eq_ok_iff {format : Argument.Format} :
    minor.format code = .ok format ↔
      ∃ op, Opcode.ofCode? code = some op ∧ op.format? = some format ∧ op.sinceMinor ≤ minor.number := by
  unfold Minor.format
  cases hop : Opcode.ofCode? code with
  | none => simp only [reduceCtorEq, false_and, exists_false]
  | some op =>
    simp only [Option.some.injEq, exists_eq_left']
    cases hformat : op.format? with
    | none => simp only [reduceCtorEq, false_and]
    | some format' =>
      simp only [Option.some.injEq]
      split
      next hnew => simp only [reduceCtorEq, false_iff, not_and, Nat.not_le, hnew, implies_true]
      next hold => simp only [Except.ok.injEq, iff_self_and, Nat.le_of_not_lt hold, implies_true]

/-- A number that is not decoded is refused as an unknown opcode. -/
theorem format_eq_error {fault : Fault} (h : minor.format code = .error fault) :
    fault.OfKind .unknownOpcode ∧ ¬ minor.Decodes code := by
  constructor
  · unfold Minor.format at h
    split at h
    · cases h
      exact ⟨rfl, trivial⟩
    · split at h
      · cases h
        exact ⟨rfl, trivial⟩
      · split at h
        · cases h
          exact ⟨rfl, trivial⟩
        · cases h
  · rintro ⟨op, hop, hformat, hminor⟩
    obtain ⟨format, hformat⟩ := Option.isSome_iff_exists.mp hformat
    cases h.symm.trans (format_eq_ok_iff.mpr ⟨op, hop, hformat, hminor⟩)

/-- The format of an opcode at a minor is regular, as that of the opcode is. -/
theorem regular_of_format {format : Argument.Format} (h : minor.format code = .ok format) :
    format.Regular := by
  obtain ⟨op, -, hformat, -⟩ := format_eq_ok_iff.mp h
  exact Opcode.regular_format hformat

end Minor

/-! ## Requests -/

namespace Request

variable {minor : Minor} {buffer : Bytes}

/-- What is said of a declared length that is not that of the buffer. -/
def lengthFault (len : UInt32) (size : Nat) : Fault :=
  if len.toNat < Header.size then .lengthBelowHeader len
  else if size < len.toNat then .lengthAboveBuffer len size
  else .lengthBelowBuffer len size

theorem ofKind_lengthFault (len : UInt32) (size : Nat) : (lengthFault len size).OfKind .lengthMismatch := by
  unfold lengthFault
  split
  · exact ⟨rfl, trivial⟩
  · split <;> exact ⟨rfl, trivial⟩

theorem decode_of_lt (h : buffer.length < Header.size) :
    decode minor buffer =
      .error { fault := .noHeader buffer.length, offset := UInt64.ofNat buffer.length } := by
  rw [decode, Header.decode_of_lt h]

theorem decode_of_ne (h : Header.size ≤ buffer.length)
    (hlen : (Header.peek buffer).len.toNat ≠ buffer.length) :
    decode minor buffer =
      .error { fault := lengthFault (Header.peek buffer).len buffer.length, offset := 0,
               opcode := (Header.peek buffer).opcode } := by
  rw [decode, Header.decode_of_le h]
  by_cases hbelow : (Header.peek buffer).len.toNat < Header.size
  · rw [if_pos hbelow, lengthFault, if_pos hbelow]
  · rw [if_neg hbelow, lengthFault, if_neg hbelow]
    by_cases habove : buffer.length < (Header.peek buffer).len.toNat
    · rw [if_pos habove, if_pos habove]
    · rw [if_neg habove, if_neg habove]
      dsimp only
      rw [decodeBody, if_pos hlen]

/-- Where the length is right, the outcome is that of the opcode and the arguments. -/
theorem decode_of_eq (h : Header.size ≤ buffer.length)
    (hlen : (Header.peek buffer).len.toNat = buffer.length) :
    decode minor buffer =
      match decodeBody minor (Header.peek buffer) buffer with
      | .error e => .error { e with opcode := (Header.peek buffer).opcode }
      | .ok operation => .ok { header := Header.peek buffer, operation } := by
  have hheader : Header.decode buffer = .ok (Header.peek buffer) := by
    rw [Header.decode_of_le h, if_neg (by omega), if_neg (by omega)]
  cases hbody : decodeBody minor (Header.peek buffer) buffer with
  | error e =>
    rw [decode, hheader]
    dsimp only
    rw [hbody]
  | ok operation =>
    rw [decode, hheader]
    dsimp only
    rw [hbody]

theorem decode_of_format_error (h : Header.size ≤ buffer.length)
    (hlen : (Header.peek buffer).len.toNat = buffer.length) {fault : Fault}
    (hformat : minor.format (Header.peek buffer).opcode = .error fault) :
    decode minor buffer =
      .error { fault, offset := Header.opcodePlace, opcode := (Header.peek buffer).opcode } := by
  rw [decode_of_eq h hlen, decodeBody, if_neg (not_not_intro hlen), hformat]

theorem decode_of_format_ok (h : Header.size ≤ buffer.length)
    (hlen : (Header.peek buffer).len.toNat = buffer.length) {format : Argument.Format}
    (hformat : minor.format (Header.peek buffer).opcode = .ok format) :
    decode minor buffer =
      match decodeArguments format (Header.peek buffer) (buffer.drop Header.size) with
      | .error e => .error { e with opcode := (Header.peek buffer).opcode }
      | .ok operation => .ok { header := Header.peek buffer, operation } := by
  rw [decode_of_eq h hlen, decodeBody, if_neg (not_not_intro hlen), hformat]

/-- A request is decoded when its length is right, its opcode is decoded at the minor, and its arguments
spell an operation. -/
theorem decode_eq_ok_iff {request : Request} :
    decode minor buffer = .ok request ↔
      Header.size ≤ buffer.length ∧ (Header.peek buffer).len.toNat = buffer.length ∧
      request.header = Header.peek buffer ∧
      ∃ format, minor.format request.header.opcode = .ok format ∧
        Spell format request.header (buffer.drop Header.size) request.operation := by
  constructor
  · intro hdecode
    by_cases h : Header.size ≤ buffer.length
    case neg => cases hdecode.symm.trans (decode_of_lt (Nat.lt_of_not_le h))
    by_cases hlen : (Header.peek buffer).len.toNat = buffer.length
    case neg => cases hdecode.symm.trans (decode_of_ne h hlen)
    cases hformat : minor.format (Header.peek buffer).opcode with
    | error fault => cases hdecode.symm.trans (decode_of_format_error h hlen hformat)
    | ok format =>
      rw [decode_of_format_ok h hlen hformat] at hdecode
      split at hdecode
      next => cases hdecode
      next operation hoperation =>
        cases hdecode
        have hspell := (decodeArguments_eq_ok_iff (Minor.regular_of_format hformat)).mp hoperation
        exact ⟨h, hlen, rfl, format, hformat, hspell⟩
  · rintro ⟨h, hlen, hheader, format, hformat, hspell⟩
    rw [hheader] at hformat hspell
    have hoperation := (decodeArguments_eq_ok_iff (Minor.regular_of_format hformat)).mpr hspell
    rw [decode_of_format_ok h hlen hformat, hoperation, ← hheader]

/-- Where the length is right and the opcode decoded, a refusal is one of the arguments under that opcode. -/
theorem error_of_decode (h : Header.size ≤ buffer.length) (hlen : (wordAt buffer 0).toNat = buffer.length)
    (hdecodes : minor.Decodes (wordAt buffer 4)) {e : DecodeError} (he : decode minor buffer = .error e) :
    ∃ op format e', Opcode.ofCode? (wordAt buffer 4) = some op ∧ op.format? = some format ∧
      decodeArguments format (Header.peek buffer) (buffer.drop Header.size) = .error e' ∧
      e = { e' with opcode := wordAt buffer 4 } := by
  obtain ⟨op, hop, hsome, hminor⟩ := hdecodes
  obtain ⟨format, hopformat⟩ := Option.isSome_iff_exists.mp hsome
  rw [← Header.peek_len] at hlen
  rw [← Header.peek_opcode] at hop ⊢
  rw [decode_of_format_ok h hlen (Minor.format_eq_ok_iff.mpr ⟨op, hop, hopformat, hminor⟩)] at he
  cases hargs : decodeArguments format (Header.peek buffer) (buffer.drop Header.size) with
  | ok operation =>
    rw [hargs] at he
    cases he
  | error e' =>
    rw [hargs] at he
    exact ⟨op, format, e', hop, hopformat, hargs, (Except.error.inj he).symm⟩

/-- What is known of a buffer that is decoded. -/
theorem ok_of_decode (h : decode minor buffer = .ok request) :
    Header.size ≤ buffer.length ∧ (Header.peek buffer).len.toNat = buffer.length ∧
      request.header = Header.peek buffer ∧
      ∃ op format, Opcode.ofCode? (Header.peek buffer).opcode = some op ∧ op.format? = some format ∧
        minor.format (Header.peek buffer).opcode = .ok format ∧
        decodeArguments format (Header.peek buffer) (buffer.drop Header.size) =
          .ok request.operation := by
  obtain ⟨hsize, hlen, hheader, format, hformat, hspell⟩ := decode_eq_ok_iff.mp h
  rw [hheader] at hformat hspell
  obtain ⟨op, hop, hopformat, -⟩ := Minor.format_eq_ok_iff.mp hformat
  exact ⟨hsize, hlen, hheader, op, format, hop, hopformat, hformat,
    (decodeArguments_eq_ok_iff (Opcode.regular_format hopformat)).mpr hspell⟩

end Request

end FuseAbi
