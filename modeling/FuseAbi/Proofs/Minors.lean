import FuseAbi.Proofs.Classification

/-!
# Older and newer minors

A minor says which opcodes may occur, and that is all it says: no format depends on it, and it is looked at once,
behind the length and in front of the arguments. So two minors are told apart by the formats that they give to
the opcode of a request (`Request.decode_congr_format`), and by nothing else in it.

**The law.** Of two minors the newer one decodes whatever the older one does, to the same request, and refuses
the rest for the same fault at the same place. The exception is a whole request with an opcode that came in
between (`Request.Introduced`): there the older minor refuses the opcode, whatever is wrong behind it. Among the
opcodes that are decoded one is younger than the oldest minor; a later opcode without a format is refused at
every minor alike.
-/

namespace FuseAbi

/-- Of the opcodes that are decoded, one came later than the oldest minor. -/
theorem Opcode.eq_copyFileRange {op : Opcode} (hformat : op.format?.isSome)
    (hyoung : Minor.oldest.number < op.sinceMinor) : op = .copyFileRange := by
  cases op with
  | copyFileRange => rfl
  | lseek => cases hformat
  | _ => exact absurd hyoung (Nat.lt_irrefl 23)

namespace Minor

variable {old new : Minor} {code : UInt32}

theorem format_of_some {minor : Minor} {op : Opcode} {format : Argument.Format} (hop : Opcode.ofCode? code = some op)
    (hformat : op.format? = some format) :
    minor.format code = if minor.number < op.sinceMinor then .error (.newerOpcode op) else .ok format := by
  simp only [Minor.format, hop, hformat]

/-- A newer minor gives an opcode another format than an older one only where the opcode came in between. -/
theorem format_eq_of_le (h : old.number ≤ new.number)
    (hnew : ¬ (code = Opcode.copyFileRange.code ∧ old.number < 28 ∧ 28 ≤ new.number)) :
    new.format code = old.format code := by
  cases hop : Opcode.ofCode? code with
  | none => simp only [Minor.format, hop]
  | some op =>
    cases hformat : op.format? with
    | none => simp only [Minor.format, hop, hformat]
    | some format =>
      rw [format_of_some hop hformat, format_of_some hop hformat]
      by_cases hold : old.number < op.sinceMinor
      · have hyoung : Minor.oldest.number < op.sinceMinor := Nat.lt_of_le_of_lt old.oldest_le hold
        obtain rfl := Opcode.eq_copyFileRange (Option.isSome_of_mem hformat) hyoung
        have hcode : code = Opcode.copyFileRange.code := (Opcode.ofCode?_eq_some_iff.mp hop).symm
        have hstill : new.number < 28 := by
          by_contra hge
          exact hnew ⟨hcode, hold, Nat.le_of_not_lt hge⟩
        rw [if_pos hold, if_pos (show new.number < Opcode.copyFileRange.sinceMinor from hstill)]
      · rw [if_neg hold, if_neg (by omega)]

/-- At a minor that does not have it yet, the opcode is refused as a newer one. -/
theorem format_copyFileRange (h : old.number < 28) :
    old.format Opcode.copyFileRange.code = .error (.newerOpcode .copyFileRange) :=
  if_pos h

theorem decodes_copyFileRange (h : 28 ≤ new.number) : new.Decodes Opcode.copyFileRange.code :=
  ⟨.copyFileRange, Opcode.ofCode?_code _, rfl, h⟩

end Minor

namespace Request

variable {old new : Minor} {buffer : Bytes}

/-- How a request is decoded hangs on the minor by the format of its opcode alone, and on that only if the
request is whole. -/
theorem decode_congr_format
    (h : Header.size ≤ buffer.length → (Header.peek buffer).len.toNat = buffer.length →
      new.format (wordAt buffer 4) = old.format (wordAt buffer 4)) :
    decode new buffer = decode old buffer := by
  by_cases hsize : Header.size ≤ buffer.length
  case neg =>
    have hlt := Nat.lt_of_not_le hsize
    rw [decode_of_lt hlt, decode_of_lt hlt]
  by_cases hlen : (Header.peek buffer).len.toNat = buffer.length
  case neg => rw [decode_of_ne hsize hlen, decode_of_ne hsize hlen]
  rw [decode_of_eq hsize hlen, decode_of_eq hsize hlen, decodeBody, decodeBody, Header.peek_opcode,
    h hsize hlen]

/-- A whole request with an opcode that the newer of two minors has and the older one has not. Nothing is asked
of its arguments. -/
structure Introduced (old new : Minor) (buffer : Bytes) : Prop where
  size_le : 40 ≤ buffer.length
  len_eq : (wordAt buffer 0).toNat = buffer.length
  opcode_eq : wordAt buffer 4 = Opcode.copyFileRange.code
  old_lt : old.number < 28
  le_new : 28 ≤ new.number

/-- The older minor refuses such a request for its opcode. -/
theorem Introduced.decode_old (h : Introduced old new buffer) :
    decode old buffer =
      .error { fault := .newerOpcode .copyFileRange, offset := 4, opcode := Opcode.copyFileRange.code } := by
  have hlen := h.len_eq
  rw [← Header.peek_len] at hlen
  have hopcode := h.opcode_eq
  rw [← Header.peek_opcode] at hopcode
  have hformat := Minor.format_copyFileRange h.old_lt
  rw [← hopcode] at hformat
  rw [decode_of_format_error h.size_le hlen hformat, hopcode]
  rfl

/-- The newer minor may refuse it too, but for its arguments. -/
theorem Introduced.kind_new (h : Introduced old new buffer) {e : DecodeError}
    (he : decode new buffer = .error e) : e.kind ≠ .unknownOpcode := by
  have hword := (wordAt buffer 0).toNat_lt
  have hlen := h.len_eq
  have hdecodes := Minor.decodes_copyFileRange h.le_new
  rw [← h.opcode_eq] at hdecodes
  have hkind := (refused_arguments (show _ < 2 ^ 64 by omega) h.size_le hlen hdecodes he).1
  intro hunknown
  rcases hkind with hk | hk | hk | hk <;> cases hunknown.symm.trans hk

/-- Outside of such requests the two minors agree. -/
theorem decode_eq_of_not_introduced (h : old.number ≤ new.number) (hnot : ¬ Introduced old new buffer) :
    decode new buffer = decode old buffer := by
  refine decode_congr_format fun hsize hlen => Minor.format_eq_of_le h ?_
  rintro ⟨hcode, hold, hnew⟩
  exact hnot ⟨hsize, hlen, hcode, hold, hnew⟩

/-- Of two minors, the newer one decodes whatever the older one does, to the same request. The outcomes are the
same in every respect unless this is a whole request with an opcode that came in between; then they differ, and
the older minor refuses the opcode, while the newer one goes by the arguments. -/
theorem decode_mono_minor (h : old.number ≤ new.number) (buffer : Bytes) :
    (∀ request, decode old buffer = .ok request → decode new buffer = .ok request) ∧
    (decode new buffer = decode old buffer ↔ ¬ Introduced old new buffer) ∧
    (Introduced old new buffer →
      (∃ e, decode old buffer = .error e ∧ e.kind = .unknownOpcode ∧
        e.opcode = Opcode.copyFileRange.code ∧ e.offset = 4 ∧
        e.reason = ascii "COPY_FILE_RANGE needs protocol 7.28") ∧
      ∀ e, decode new buffer = .error e → e.kind ≠ .unknownOpcode) := by
  refine ⟨?_, ⟨?_, decode_eq_of_not_introduced h⟩, ?_⟩
  · intro request hok
    have hnot : ¬ Introduced old new buffer := by
      intro hintroduced
      cases hok.symm.trans hintroduced.decode_old
    rw [decode_eq_of_not_introduced h hnot, hok]
  · intro hsame hintroduced
    exact hintroduced.kind_new (hsame.trans hintroduced.decode_old) rfl
  · intro hintroduced
    exact ⟨⟨_, hintroduced.decode_old, rfl, rfl, rfl, by decide⟩, fun e => hintroduced.kind_new⟩

/-- A request to copy a range that lacks its arguments. -/
def copyWithoutArguments : Bytes :=
  littleEndian 4 40 ++ littleEndian 4 47 ++ List.replicate 32 0

/-- The minor before the opcode refuses the opcode, and the one that brought it the arguments. -/
theorem decode_mono_minor_copyWithoutArguments :
    ∃ e e', decode { number := 27 } copyWithoutArguments = .error e ∧ e.kind = .unknownOpcode ∧
      decode { number := 28 } copyWithoutArguments = .error e' ∧ e'.kind = .truncated := by
  have h : ({ number := 27 } : Minor).number ≤ ({ number := 28 } : Minor).number := by decide
  have hintroduced : Introduced { number := 27 } { number := 28 } copyWithoutArguments :=
    ⟨by decide, by decide, by decide, by decide, by decide⟩
  obtain ⟨e, he, hkind, -⟩ := ((decode_mono_minor h copyWithoutArguments).2.2 hintroduced).1
  have hnew : decode { number := 28 } copyWithoutArguments =
      .error { fault := .short 8 0, offset := 40, opcode := 47 } := by decide
  exact ⟨e, _, he, hkind, hnew, rfl⟩

end Request

end FuseAbi
