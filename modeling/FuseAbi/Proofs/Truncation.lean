import FuseAbi.Proofs.Decode

/-!
# Requests that are cut short

A request that is decoded is no longer decoded once bytes are missing at its end. Where the declared
length is left as it was, that alone gives the cut away. Where it is rewritten to the bytes that are left,
the arguments have to: a record that is cut is short, and behind a whole record the same parts are due as
before, so a name lacks its terminator or data is short (`Argument.Format.read_cut`). Forget records are
counted beforehand, so a cut between two of them is a wrong count.

It follows that the arguments of an opcode are prefix-free, forget records included.
-/

namespace FuseAbi

namespace Header

/-- Declaring another length changes the length in the header and nothing else. -/
theorem peek_declare {buffer : Bytes} (h : 4 ≤ buffer.length) (len : UInt32) :
    peek (declare len buffer) = { peek buffer with len } := by
  have hword : ofLittleEndian (littleEndian 4 len.toNat) = len.toNat :=
    ofLittleEndian_littleEndian 4 _ len.toNat_lt
  have hfront : (littleEndian 4 len.toNat ++ buffer.drop 4).take 4 = littleEndian 4 len.toNat :=
    List.take_left' (length_littleEndian _ _)
  have hback : (littleEndian 4 len.toNat ++ buffer.drop 4).drop 4 = buffer.drop 4 :=
    List.drop_left' (length_littleEndian _ _)
  have hlen : UInt32.ofNat (ofLittleEndian ((littleEndian 4 len.toNat ++ buffer.drop 4).take 4)) = len := by
    rw [hfront, hword, UInt32.ofNat_toNat]
  -- a header is its first word and the rest
  have hpeek (s : Bytes) : peek s =
      { Record.ofValues (α := Header) (0, Values.ofBytes _ (s.drop 4)) with
        len := UInt32.ofNat (ofLittleEndian (s.take 4)) } := rfl
  rw [declare, if_neg (by omega), hpeek, hpeek buffer, hlen, hback]

theorem length_declare {buffer : Bytes} (len : UInt32) : (declare len buffer).length = buffer.length := by
  unfold declare
  split
  · rfl
  · rw [List.length_append, length_littleEndian, List.length_drop]
    omega

theorem drop_declare {buffer : Bytes} (len : UInt32) :
    (declare len buffer).drop size = buffer.drop size := by
  unfold declare
  split
  · rfl
  · have hsize : size = 4 + 36 := rfl
    rw [hsize, ← List.drop_drop, ← List.drop_drop, List.drop_left' (length_littleEndian _ _)]

end Header

namespace Argument

/-- The faults that cut arguments are refused for: a wrong count only where forget records are read. -/
def Format.CutFault (format : Format) (fault : Fault) : Prop :=
  fault.OfKind .truncated ∨ fault.OfKind .invalidString ∨
    fault.OfKind .malformedArgument ∧ ∃ fixed, ∃ part ∈ format.tail fixed, ¬ part.isDelimited

/-- Forget records that are read fill their region. -/
theorem Part.length_of_readForgets {count : UInt32} {entries : List Forget} {c d : Cursor}
    (h : (Part.read (.forgets count)).run c = .ok entries d) :
    c.unread.length = count.toNat * Record.size Forget := by
  by_contra hne
  cases h.symm.trans (Part.readForgets_of_ne hne)

namespace Parts

/-- Parts that fill a region are not read from a part of it. -/
theorem read_cut {parts : List Part}
    (hshape : (∀ part ∈ parts, part.isDelimited) ∨ ∃ count, parts = [.forgets count])
    {c d : Cursor} {more : Bytes} {values : Parts parts}
    (hwhole : (read parts).run (c.extend more) = .ok values d) (hend : d.unread = []) (hmore : more ≠ []) :
    ∃ e d', (read parts).run c = .error e d' := by
  cases hcut : (read parts).run c with
  | error e d' => exact ⟨e, d', rfl⟩
  | ok values' d' =>
    exfalso
    rcases hshape with hd | ⟨count, rfl⟩
    · -- what was read from the part is read from the whole, with bytes left over
      have hextend := extends_read hd hcut more
      cases hwhole.symm.trans hextend
      exact hmore (List.append_eq_nil_iff.mp hend).2
    · -- the count fixes how many bytes there are
      obtain ⟨e, hpart, hrest⟩ := ok_of_read_cons hwhole
      obtain ⟨e', hpart', -⟩ := ok_of_read_cons hcut
      cases hrest
      have hlen := Part.length_of_readForgets hpart
      have hlen' := Part.length_of_readForgets hpart'
      rw [Cursor.extend_unread, List.length_append] at hlen
      have hpos := List.length_pos_iff.mpr hmore
      omega

end Parts

namespace Format

variable {format : Format} {header header' : Header} {c d : Cursor} {more : Bytes} {operation : Operation}

/-- Arguments that are read to the end are not read when bytes are missing there. -/
theorem read_cut (hreg : format.Regular)
    (hwhole : (format.read header).run (c.extend more) = .ok operation d) (hend : d.unread = [])
    (hmore : more ≠ []) :
    ∃ e d', (format.read header').run c = .error e d' ∧ format.CutFault e.fault := by
  by_cases hsize : Record.size format.Fixed ≤ c.unread.length
  case neg =>
    have hlt := Nat.lt_of_not_le hsize
    obtain ⟨-, -, hfault⟩ := Record.lawful_read.error (Record.read_of_lt hlt)
    exact ⟨_, _, read_of_lt hlt, .inl hfault⟩
  obtain ⟨-, hobj, hread⟩ := ok_of_read hwhole
  have hfixed : (Record.ofBytes (c.extend more).unread : format.Fixed) = Record.ofBytes c.unread :=
    Record.ofBytes_append hsize more
  rw [hfixed] at hobj hread
  obtain ⟨parts, hparts, -⟩ := hread
  rw [Cursor.extend_advance hsize] at hparts
  obtain ⟨e, d', hcut⟩ := Parts.read_cut (hreg.tail_shape _) hparts hend hmore
  refine ⟨e, d', read_of_parts_error hsize hobj hcut, ?_⟩
  obtain ⟨-, -, part, hmem, hmeets⟩ := (Parts.lawful_read _).error hcut
  cases part with
  | name limit => exact .inr (.inl hmeets)
  | data size => exact .inl hmeets
  | forgets count => exact .inr (.inr ⟨hmeets, _, _, hmem, Bool.false_ne_true⟩)

end Format

end Argument

namespace Request

open Argument

variable {minor : Minor} {buffer : Bytes} {request : Request}

/-- Arguments of a format that are decoded are not decoded when bytes are missing at their end. -/
theorem decodeArguments_cut {format : Format} (hreg : format.Regular) {header header' : Header}
    {arguments more : Bytes} {operation : Operation}
    (hwhole : decodeArguments format header (arguments ++ more) = .ok operation) (hmore : more ≠ []) :
    ∃ e, decodeArguments format header' arguments = .error e ∧ format.CutFault e.fault := by
  obtain ⟨d, hread, hend⟩ := decodeArguments_eq_ok.mp hwhole
  replace hread :
      (format.read header).run ((argumentCursor arguments).extend more) = .ok operation d := hread
  obtain ⟨e, d', hcut, hfault⟩ := Format.read_cut hreg hread hend hmore
  exact ⟨e, decodeArguments_of_read_error hcut, hfault⟩

/-- Two decoded arguments of a format, one of which starts the other, are the same. -/
theorem decodeArguments_prefix {format : Format} (hreg : format.Regular) {header header' : Header}
    {arguments arguments' : Bytes} {operation operation' : Operation}
    (h : decodeArguments format header arguments = .ok operation)
    (h' : decodeArguments format header' arguments' = .ok operation') (hstarts : arguments <+: arguments') :
    arguments = arguments' := by
  obtain ⟨more, rfl⟩ := hstarts
  by_cases hmore : more = []
  · rw [hmore, List.append_nil]
  · obtain ⟨e, he, -⟩ : ∃ e, decodeArguments format header arguments = .error e ∧ _ :=
      decodeArguments_cut hreg h' hmore
    cases h.symm.trans he

/-- Only forget records are refused for a wrong count, so a cut of other arguments is short or an
unterminated name. -/
theorem cutFault_of_opcode {op : Opcode} {format : Format} (h : op.format? = some format) {fault : Fault}
    (hfault : format.CutFault fault) :
    fault.kind = .truncated ∨ fault.kind = .invalidString ∨
      op = .batchForget ∧ fault.kind = .malformedArgument := by
  rcases hfault with ⟨hkind, -⟩ | ⟨hkind, -⟩ | ⟨⟨hkind, -⟩, fixed, part, hmem, hpart⟩
  · exact .inl hkind
  · exact .inr (.inl hkind)
  · refine .inr (.inr ⟨?_, hkind⟩)
    by_contra hop
    exact hpart (Opcode.isDelimited_tail h hop fixed part hmem)

/-- With its length left as it was, a cut buffer is refused for its length. -/
theorem decode_take (h : decode minor buffer = .ok request) {n : Nat} (hn : n < buffer.length) :
    ∃ e, decode minor (buffer.take n) = .error e ∧
      e.kind = if n < 40 then .truncated else .lengthMismatch := by
  have htake : (buffer.take n).length = n := by
    rw [List.length_take]
    omega
  by_cases hheader : n < 40
  · refine ⟨_, decode_of_lt (by rw [htake]; exact hheader), ?_⟩
    rw [if_pos hheader]
    rfl
  · obtain ⟨-, hlen, -⟩ := ok_of_decode h
    have hpeek : Header.peek (buffer.take n) = Header.peek buffer :=
      Header.peek_take (Nat.le_of_not_lt hheader) (Nat.le_of_lt hn)
    have hne : (Header.peek (buffer.take n)).len.toNat ≠ (buffer.take n).length := by
      rw [hpeek, htake]
      omega
    refine ⟨_, decode_of_ne (by rw [htake]; exact Nat.le_of_not_lt hheader) hne, ?_⟩
    rw [if_neg hheader]
    exact (ofKind_lengthFault _ _).1

/-- With its length rewritten, a cut buffer is refused for what is missing in its arguments. -/
theorem decode_declare_take (h : decode minor buffer = .ok request) {n : Nat} (hn : n < buffer.length)
    (hword : 4 ≤ n) :
    ∃ e, decode minor (Header.declare (UInt32.ofNat n) (buffer.take n)) = .error e ∧
      (n < 40 → e.kind = .truncated) ∧
      (40 ≤ n → e.kind = .truncated ∨ e.kind = .invalidString ∨
        request.header.opcode = Opcode.batchForget.code ∧ e.kind = .malformedArgument) := by
  have htake : (buffer.take n).length = n := by
    rw [List.length_take]
    omega
  have hlength : (Header.declare (UInt32.ofNat n) (buffer.take n)).length = n := by
    rw [Header.length_declare, htake]
  by_cases hheader : n < 40
  · refine ⟨_, decode_of_lt (by rw [hlength]; exact hheader), fun _ => rfl, fun hle => ?_⟩
    omega
  · have hsize : Header.size ≤ n := Nat.le_of_not_lt hheader
    obtain ⟨-, hlen, hrequest, op, format, hop, hopformat, hformat, hargs⟩ := ok_of_decode h
    have hpeek : Header.peek (Header.declare (UInt32.ofNat n) (buffer.take n)) =
        { Header.peek buffer with len := UInt32.ofNat n } := by
      rw [Header.peek_declare (by rw [htake]; exact hword), Header.peek_take hsize (Nat.le_of_lt hn)]
    have hdeclared : (UInt32.ofNat n).toNat = n := by
      have hbound := (Header.peek buffer).len.toNat_lt_size
      exact UInt32.toNat_ofNat_of_lt' (by omega)
    have hregion : buffer.drop Header.size =
        (Header.declare (UInt32.ofNat n) (buffer.take n)).drop Header.size ++ buffer.drop n := by
      rw [Header.drop_declare, ← List.drop_append_of_le_length (by rw [htake]; exact hsize),
        List.take_append_drop]
    have hmore : buffer.drop n ≠ [] := by
      rw [ne_eq, List.drop_eq_nil_iff]
      omega
    rw [hregion] at hargs
    obtain ⟨e, he, hfault⟩ := decodeArguments_cut (Opcode.regular_format hopformat) hargs hmore
    have hdecode := decode_of_format_ok (by rw [hlength]; exact hsize)
      (by rw [hpeek, hlength]; exact hdeclared) (by rw [hpeek]; exact hformat)
    refine ⟨_, hdecode.trans (by rw [he]), fun hlt => absurd hlt hheader, fun _ => ?_⟩
    rcases cutFault_of_opcode hopformat hfault with hkind | hkind | ⟨rfl, hkind⟩
    · exact .inl hkind
    · exact .inr (.inl hkind)
    · rw [hrequest]
      exact .inr (.inr ⟨(Opcode.ofCode?_eq_some_iff.mp hop).symm, hkind⟩)

/-- The arguments of two decoded requests with one opcode do not start one another. -/
theorem eq_of_arguments_prefix {minor' : Minor} {buffer' : Bytes} {request' : Request}
    (h : decode minor buffer = .ok request) (h' : decode minor' buffer' = .ok request')
    (hopcode : request.header.opcode = request'.header.opcode)
    (hstarts : buffer.drop Header.size <+: buffer'.drop Header.size) :
    buffer.drop Header.size = buffer'.drop Header.size := by
  obtain ⟨-, -, hheader, op, format, hop, hformat, -, hargs⟩ := ok_of_decode h
  obtain ⟨-, -, hheader', op', format', hop', hformat', -, hargs'⟩ := ok_of_decode h'
  rw [hheader, hheader'] at hopcode
  obtain rfl : op = op' := Option.some.inj (hop.symm.trans ((congrArg _ hopcode).trans hop'))
  obtain rfl : format = format' := Option.some.inj (hformat.symm.trans hformat')
  exact decodeArguments_prefix (Opcode.regular_format hformat) hargs hargs' hstarts

/-- No request that is decoded is still decoded once its end is cut off, whether its declared length is
left as it was or rewritten; and no arguments of an opcode start other arguments of it. -/
theorem decode_cut {minor : Minor} {buffer : Bytes} {request : Request}
    (h : decode minor buffer = .ok request) :
    (∀ n < buffer.length, ∃ e, decode minor (buffer.take n) = .error e ∧
      e.kind = if n < 40 then .truncated else .lengthMismatch) ∧
    (∀ n < buffer.length, 4 ≤ n →
      ∃ e, decode minor (Header.declare (UInt32.ofNat n) (buffer.take n)) = .error e ∧
        (n < 40 → e.kind = .truncated) ∧
        (40 ≤ n → e.kind = .truncated ∨ e.kind = .invalidString ∨
          request.header.opcode = Opcode.batchForget.code ∧ e.kind = .malformedArgument)) ∧
    (∀ minor' buffer' request', decode minor' buffer' = .ok request' →
      request.header.opcode = request'.header.opcode → buffer.drop 40 <+: buffer'.drop 40 →
        buffer.drop 40 = buffer'.drop 40) := by
  refine ⟨fun n hn => decode_take h hn, fun n hn hword => decode_declare_take h hn hword, ?_⟩
  intro minor' buffer' request' h' hopcode hstarts
  exact eq_of_arguments_prefix h h' hopcode hstarts

/-- A request that drops one reference: a count of one and one record. -/
def oneForget : Bytes :=
  littleEndian 4 64 ++ littleEndian 4 42 ++ List.replicate 32 0 ++
    (littleEndian 8 1 ++ littleEndian 8 7 ++ littleEndian 8 3)

/-- Cut off before its record, it is a wrong count and not the request to drop nothing. -/
theorem decode_cut_oneForget :
    (∃ request, decode .newest oneForget = .ok request ∧
      request.operation = .batchForget [{ nodeid := 7, nlookup := 3 }]) ∧
    ∃ e, decode .newest (Header.declare 48 (oneForget.take 48)) = .error e ∧
      (e.kind = .truncated ∨ e.kind = .invalidString ∨
        (42 : UInt32) = Opcode.batchForget.code ∧ e.kind = .malformedArgument) := by
  obtain ⟨request, h, hoperation, hopcode⟩ : ∃ request, decode .newest oneForget = .ok request ∧
      request.operation = .batchForget [{ nodeid := 7, nlookup := 3 }] ∧ request.header.opcode = 42 :=
    ⟨_, rfl, rfl, rfl⟩
  obtain ⟨e, he, -, hkind⟩ := (decode_cut h).2.1 48 (by decide) (by decide)
  rw [hopcode] at hkind
  exact ⟨⟨request, h, hoperation⟩, e, he, hkind (by decide)⟩

end Request

end FuseAbi
