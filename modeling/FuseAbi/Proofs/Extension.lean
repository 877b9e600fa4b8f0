import FuseAbi.Proofs.Ask
import FuseAbi.Proofs.Classification
import FuseAbi.Proofs.Truncation

/-!
# Requests that are made longer

Bytes behind a request that is decoded are never taken for a part of it. Where the declared length is left as it
was, it gives them away. Where it is rewritten to cover them, the arguments are read as before, for they say by
themselves where they end, and what comes behind them is reported as left over, to the byte
(`decodeArguments_append`). Forget records do not say where they end; they fill the region, and are refused
behind their count because they no longer do (`decodeArguments_append_forgets`).

With `Request.decode_cut` this leaves one length for a request, given where it starts: under the same opcode
neither fewer bytes nor more are decoded.
-/

namespace FuseAbi

/-- A cursor that was moved to the end of its region was moved by all of it. -/
theorem Cursor.Reaches.offset_eq {c d : Cursor} (h : c.Reaches d) (hend : d.unread = []) :
    d.offset = c.offset + UInt64.ofNat c.unread.length := by
  obtain ⟨n, hn, rfl⟩ := h
  have hle : c.unread.length ≤ n := List.drop_eq_nil_iff.mp hend
  rw [advance_offset, Nat.le_antisymm hn hle]

namespace Argument

/-- Forget records that fill a region are refused where more bytes follow it, and their start is blamed. -/
theorem Parts.read_extend_forgets {parts : List Part} (hshape : ∃ count, parts = [.forgets count])
    {values : Parts parts} {c d : Cursor} (h : (read parts).run c = .ok values d) {more : Bytes}
    (hmore : more ≠ []) :
    ∃ fault : Fault, fault.OfKind .malformedArgument ∧
      (read parts).run (c.extend more) = .error { fault, offset := c.offset } (c.extend more) := by
  obtain ⟨count, rfl⟩ := hshape
  obtain ⟨e, hpart, -⟩ := ok_of_read_cons h
  have hfill := Part.length_of_readForgets hpart
  have hne : (c.extend more).unread.length ≠ count.toNat * Record.size Forget := by
    have hpos := List.length_pos_iff.mpr hmore
    rw [Cursor.extend_unread, List.length_append, hfill]
    omega
  exact ⟨_, Part.ofKind_forgetsFault _ _, Scan.run_bind_of_error (Part.readForgets_of_ne hne)⟩

/-- The same of arguments that are forget records behind a record. -/
theorem Format.read_extend_forgets {format : Format}
    (hshape : ∀ fixed, ∃ count, format.tail fixed = [.forgets count])
    {header : Header} {operation : Operation} {c d : Cursor} (h : (format.read header).run c = .ok operation d)
    {more : Bytes} (hmore : more ≠ []) (header' : Header) :
    ∃ fault : Fault, fault.OfKind .malformedArgument ∧
      (format.read header').run (c.extend more) =
        .error { fault, offset := c.offset + UInt64.ofNat (Record.size format.Fixed) }
          ((c.advance (Record.size format.Fixed)).extend more) := by
  obtain ⟨hsize, hobj, parts, hparts, -⟩ := ok_of_read h
  obtain ⟨fault, hkind, hrefuse⟩ := Parts.read_extend_forgets (hshape _) hparts hmore
  refine ⟨fault, hkind, ?_⟩
  rw [read_extend hsize hobj]
  exact Scan.run_bind_of_error hrefuse

end Argument

namespace Request

open Argument

/-! ## Arguments -/

section Arguments

variable {format : Format} {header : Header} {arguments more : Bytes} {operation : Operation}

/-- Arguments that are decoded behind a header are decoded behind any other. -/
theorem decodeArguments_of_header (h : decodeArguments format header arguments = .ok operation)
    (header' : Header) : ∃ operation', decodeArguments format header' arguments = .ok operation' := by
  rw [decodeArguments_eq_ask] at h ⊢
  cases hask : askArguments format arguments with
  | error e =>
    rw [hask] at h
    cases h
  | ok asked => exact ⟨asked header', rfl⟩

/-- Behind arguments that say where they end, all that follows is left over. -/
theorem decodeArguments_append (hreg : format.Regular)
    (hdelimited : ∀ fixed, ∀ part ∈ format.tail fixed, part.isDelimited)
    (h : decodeArguments format header arguments = .ok operation) (hmore : more ≠ []) (header' : Header) :
    decodeArguments format header' (arguments ++ more) =
      .error { fault := .unread more.length, offset := UInt64.ofNat (Header.size + arguments.length) } := by
  obtain ⟨operation', h'⟩ := decodeArguments_of_header h header'
  obtain ⟨d, hread, hend⟩ := decodeArguments_eq_ok.mp h'
  have hoffset : (d.extend more).offset = UInt64.ofNat (Header.size + arguments.length) := by
    rw [UInt64.ofNat_add]
    exact ((hreg.lawful_read header').ok hread).offset_eq hend
  have hunread : (d.extend more).unread = more := by
    rw [Cursor.extend_unread, hend, List.nil_append]
  have hextend :
      (format.read header').run (argumentCursor (arguments ++ more)) = .ok operation' (d.extend more) :=
    Format.extends_read hdelimited header' hread more
  rw [decodeArguments_of_read_left hextend (by rw [hunread]; exact hmore), hunread, hoffset]

/-- Behind forget records that fill the region, more bytes make their count wrong. -/
theorem decodeArguments_append_forgets (hshape : ∀ fixed, ∃ count, format.tail fixed = [.forgets count])
    (h : decodeArguments format header arguments = .ok operation) (hmore : more ≠ []) (header' : Header) :
    ∃ fault : Fault, fault.OfKind .malformedArgument ∧
      decodeArguments format header' (arguments ++ more) =
        .error { fault, offset := UInt64.ofNat (Header.size + Record.size format.Fixed) } := by
  obtain ⟨d, hread, -⟩ := decodeArguments_eq_ok.mp h
  obtain ⟨fault, hkind, hrefuse⟩ := Format.read_extend_forgets hshape hread hmore header'
  rw [UInt64.ofNat_add]
  exact ⟨fault, hkind, decodeArguments_of_read_error hrefuse⟩

end Arguments

/-! ## Whole requests -/

variable {minor : Minor} {buffer more : Bytes} {request : Request}

/-- With its length left as it was, a longer buffer is refused for its length. -/
theorem refused_append (h : decode minor buffer = .ok request) (hmore : more ≠ []) :
    Refused minor (buffer ++ more) .lengthMismatch 0 request.header.opcode := by
  obtain ⟨hsize, hlen, hheader, -⟩ := ok_of_decode h
  have hlong : Header.size ≤ (buffer ++ more).length := by
    rw [List.length_append]
    exact Nat.le_add_right_of_le hsize
  have hpeek : Header.peek (buffer ++ more) = request.header := by
    rw [Header.peek_append hsize, hheader]
  have hne : (wordAt (buffer ++ more) 0).toNat ≠ (buffer ++ more).length := by
    have hpos := List.length_pos_iff.mpr hmore
    rw [← Header.peek_len, hpeek, hheader, hlen, List.length_append]
    omega
  rw [← hpeek, Header.peek_opcode]
  exact refused_length hlong hne

/-- With its length rewritten, a longer buffer is refused as its arguments are. -/
theorem decode_declare_append (h : decode minor buffer = .ok request)
    (hbound : buffer.length + more.length < 2 ^ 32) {format : Format}
    (hformat : minor.format request.header.opcode = .ok format) {e : DecodeError}
    (he : decodeArguments format { request.header with len := UInt32.ofNat (buffer.length + more.length) }
      (buffer.drop Header.size ++ more) = .error e) :
    decode minor (Header.declare (UInt32.ofNat (buffer.length + more.length)) (buffer ++ more)) =
      .error { e with opcode := request.header.opcode } := by
  obtain ⟨hsize, -, hheader, -⟩ := ok_of_decode h
  have hlong : Header.size ≤ (buffer ++ more).length := by
    rw [List.length_append]
    exact Nat.le_add_right_of_le hsize
  generalize hlen : UInt32.ofNat (buffer.length + more.length) = len at he ⊢
  have hlength : (Header.declare len (buffer ++ more)).length = (buffer ++ more).length :=
    Header.length_declare len
  have hpeek : Header.peek (Header.declare len (buffer ++ more)) = { request.header with len } := by
    rw [Header.peek_declare (Nat.le_trans (by decide) hlong), Header.peek_append hsize, hheader]
  have hdeclared : len.toNat = (buffer ++ more).length := by
    rw [← hlen, List.length_append]
    exact UInt32.toNat_ofNat_of_lt' hbound
  have hdrop : (Header.declare len (buffer ++ more)).drop Header.size = buffer.drop Header.size ++ more := by
    rw [Header.drop_declare, List.drop_append_of_le_length hsize]
  rw [decode_of_format_ok (by rw [hlength]; exact hlong) (by rw [hpeek, hlength]; exact hdeclared)
    (by rw [hpeek]; exact hformat), hpeek, hdrop, he]

/-- No request that is decoded is still decoded with bytes behind it. Where its declared length is left as it
was, the length is refused. Where it is rewritten, the bytes behind it are reported as left over, from the old
end on and each of them; but behind forget records it is the records that are refused, at their start. -/
theorem decode_appended {minor : Minor} {buffer more : Bytes} {request : Request}
    (h : decode minor buffer = .ok request) (hmore : more ≠ [])
    (hbound : buffer.length + more.length < 2 ^ 32) :
    Refused minor (buffer ++ more) .lengthMismatch 0 request.header.opcode ∧
    (request.header.opcode ≠ Opcode.batchForget.code →
      ∃ e, decode minor (Header.declare (UInt32.ofNat (buffer.length + more.length)) (buffer ++ more)) =
          .error e ∧
        e.kind = .trailingData ∧ e.offset.toNat = buffer.length ∧
        e.reason = decimal more.length ++ ascii " unread argument bytes" ∧
        e.Reports request.header.opcode) ∧
    (request.header.opcode = Opcode.batchForget.code →
      Refused minor (Header.declare (UInt32.ofNat (buffer.length + more.length)) (buffer ++ more))
        .malformedArgument 48 request.header.opcode) := by
  obtain ⟨hsize, -, hheader, op, format, hop, hopformat, hformat, hargs⟩ := ok_of_decode h
  rw [← hheader] at hop hformat
  refine ⟨refused_append h hmore, fun hopcode => ?_, fun hopcode => ?_⟩
  · have hdelimited := Opcode.isDelimited_tail hopformat (by
      rintro rfl
      exact hopcode (Opcode.ofCode?_eq_some_iff.mp hop).symm)
    have hleft := decodeArguments_append (Opcode.regular_format hopformat) hdelimited hargs hmore
      { request.header with len := UInt32.ofNat (buffer.length + more.length) }
    have hend : (UInt64.ofNat (Header.size + (buffer.drop Header.size).length)).toNat = buffer.length := by
      rw [List.length_drop, Nat.add_sub_cancel' hsize]
      exact UInt64.toNat_ofNat_of_lt' (show buffer.length < 2 ^ 64 by omega)
    have hdecode := decode_declare_append h hbound hformat hleft
    exact ⟨_, hdecode, rfl, hend, rfl, DecodeError.reports_of_native trivial⟩
  · rw [hopcode, Opcode.ofCode?_code] at hop
    cases hop
    cases hopformat
    obtain ⟨fault, ⟨hkind, hnative⟩, hrefuse⟩ :=
      decodeArguments_append_forgets (fun fixed => ⟨_, rfl⟩) hargs hmore
        { request.header with len := UInt32.ofNat (buffer.length + more.length) }
    exact ⟨_, decode_declare_append h hbound hformat hrefuse, hkind, rfl, DecodeError.reports_of_native hnative⟩

/-- A request to look up the name `a`. -/
def lookupOfName : Bytes :=
  littleEndian 4 42 ++ littleEndian 4 1 ++ littleEndian 8 6 ++ littleEndian 8 1 ++ List.replicate 16 0 ++
    [97, 0]

/-- Zero bytes behind the terminator of a name are not taken for a part of it, nor a second record for a part of
forget records that count one. -/
theorem decode_appended_zerosAndRecord :
    (∃ request, decode .newest lookupOfName = .ok request) ∧
    (∃ e, decode .newest (Header.declare 44 (lookupOfName ++ [0, 0])) = .error e ∧
      e.kind = .trailingData ∧ e.offset.toNat = 42 ∧ e.reason = ascii "2 unread argument bytes") ∧
    (∃ request, decode .newest oneForget = .ok request) ∧
    Refused .newest (Header.declare 80 (oneForget ++ List.replicate 16 0)) .malformedArgument 48 42 := by
  obtain ⟨request, h, hopcode⟩ : ∃ request, decode .newest lookupOfName = .ok request ∧
      request.header.opcode = 1 := ⟨_, rfl, rfl⟩
  obtain ⟨request', h', hopcode'⟩ : ∃ request, decode .newest oneForget = .ok request ∧
      request.header.opcode = 42 := ⟨_, rfl, rfl⟩
  obtain ⟨-, hleft, -⟩ := decode_appended h (show [0, 0] ≠ [] by decide) (by decide)
  obtain ⟨e, he, hkind, hoffset, hreason, -⟩ := hleft (by rw [hopcode]; decide)
  obtain ⟨-, -, hforgets⟩ := decode_appended h' (show List.replicate 16 0 ≠ [] by decide) (by decide)
  refine ⟨⟨request, h⟩, ⟨e, he, hkind, hoffset, hreason⟩, ⟨request', h'⟩, ?_⟩
  rw [← hopcode']
  exact hforgets hopcode'

end Request

end FuseAbi
