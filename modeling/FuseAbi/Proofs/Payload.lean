import FuseAbi.Proofs.Classification
import FuseAbi.Proofs.Discarded
import FuseAbi.Proofs.Terminator

/-!
# Counted data

Three opcodes end in data whose size the request declares: a write, an answer to a demand, and the value of an
extended attribute. The declared size has nothing to do with the real one, so what comes of such a request is said
by comparing the two. `DataFrom` is where the data starts, by the bytes alone and without the declared size;
where it starts somewhere, the read comes down to one counted read there (`read_of_dataFrom`), and counted reads
that have to use up the arguments have three outcomes (`decode_of_lt_data`, `decode_of_gt_data`,
`decode_of_eq_data`).

Where it starts nowhere, the request is refused in front of it, and its size is not looked at
(`read_of_noData`): this is said of all requests that differ in their declared sizes only.
-/

namespace FuseAbi

/-- The counted data that an operation carries. -/
def Operation.payload? : Operation → Option Bytes
  | .write _ _ _ _ data => some data
  | .notifyReply _ _ _ data => some data
  | .setxattr _ _ value _ => some value
  | _ => none

/-- The cursor at a place of a whole request, with all bytes from there on ahead of it. -/
def cursorAt (buffer : Bytes) (place : Nat) : Cursor where
  offset := UInt64.ofNat place
  unread := buffer.drop place

theorem advance_cursorAt (buffer : Bytes) (place n : Nat) :
    (cursorAt buffer place).advance n = cursorAt buffer (place + n) := by
  simp only [cursorAt, Cursor.advance, List.drop_drop, UInt64.ofNat_add]

theorem length_cursorAt (buffer : Bytes) (place : Nat) :
    (cursorAt buffer place).unread.length = buffer.length - place :=
  List.length_drop

namespace Kernel

/-- The opcodes whose requests end in counted data. -/
def counted : List Opcode :=
  [.write, .notifyReply, .setxattr]

/-- Where a request declares the size of its data. -/
def sizePlace : Opcode → Nat
  | .setxattr => 40
  | _ => 56

/-- Where the struct in front of the arguments ends. -/
def structEnd : Opcode → Nat
  | .setxattr => 48
  | _ => 80

def declaredSize (op : Opcode) (buffer : Bytes) : Nat :=
  (wordAt buffer (sizePlace op)).toNat

/-- A place of the word that declares the size. -/
def InSize (op : Opcode) (place : Nat) : Prop :=
  sizePlace op ≤ place ∧ place < sizePlace op + 4

instance (op : Opcode) : DecidablePred (InSize op) := fun _ =>
  inferInstanceAs (Decidable (_ ∧ _))

/-- Where the data of a request starts: behind a whole struct, and for the value of an extended attribute behind
the terminator of a name of at most 255 bytes too. -/
inductive DataFrom (buffer : Bytes) : Opcode → Nat → Prop
  | write (h : 80 ≤ buffer.length) : DataFrom buffer .write 80
  | notifyReply (h : 80 ≤ buffer.length) : DataFrom buffer .notifyReply 80
  | setxattr {n : Nat} (hname : FirstZeroAt (buffer.drop 48) n) (hlimit : n ≤ 255) :
    DataFrom buffer .setxattr (48 + (n + 1))

theorem DataFrom.bounds {buffer : Bytes} {op : Opcode} {place : Nat} (h : DataFrom buffer op place) :
    structEnd op ≤ place ∧ place ≤ buffer.length := by
  cases h with
  | write h => exact ⟨le_rfl, h⟩
  | notifyReply h => exact ⟨le_rfl, h⟩
  | @setxattr n hname hlimit =>
    obtain ⟨hlt, -⟩ := List.getElem?_eq_some_iff.mp hname.1
    rw [List.length_drop] at hlt
    exact ⟨Nat.le_add_right _ _, by omega⟩

end Kernel

namespace Argument

/-! ## Reading parts up to the data -/

namespace Parts

variable {α : Type} {part : Part} {rest : List Part} {c d : Cursor}

/-- The value of a first part in front of those of the others. -/
def cons (part : Part) (value : part.Value) (values : Parts rest) : Parts (part :: rest) :=
  (value, values)

theorem read_cons : read (part :: rest) = part.read >>= fun value => cons part value <$> read rest := by
  simp only [← bind_pure_comp]
  rfl

/-- Behind a part that was read, the others are read. -/
theorem run_map_read_cons {value : part.Value} (f : Parts (part :: rest) → α)
    (h : part.read.run c = .ok value d) :
    (f <$> read (part :: rest)).run c = ((fun values => f (cons part value values)) <$> read rest).run d := by
  rw [read_cons, map_bind, Scan.run_bind_of_ok h, Functor.map_map]

/-- Data on its own is read by one counted read. -/
theorem run_map_read_data (size : UInt32) (f : Parts [.data size] → α) (c : Cursor) :
    (f <$> read [.data size]).run c =
      ((fun data : Bytes => f (cons (.data size) data ())) <$> Scan.take size.toNat).run c := by
  rw [read_cons, map_bind, ← bind_pure_comp]
  rfl

end Parts

/-! ## Records by the places of their words -/

/-- The record of a write. -/
def writeArgs (buffer : Bytes) : WriteArgs where
  fh := longAt buffer 40
  offset := longAt buffer 48
  size := wordAt buffer 56
  writeFlags := wordAt buffer 60
  lockOwner := longAt buffer 64
  flags := wordAt buffer 72

/-- The record of an answer to a demand. -/
def notifyReplyArgs (buffer : Bytes) : NotifyReplyArgs where
  offset := longAt buffer 48
  size := wordAt buffer 56

/-- The record of an extended attribute. -/
def setxattrArgs (buffer : Bytes) : SetxattrArgs where
  size := wordAt buffer 40
  flags := wordAt buffer 44

theorem ofBytes_eq_writeArgs (buffer : Bytes) :
    (Record.ofBytes (buffer.drop 40) : WriteArgs) = writeArgs buffer := by
  simp only [Record.ofBytes, Record.layout, Values.ofBytes_drop_u32, Values.ofBytes_drop_u64]
  rfl

theorem ofBytes_eq_notifyReplyArgs (buffer : Bytes) :
    (Record.ofBytes (buffer.drop 40) : NotifyReplyArgs) = notifyReplyArgs buffer := by
  simp only [Record.ofBytes, Record.layout, Values.ofBytes_drop_u32, Values.ofBytes_drop_u64,
    Values.ofBytes_drop_pad]
  rfl

theorem ofBytes_eq_setxattrArgs (buffer : Bytes) :
    (Record.ofBytes (buffer.drop 40) : SetxattrArgs) = setxattrArgs buffer := by
  simp only [Record.ofBytes, Record.layout, Values.ofBytes_drop_u32]
  rfl

end Argument

namespace Request

open Argument Kernel

variable {minor : Minor} {buffer : Bytes} {op : Opcode} {format : Format} {header : Header} {place size : Nat}

/-- Where data starts, the read comes down to taking as many bytes as declared. -/
theorem read_of_dataFrom (hformat : op.format? = some format) (h : DataFrom buffer op place) :
    ∃ f : Bytes → Operation, (∀ data, (f data).opcode = op ∧ (f data).payload? = some data) ∧
      (format.read header).run (cursorAt buffer 40) =
        (f <$> Scan.take (declaredSize op buffer)).run (cursorAt buffer place) := by
  have hroom : structEnd op - 40 ≤ (cursorAt buffer 40).unread.length := by
    rw [length_cursorAt]
    have hbounds := h.bounds
    omega
  cases h with
  | write h =>
    cases hformat
    have hread := Format.read_of_noObjection Argument.write header hroom
      (ofBytes_eq_writeArgs buffer) rfl
    have hdata := Parts.run_map_read_data (wordAt buffer 56)
      (Argument.write.toOperation header (writeArgs buffer)) (cursorAt buffer 80)
    rw [advance_cursorAt] at hread
    exact ⟨_, fun data => ⟨rfl, rfl⟩, hread.trans hdata⟩
  | notifyReply h =>
    cases hformat
    have hread := Format.read_of_noObjection Argument.notifyReply header hroom
      (ofBytes_eq_notifyReplyArgs buffer) rfl
    have hdata := Parts.run_map_read_data (wordAt buffer 56)
      (Argument.notifyReply.toOperation header (notifyReplyArgs buffer)) (cursorAt buffer 80)
    rw [advance_cursorAt] at hread
    exact ⟨_, fun data => ⟨rfl, rfl⟩, hread.trans hdata⟩
  | @setxattr n hname hlimit =>
    cases hformat
    have hread := Format.read_of_noObjection Argument.setxattr header hroom
      (ofBytes_eq_setxattrArgs buffer) rfl
    have hwindow : n < (xattrNameLimit + 1).toNat := Nat.lt_succ_of_le hlimit
    have hcstring : (Part.name xattrNameLimit).read.run (cursorAt buffer 48) =
        .ok ((buffer.drop 48).take n) ((cursorAt buffer 48).advance (n + 1)) :=
      Scan.cstring_of_firstZero (c := cursorAt buffer 48) hname hwindow
    rw [advance_cursorAt] at hread hcstring
    have hbehind := Parts.run_map_read_cons (Argument.setxattr.toOperation header (setxattrArgs buffer)) hcstring
    have hdata := hbehind.trans (Parts.run_map_read_data (wordAt buffer 40) _ _)
    exact ⟨_, fun data => ⟨rfl, rfl⟩, hread.trans hdata⟩

/-! ## Three outcomes -/

/-- A request that is sealed: the opcode in its header is the given one, and it is as long as it declares. -/
structure Sealed (op : Opcode) (buffer : Bytes) : Prop where
  le_length : 40 ≤ buffer.length
  length_eq : (wordAt buffer 0).toNat = buffer.length
  opcode_eq : wordAt buffer 4 = op.code

/-- The formats of counted data are spoken at every minor. -/
theorem Sealed.format_eq (h : Sealed op buffer) (hop : op ∈ counted) (hformat : op.format? = some format) :
    minor.format (Header.peek buffer).opcode = .ok format := by
  have hminor : op.sinceMinor ≤ minor.number := by
    simp only [counted, List.mem_cons, List.not_mem_nil, or_false] at hop
    rcases hop with rfl | rfl | rfl <;> exact minor.oldest_le
  have hcode : Opcode.ofCode? (Header.peek buffer).opcode = some op :=
    Opcode.ofCode?_eq_some_iff.mpr h.opcode_eq.symm
  exact Minor.format_eq_ok_iff.mpr ⟨op, hcode, hformat, hminor⟩

/-- Arguments that are refused are refused under the opcode. -/
theorem Sealed.decode_error (h : Sealed op buffer) (hop : op ∈ counted) (hformat : op.format? = some format)
    {e : DecodeError} (he : decodeArguments format (Header.peek buffer) (buffer.drop Header.size) = .error e) :
    decode minor buffer = .error { e with opcode := op.code } := by
  rw [decode_of_format_ok h.le_length h.length_eq (h.format_eq hop hformat), he, ← h.opcode_eq]
  rfl

/-- Places in a sealed request are numbers as they are. -/
theorem Sealed.toNat_place (h : Sealed op buffer) (hplace : place ≤ buffer.length) :
    (UInt64.ofNat place).toNat = place := by
  have hword := (wordAt buffer 0).toNat_lt
  have hlen := h.length_eq
  exact UInt64.toNat_ofNat_of_lt' (show place < 2 ^ 64 by omega)

/-- With enough bytes the data is read, and the cursor is left behind it. -/
theorem read_of_le_data {f : Bytes → Operation} (h : place + size ≤ buffer.length)
    (hread : (format.read header).run (cursorAt buffer 40) =
      (f <$> Scan.take size).run (cursorAt buffer place)) :
    (format.read header).run (argumentCursor (buffer.drop Header.size)) =
      .ok (f ((buffer.drop place).take size)) (cursorAt buffer (place + size)) := by
  have hroom : size ≤ (cursorAt buffer place).unread.length := by
    rw [length_cursorAt]
    omega
  rw [← advance_cursorAt]
  exact hread.trans (Scan.run_map_of_ok (Scan.take_of_le hroom))

section

variable {f : Bytes → Operation} (hsealed : Sealed op buffer) (hop : op ∈ counted)
  (hformat : op.format? = some format)
  (hread : (format.read (Header.peek buffer)).run (cursorAt buffer 40) =
    (f <$> Scan.take size).run (cursorAt buffer place))

include hsealed hop hformat hread

/-- Too few bytes for the data are refused where it starts. -/
theorem decode_of_lt_data (hplace : place ≤ buffer.length) (h : buffer.length < place + size) :
    Refused minor buffer .truncated place op.code := by
  have hshort : (cursorAt buffer place).unread.length < size := by
    rw [length_cursorAt]
    omega
  have herror := hread.trans (Scan.run_map_of_error (Scan.take_of_lt hshort))
  refine ⟨_, hsealed.decode_error hop hformat (decodeArguments_of_read_error herror), rfl,
    hsealed.toNat_place hplace, ?_⟩
  exact DecodeError.reports_of_native trivial

/-- Bytes behind the data are refused where the data ends. -/
theorem decode_of_gt_data (h : place + size < buffer.length) :
    Refused minor buffer .trailingData (place + size) op.code := by
  have hok := read_of_le_data h.le hread
  have hleft : (cursorAt buffer (place + size)).unread ≠ [] := by
    rw [← List.length_pos_iff, length_cursorAt]
    omega
  refine ⟨_, hsealed.decode_error hop hformat (decodeArguments_of_read_left hok hleft), rfl,
    hsealed.toNat_place h.le, ?_⟩
  exact DecodeError.reports_of_native trivial

/-- Data that fills the request is the rest of it. -/
theorem decode_of_eq_data (h : place + size = buffer.length) :
    decode minor buffer = .ok { header := Header.peek buffer, operation := f (buffer.drop place) } := by
  have hok := read_of_le_data h.le hread
  have hend : (cursorAt buffer (place + size)).unread = [] := List.drop_eq_nil_of_le h.ge
  have hdata : (buffer.drop place).take size = buffer.drop place := by
    apply List.take_of_length_le
    rw [List.length_drop]
    omega
  rw [hdata] at hok
  rw [decode_of_format_ok hsealed.le_length hsealed.length_eq (hsealed.format_eq hop hformat),
    decodeArguments_of_read_end hok hend]

end

/-! ## Requests without data -/

/-- What a request without data is refused for: for want of bytes in its struct, or for the name behind that. -/
def noDataError (op : Opcode) (format : Format) (buffer : Bytes) : DecodeError :=
  if buffer.length < structEnd op then
    let left := buffer.length - 40
    let stop := layoutStop (Record.layout format.Fixed) left
    { fault := .short stop.2 (left - stop.1), offset := UInt64.ofNat 40 + UInt64.ofNat stop.1 }
  else
    { fault := if (buffer.drop (structEnd op)).length ≤ 256 then .unterminated else .overlong xattrNameLimit,
      offset := UInt64.ofNat (structEnd op) }

theorem kind_noDataError (op : Opcode) (format : Format) (buffer : Bytes) :
    (noDataError op format buffer).kind =
      if buffer.length < structEnd op then .truncated else .invalidString := by
  unfold noDataError
  split
  · rfl
  · dsimp only [DecodeError.kind]
    split <;> rfl

/-- A request that ends inside its struct is refused there. -/
theorem read_of_shortStruct (hop : op ∈ counted) (hformat : op.format? = some format)
    (h : buffer.length < structEnd op) :
    ∃ d, (format.read header).run (cursorAt buffer 40) = .error (noDataError op format buffer) d := by
  have hsize : 40 + Record.size format.Fixed = structEnd op := by
    simp only [counted, List.mem_cons, List.not_mem_nil, or_false] at hop
    rcases hop with rfl | rfl | rfl <;> cases hformat <;> rfl
  have hstruct : 48 ≤ structEnd op := by cases op <;> decide
  have hlength := length_cursorAt buffer 40
  have hlack : (cursorAt buffer 40).unread.length < Record.size format.Fixed := by
    omega
  have hread : (format.read header).run (cursorAt buffer 40) = .error _ _ := Format.read_of_lt hlack
  rw [hlength] at hread
  rw [noDataError, if_pos h]
  exact ⟨_, hread⟩

/-- The value of an extended attribute is refused for a name that does not end in time. -/
theorem read_of_badName (h : 48 ≤ buffer.length) (hname : ¬∃ n ≤ 255, FirstZeroAt (buffer.drop 48) n) :
    ∃ d, (Argument.setxattr.read header).run (cursorAt buffer 40) =
      .error (noDataError .setxattr Argument.setxattr buffer) d := by
  have hroom : 8 ≤ (cursorAt buffer 40).unread.length := by
    rw [length_cursorAt]
    omega
  have hread := Format.read_of_noObjection Argument.setxattr header hroom
    (ofBytes_eq_setxattrArgs buffer) rfl
  have hzero : ∀ i < (xattrNameLimit + 1).toNat, (cursorAt buffer 48).unread[i]? ≠ some 0 := by
    intro i hi hbyte
    obtain ⟨n, hn, hfirst⟩ := exists_firstZeroAt ⟨i, hi, hbyte⟩
    exact hname ⟨n, Nat.le_of_lt_succ hn, hfirst⟩
  have hcstring := Scan.cstring_of_noZero hzero
  have hlong : ¬ buffer.length < structEnd .setxattr := Nat.not_lt.mpr h
  rw [advance_cursorAt] at hread
  rw [noDataError, if_neg hlong]
  exact ⟨_, hread.trans (Scan.run_map_of_error (Scan.run_bind_of_error hcstring))⟩

/-- Where data starts nowhere, the request is refused in front of it. -/
theorem read_of_noData (header : Header) (hop : op ∈ counted) (hformat : op.format? = some format)
    (h : ¬∃ place, DataFrom buffer op place) :
    ∃ d, (format.read header).run (cursorAt buffer 40) = .error (noDataError op format buffer) d := by
  by_cases hshort : buffer.length < structEnd op
  · exact read_of_shortStruct hop hformat hshort
  · rw [Nat.not_lt] at hshort
    simp only [counted, List.mem_cons, List.not_mem_nil, or_false] at hop
    rcases hop with rfl | rfl | rfl
    · exact absurd ⟨80, .write hshort⟩ h
    · exact absurd ⟨80, .notifyReply hshort⟩ h
    · cases hformat
      exact read_of_badName hshort fun ⟨n, hn, hname⟩ => h ⟨_, .setxattr hname hn⟩

/-! ## Declared sizes make no difference -/

section

variable {buffer' : Bytes} (h : AgreeOff (InSize op) buffer buffer')

include h

/-- The declared size stands inside the struct, so the bytes behind the struct are the same. -/
theorem drop_eq_of_agree : buffer.drop (structEnd op) = buffer'.drop (structEnd op) := by
  have hinside : sizePlace op + 4 ≤ structEnd op := by
    cases op <;> decide
  exact h.drop_eq fun place hplace hin => absurd hin.2 (by omega)

theorem noDataError_congr : noDataError op format buffer = noDataError op format buffer' := by
  rw [noDataError, noDataError, drop_eq_of_agree h, h.1]

theorem dataFrom_congr (hdata : DataFrom buffer' op place) : DataFrom buffer op place := by
  have hdrop := drop_eq_of_agree h
  cases hdata with
  | write hlong => exact .write (h.1 ▸ hlong)
  | notifyReply hlong => exact .notifyReply (h.1 ▸ hlong)
  | setxattr hname hlimit => exact .setxattr (hdrop ▸ hname) hlimit

/-- The declared size stands behind the header, so the words of the header are the same. -/
theorem wordAt_congr {start : Nat} (hstart : start ≤ 36) : wordAt buffer start = wordAt buffer' start := by
  have hbehind : 40 ≤ sizePlace op := by
    cases op <;> decide
  exact h.wordAt_eq fun place hplace hin => absurd hin.1 (by omega)

theorem Sealed.congr (hsealed : Sealed op buffer) : Sealed op buffer' where
  le_length := h.1 ▸ hsealed.le_length
  length_eq := by rw [← wordAt_congr h (Nat.zero_le _), hsealed.length_eq, h.1]
  opcode_eq := by rw [← wordAt_congr h (by decide), hsealed.opcode_eq]

end

/-- Counted data is taken exactly. A sealed request has its data start somewhere, or nowhere. From where
it starts, there are fewer bytes than declared, and the request is truncated there; or more, and it has bytes left
over behind as many as declared; or just as many, and then they are the data that is decoded. Where it starts
nowhere, for want of bytes in the struct or of a name that ends in time, the request is refused for that, and it
would be so with any other size declared. -/
theorem counted_data_exact (minor : Minor) (hop : op ∈ counted) (hsealed : Sealed op buffer) :
    (∀ place, DataFrom buffer op place → place ≤ buffer.length ∧
      (buffer.length < place + declaredSize op buffer → Refused minor buffer .truncated place op.code) ∧
      (place + declaredSize op buffer < buffer.length →
        Refused minor buffer .trailingData (place + declaredSize op buffer) op.code) ∧
      (place + declaredSize op buffer = buffer.length → ∃ request, decode minor buffer = .ok request ∧
        request.operation.opcode = op ∧ request.operation.payload? = some (buffer.drop place))) ∧
    ((¬∃ place, DataFrom buffer op place) → ∃ e, decode minor buffer = .error e ∧
      e.kind = (if buffer.length < structEnd op then .truncated else .invalidString) ∧
      ∀ buffer', AgreeOff (InSize op) buffer buffer' → decode minor buffer' = .error e) := by
  obtain ⟨format, hformat⟩ : ∃ format, op.format? = some format := by
    simp only [counted, List.mem_cons, List.not_mem_nil, or_false] at hop
    rcases hop with rfl | rfl | rfl <;> exact ⟨_, rfl⟩
  refine ⟨fun place hdata => ?_, fun hnone => ?_⟩
  · obtain ⟨f, hf, hread⟩ := read_of_dataFrom hformat hdata
    have hplace := hdata.bounds.2
    refine ⟨hplace, decode_of_lt_data hsealed hop hformat hread hplace,
      decode_of_gt_data hsealed hop hformat hread, fun heq => ?_⟩
    exact ⟨_, decode_of_eq_data hsealed hop hformat hread heq, hf _⟩
  · have hrefused : ∀ buffer', AgreeOff (InSize op) buffer buffer' →
        decode minor buffer' = .error { noDataError op format buffer with opcode := op.code } := by
      intro buffer' hagree
      have hnone' : ¬∃ place, DataFrom buffer' op place :=
        fun ⟨place, hdata⟩ => hnone ⟨place, dataFrom_congr hagree hdata⟩
      obtain ⟨d, hread⟩ := read_of_noData (Header.peek buffer') hop hformat hnone'
      rw [noDataError_congr hagree]
      exact (hsealed.congr hagree).decode_error hop hformat (decodeArguments_of_read_error hread)
    have hself : AgreeOff (InSize op) buffer buffer := ⟨rfl, fun _ _ _ => rfl⟩
    exact ⟨_, hrefused buffer hself, kind_noDataError op format buffer, hrefused⟩

/-- Some arguments behind a header of their length. -/
def requestOf (op : Opcode) (arguments : Bytes) : Bytes :=
  Item.encodeAll [.u32 (40 + arguments.length).toUInt32, .u32 op.code, .zeros 32] ++ arguments

/-- A request to write of which the greatest size is declared and a single byte is there. -/
def writeOfMost : Bytes :=
  requestOf .write (Item.encodeAll [.u64 9, .u64 0, .u32 0xFFFFFFFF, .zeros 20, .bytes [0]])

/-- A request to set an attribute, with the name and the value in one. -/
def setxattrOf (size : UInt32) (bytes : Bytes) : Bytes :=
  requestOf .setxattr (Item.encodeAll [.u32 size, .u32 0, .bytes bytes])

/-- Zero bytes belong to a value like any others, the greatest size reads nothing more than there is, and a name
without a terminator is refused whatever the size is. -/
theorem counted_data_exact_zeroBytes :
    (.setxattr ∈ counted ∧ Sealed .setxattr (setxattrOf 3 [97, 0, 0, 7, 0]) ∧
      ∃ request, decode .newest (setxattrOf 3 [97, 0, 0, 7, 0]) = .ok request ∧
        request.operation.payload? = some [0, 7, 0]) ∧
    (.write ∈ counted ∧ Sealed .write writeOfMost ∧ Refused .newest writeOfMost .truncated 80 16) ∧
    Sealed .setxattr (setxattrOf 0 [97]) ∧ ∃ e, decode .newest (setxattrOf 0 [97]) = .error e ∧
      e.kind = .invalidString ∧ decode .newest (setxattrOf 0xFFFFFFFF [97]) = .error e := by
  have hvalue : Sealed .setxattr (setxattrOf 3 [97, 0, 0, 7, 0]) := ⟨by decide, by decide, by decide⟩
  have hwrite : Sealed .write writeOfMost := ⟨by decide, by decide, by decide⟩
  have hbad : Sealed .setxattr (setxattrOf 0 [97]) := ⟨by decide, by decide, by decide⟩
  have hset : Opcode.setxattr ∈ counted := by decide
  obtain ⟨hdata, -⟩ := counted_data_exact .newest hset hvalue
  obtain ⟨-, -, -, hexact⟩ := hdata 50 (.setxattr (n := 1) ⟨by decide, by decide⟩ (by decide))
  obtain ⟨request, hok, -, hpayload⟩ := hexact (by decide)
  obtain ⟨hmost, -⟩ := counted_data_exact .newest (by decide) hwrite
  obtain ⟨-, hshort, -, -⟩ := hmost 80 (.write (by decide))
  obtain ⟨-, hnone⟩ := counted_data_exact .newest hset hbad
  have hnowhere : ¬∃ place, DataFrom (setxattrOf 0 [97]) .setxattr place := by
    rintro ⟨place, hplace⟩
    cases hplace with
    | setxattr hname hlimit =>
      have hzero : (0 : UInt8) ∈ (setxattrOf 0 [97]).drop 48 := List.mem_of_getElem? hname.1
      exact absurd hzero (by decide)
  obtain ⟨e, herror, hkind, hsame⟩ := hnone hnowhere
  exact ⟨⟨hset, hvalue, request, hok, hpayload.trans (by decide)⟩, ⟨by decide, hwrite, hshort (by decide)⟩, hbad,
    e, herror, hkind.trans (by decide), hsame _ (by decide)⟩

end Request

end FuseAbi
