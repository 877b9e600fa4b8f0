import FuseAbi.Proofs.Decode

/-!
# What a request asks behind any header

A header says how long a request is and in which format its arguments are; the rest of it is only handed on
into the operation. So the bytes behind a header can be read for no header in particular, which gives for every
header the operation that they ask for behind it (`Request.ask`). Decoding is this reading, applied to the
header in front (`Request.decode_eq_ask`).

Thus whether a request is decoded, and what it is refused for, is a matter of its length, its opcode and its
arguments, and a fact about two requests comes down to what the two ask.
-/

namespace FuseAbi

namespace Argument.Format

variable (format : Format)

/-- What arguments ask, read behind their record. -/
def askBehind (start : UInt64) (fixed : format.Fixed) : Scan (Header → Operation) :=
  match format.objection fixed with
  | some objection => throw { fault := objection.fault, offset := start + objection.place }
  | none => do
    let parts ← Parts.read (format.tail fixed)
    return fun header => format.toOperation header fixed parts

/-- What arguments ask: for every header, the operation behind it. -/
def ask : Scan (Header → Operation) := do
  let start ← Scan.offset
  let fixed : format.Fixed ← Record.read
  let asked ← format.askBehind start fixed
  Scan.finish
  return asked

/-- Reading an operation is reading what is asked, and asking it of the header. -/
theorem read_eq_askBehind (header : Header) :
    format.read header = (do
      let start ← Scan.offset
      let fixed : format.Fixed ← Record.read
      (· header) <$> format.askBehind start fixed) := by
  unfold Format.read
  refine bind_congr fun start => bind_congr fun fixed => ?_
  unfold askBehind
  cases format.objection fixed with
  | some objection => rfl
  | none => simp only [map_bind, map_pure]

/-- Headers that are handed on alike are read behind alike. -/
theorem read_congr {header header' : Header}
    (h : ∀ fixed parts, format.toOperation header fixed parts = format.toOperation header' fixed parts) :
    format.read header = format.read header' := by
  simp only [Format.read, h]

end Argument.Format

/-- Of a header, the node alone is handed on, and the number of a request that answers a demand. -/
theorem Opcode.toOperation_congr {op : Opcode} {format : Argument.Format} (hformat : op.format? = some format)
    {header header' : Header} (hnodeid : header.nodeid = header'.nodeid)
    (hunique : op = .notifyReply → header.unique = header'.unique) (fixed : format.Fixed)
    (parts : Argument.Parts (format.tail fixed)) :
    format.toOperation header fixed parts = format.toOperation header' fixed parts := by
  obtain ⟨len, opcode, unique, nodeid, uid, gid, pid⟩ := header
  obtain ⟨len', opcode', unique', nodeid', uid', gid', pid'⟩ := header'
  obtain rfl : nodeid = nodeid' := hnodeid
  cases op with
  | notifyReply =>
    obtain rfl : unique = unique' := hunique rfl
    cases hformat
    rfl
  | _ => cases hformat <;> rfl

namespace Request

open Argument

/-- What arguments ask that are to be used up. -/
def askArguments (format : Format) (arguments : Bytes) : Except DecodeError (Header → Operation) :=
  format.ask.eval (argumentCursor arguments)

theorem decodeArguments_eq_ask (format : Format) (header : Header) (arguments : Bytes) :
    decodeArguments format header arguments = (askArguments format arguments).map (· header) := by
  have hscan : (do let op ← format.read header; Scan.finish; return op) = (· header) <$> format.ask := by
    rw [Format.read_eq_askBehind, Format.ask]
    simp only [bind_assoc, map_bind, bind_map_left, map_pure]
  rw [askArguments, ← Scan.eval_map, ← hscan]
  rfl

section Arguments

variable {format : Format} {arguments arguments' : Bytes}

/-- Too few bytes for the record: what is wrong is said by their number. -/
theorem askArguments_of_lt (h : arguments.length < Record.size format.Fixed) :
    askArguments format arguments =
      .error
        { fault := .short (layoutStop (Record.layout format.Fixed) arguments.length).2
            (arguments.length - (layoutStop (Record.layout format.Fixed) arguments.length).1)
          offset := UInt64.ofNat Header.size +
            UInt64.ofNat (layoutStop (Record.layout format.Fixed) arguments.length).1 } := by
  have hread := Record.read_of_lt (α := format.Fixed) (c := argumentCursor arguments) h
  rw [askArguments, Scan.eval, Format.ask, Scan.run_bind_of_ok (s := Scan.offset) rfl,
    Scan.run_bind_of_error hread]
  rfl

/-- With a record in front, what is asked hangs on the record and the bytes behind it. -/
theorem askArguments_of_le (h : Record.size format.Fixed ≤ arguments.length) :
    askArguments format arguments =
      (do
        let asked ← format.askBehind (UInt64.ofNat Header.size) (Record.ofBytes arguments)
        Scan.finish
        return asked : Scan (Header → Operation)).eval
        ((argumentCursor arguments).advance (Record.size format.Fixed)) := by
  have hread := Record.read_of_le (α := format.Fixed) (c := argumentCursor arguments) h
  rw [askArguments, Scan.eval, Format.ask, Scan.run_bind_of_ok (s := Scan.offset) rfl,
    Scan.run_bind_of_ok hread]
  rfl

/-- Arguments of one length ask the same when what their records ask, and the bytes behind, are the same. -/
theorem askArguments_congr (hlen : arguments.length = arguments'.length)
    (hrecord : ∀ start, format.askBehind start (Record.ofBytes arguments) =
      format.askBehind start (Record.ofBytes arguments'))
    (hbehind : arguments.drop (Record.size format.Fixed) = arguments'.drop (Record.size format.Fixed)) :
    askArguments format arguments = askArguments format arguments' := by
  by_cases hsize : Record.size format.Fixed ≤ arguments.length
  · have hadvance : (argumentCursor arguments).advance (Record.size format.Fixed) =
        (argumentCursor arguments').advance (Record.size format.Fixed) :=
      congrArg (Cursor.mk _) hbehind
    rw [askArguments_of_le hsize, askArguments_of_le (hlen ▸ hsize), hrecord, hadvance]
  · rw [Nat.not_le] at hsize
    rw [askArguments_of_lt hsize, askArguments_of_lt (hlen ▸ hsize), hlen]

end Arguments

/-- What a buffer asks: for every header, the operation behind it. Of the buffer's own header only the length
and the opcode are looked at. -/
def ask (minor : Minor) (buffer : Bytes) : Except DecodeError (Header → Operation) :=
  if buffer.length < Header.size then
    .error { fault := .noHeader buffer.length, offset := UInt64.ofNat buffer.length }
  else if (wordAt buffer 0).toNat ≠ buffer.length then
    .error { fault := lengthFault (wordAt buffer 0) buffer.length, offset := 0, opcode := wordAt buffer 4 }
  else
    match minor.format (wordAt buffer 4) with
    | .error fault => .error { fault, offset := Header.opcodePlace, opcode := wordAt buffer 4 }
    | .ok format =>
      (askArguments format (buffer.drop Header.size)).mapError fun e => { e with opcode := wordAt buffer 4 }

/-- A request is decoded by asking what it asks of its own header. -/
theorem decode_eq_ask (minor : Minor) (buffer : Bytes) :
    decode minor buffer = (ask minor buffer).map fun asked =>
      { header := Header.peek buffer, operation := asked (Header.peek buffer) } := by
  unfold ask
  split
  next hsize => exact decode_of_lt hsize
  next hsize =>
    split
    next hlen => exact decode_of_ne (Nat.le_of_not_lt hsize) hlen
    next hlen =>
      rw [not_not] at hlen
      rw [← Header.peek_opcode]
      split
      next fault hformat => exact decode_of_format_error (Nat.le_of_not_lt hsize) hlen hformat
      next format hformat =>
        rw [decode_of_format_ok (Nat.le_of_not_lt hsize) hlen hformat, decodeArguments_eq_ask]
        cases askArguments format (buffer.drop Header.size) with
        | error e => rfl
        | ok asked => rfl

/-- Requests that ask the same are both decoded, by asking it of their own headers, or both refused for it. -/
theorem decode_of_ask_eq {minor : Minor} {s t : Bytes} (h : ask minor s = ask minor t) :
    (∃ asked, ask minor s = .ok asked ∧
      decode minor s = .ok { header := Header.peek s, operation := asked (Header.peek s) } ∧
      decode minor t = .ok { header := Header.peek t, operation := asked (Header.peek t) }) ∨
    ∃ e, decode minor s = .error e ∧ decode minor t = .error e := by
  rw [decode_eq_ask, decode_eq_ask, ← h]
  cases ask minor s with
  | ok asked => exact .inl ⟨asked, rfl, rfl, rfl⟩
  | error e => exact .inr ⟨e, rfl, rfl⟩

/-- Headers of one node are asked alike, unless the request answers a demand and they differ in its number. -/
theorem ask_map_congr (minor : Minor) (buffer : Bytes) {header header' : Header}
    (hnodeid : header.nodeid = header'.nodeid)
    (hunique : wordAt buffer 4 = Opcode.notifyReply.code → header.unique = header'.unique) :
    (ask minor buffer).map (· header) = (ask minor buffer).map (· header') := by
  unfold ask
  split
  next => rfl
  next =>
    split
    next => rfl
    next =>
      split
      next => rfl
      next format hformat =>
        obtain ⟨op, hop, hopformat, -⟩ := Minor.format_eq_ok_iff.mp hformat
        have hread : format.read header = format.read header' := by
          refine format.read_congr (Opcode.toOperation_congr hopformat hnodeid ?_)
          rintro rfl
          exact hunique (Opcode.ofCode?_eq_some_iff.mp hop).symm
        have hdecode := decodeArguments_eq_ask format header (buffer.drop Header.size)
        rw [decodeArguments, hread, ← decodeArguments, decodeArguments_eq_ask] at hdecode
        cases hasked : askArguments format (buffer.drop Header.size) with
        | error e => rfl
        | ok asked =>
          rw [hasked] at hdecode
          exact hdecode.symm

end Request

end FuseAbi
