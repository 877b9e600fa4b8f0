import FuseAbi.Proofs.Ask

/-!
# Bytes that never matter

Some bytes of a request are discarded whatever they are: who asks, the number of the request unless it answers
a demand, and in the struct in front of the arguments the padding and the fields that an opcode shares a struct
for and does not use. `Kernel.fields` lists the structs once more, opcode by opcode and apart from the records
that are decoded, with everything that is discarded as padding.

That such bytes do not matter is said of two requests side by side, which may both be refused: they ask for
equal operations, or are refused with the same error (`Request.decode_discarded`). The node does matter, but
only to the operation, never to whether there is one.
-/

namespace FuseAbi

/-! ## Texts that differ in some places only -/

/-- Two texts of one length that differ at most in the given places. -/
def AgreeOff (places : Nat → Prop) (s t : Bytes) : Prop :=
  s.length = t.length ∧ ∀ place < s.length, ¬ places place → s[place]? = t[place]?

instance (places : Nat → Prop) [DecidablePred places] (s t : Bytes) : Decidable (AgreeOff places s t) :=
  inferInstanceAs (Decidable (_ ∧ _))

namespace AgreeOff

variable {places places' : Nat → Prop} {s t : Bytes}

theorem getElem?_eq (h : AgreeOff places s t) {place : Nat} (hplace : ¬ places place) :
    s[place]? = t[place]? := by
  by_cases hlt : place < s.length
  · exact h.2 place hlt hplace
  · have hs : s[place]? = none := List.getElem?_eq_none (Nat.le_of_not_lt hlt)
    have ht : t[place]? = none := List.getElem?_eq_none (h.1 ▸ Nat.le_of_not_lt hlt)
    rw [hs, ht]

theorem mono (h : AgreeOff places s t) (hsub : ∀ place, places place → places' place) :
    AgreeOff places' s t :=
  ⟨h.1, fun place hlt hplace => h.2 place hlt fun hin => hplace (hsub place hin)⟩

/-- Behind some bytes the places are counted from there. -/
theorem drop (h : AgreeOff places s t) (n : Nat) :
    AgreeOff (fun place => places (n + place)) (s.drop n) (t.drop n) := by
  constructor
  · rw [List.length_drop, List.length_drop, h.1]
  · intro place _ hplace
    rw [List.getElem?_drop, List.getElem?_drop]
    exact h.getElem?_eq hplace

/-- In a stretch without such places the texts are the same. -/
theorem take_eq (h : AgreeOff places s t) {n : Nat} (hfree : ∀ place < n, ¬ places place) :
    s.take n = t.take n := by
  apply List.ext_getElem?
  intro place
  rw [List.getElem?_take, List.getElem?_take]
  split
  next hlt => exact h.getElem?_eq (hfree place hlt)
  next => rfl

theorem take_drop_eq (h : AgreeOff places s t) {start n : Nat}
    (hfree : ∀ place < n, ¬ places (start + place)) : (s.drop start).take n = (t.drop start).take n :=
  (h.drop start).take_eq hfree

/-- Texts are the same behind the last such place. -/
theorem drop_eq (h : AgreeOff places s t) {n : Nat} (hfree : ∀ place, n ≤ place → ¬ places place) :
    s.drop n = t.drop n := by
  apply List.ext_getElem?
  intro place
  rw [List.getElem?_drop, List.getElem?_drop]
  exact h.getElem?_eq (hfree _ (Nat.le_add_right _ _))

theorem wordAt_eq (h : AgreeOff places s t) {start : Nat} (hfree : ∀ place < 4, ¬ places (start + place)) :
    wordAt s start = wordAt t start := by
  rw [wordAt, wordAt, h.take_drop_eq hfree]

theorem longAt_eq (h : AgreeOff places s t) {start : Nat} (hfree : ∀ place < 8, ¬ places (start + place)) :
    longAt s start = longAt t start := by
  rw [longAt, longAt, h.take_drop_eq hfree]

end AgreeOff

/-! ## Padding -/

def Field.isPad : Field → Bool
  | pad _ => true
  | _ => false

/-- Whether a place in the bytes of a layout is padding. -/
def isPadding : (layout : List Field) → (place : Nat) → Bool
  | [], _ => false
  | field :: rest, place => if place < field.width then field.isPad else isPadding rest (place - field.width)

theorem isPadding_add (field : Field) (rest : List Field) (place : Nat) :
    isPadding (field :: rest) (field.width + place) = isPadding rest place := by
  rw [isPadding, if_neg (by omega), Nat.add_sub_cancel_left]

/-- Behind a layout nothing is padding. -/
theorem isPadding_of_le {layout : List Field} {place : Nat} (h : layoutSize layout ≤ place) :
    isPadding layout place = false := by
  induction layout generalizing place with
  | nil => rfl
  | cons field rest ih =>
    rw [layoutSize] at h
    rw [isPadding, if_neg (by omega), ih (by omega)]

/-- The words of a layout do not hang on its padding. -/
theorem Values.ofBytes_congr {layout : List Field} {s t : Bytes}
    (h : AgreeOff (isPadding layout · = true) s t) : ofBytes layout s = ofBytes layout t := by
  induction layout generalizing s t with
  | nil => rfl
  | cons field rest ih =>
    have hrest : ofBytes rest (s.drop field.width) = ofBytes rest (t.drop field.width) := by
      refine ih ((h.drop field.width).mono ?_)
      intro place hplace
      rwa [isPadding_add] at hplace
    rw [ofBytes, ofBytes, hrest]
    cases field with
    | pad width => rfl
    | u32 | u64 =>
      refine cons_congr (h.take_eq ?_) _
      intro place hlt hplace
      rw [isPadding, if_pos hlt] at hplace
      cases hplace

namespace Kernel

/-! ## What is discarded of a request -/

/-- The struct in front of the arguments of an opcode, everything that is discarded of it being padding. -/
def fields : Opcode → List Field
  | .init | .destroy | .ioctl | .lseek => []
  | .lookup | .unlink | .rmdir | .symlink | .readlink | .statfs | .removexattr => []
  | .forget | .interrupt | .rename | .link => [.u64]
  | .batchForget | .access | .openFile | .openDir | .getxattr | .listxattr => [.u32, .pad 4]
  | .mkdir | .setxattr => [.u32, .u32]
  | .mknod | .create => [.u32, .u32, .u32, .pad 4]
  | .rename2 | .bmap | .fsync | .fsyncdir => [.u64, .u32, .pad 4]
  | .getattr => [.u32, .pad 4, .u64]
  | .setattr =>
    [.u32, .pad 4, .u64, .u64, .u64, .u64, .u64, .u64, .u32, .u32, .u32, .u32, .pad 4, .u32, .u32, .pad 4]
  | .flush => [.u64, .pad 8, .u64]
  | .poll => [.u64, .u64, .u32, .u32]
  | .read | .write => [.u64, .u64, .u32, .u32, .u64, .u32, .pad 4]
  -- of a read's struct a listing uses neither the read flags nor the lock owner nor the flags
  | .readdir | .readdirPlus => [.u64, .u64, .u32, .pad 4, .pad 8, .pad 4, .pad 4]
  | .release => [.u64, .u32, .u32, .u64]
  -- of the same struct, closing a directory uses neither the release flags nor the lock owner
  | .releasedir => [.u64, .u32, .pad 4, .pad 8]
  | .setlk | .setlkw => [.u64, .u64, .u64, .u64, .u32, .u32, .u32, .pad 4]
  -- and of theirs, asking for a lock does not use the lock flags
  | .getlk => [.u64, .u64, .u64, .u64, .u32, .u32, .pad 4, .pad 4]
  | .notifyReply => [.pad 8, .u64, .u32, .pad 20]
  | .fallocate => [.u64, .u64, .u64, .u32, .pad 4]
  | .copyFileRange => [.u64, .u64, .u64, .u64, .u64, .u64, .u64]

/-- The struct behind a header with the given opcode; there is none for a number that is no opcode. -/
def fieldsOf (code : UInt32) : List Field :=
  ((Opcode.ofCode? code).map fields).getD []

/-- The places that are discarded of a request with the given opcode: the number of the request, unless it
answers a demand; who asks, and what fills the header up; and padding behind it. -/
def Discarded (code : UInt32) (place : Nat) : Prop :=
  8 ≤ place ∧ place < 16 ∧ code ≠ Opcode.notifyReply.code ∨
    24 ≤ place ∧ place < 40 ∨
    40 ≤ place ∧ isPadding (fieldsOf code) (place - 40) = true

instance (code : UInt32) : DecidablePred (Discarded code) := fun _ =>
  inferInstanceAs (Decidable (_ ∨ _ ∨ _))

/-- The places that do not matter to what is asked of a header: those of the header behind its opcode, and
padding. -/
def Unasked (code : UInt32) (place : Nat) : Prop :=
  8 ≤ place ∧ (40 ≤ place → isPadding (fieldsOf code) (place - 40) = true)

/-- What is discarded, and the node, is handed on or not looked at. -/
theorem unasked_of_discarded {code : UInt32} {place : Nat}
    (h : Discarded code place ∨ 16 ≤ place ∧ place < 24) : Unasked code place := by
  rcases h with (h | h | ⟨h, hpad⟩) | h
  · exact ⟨h.1, fun hbehind => by omega⟩
  · exact ⟨by omega, fun hbehind => by omega⟩
  · exact ⟨by omega, fun _ => hpad⟩
  · exact ⟨by omega, fun hbehind => by omega⟩

/-! ## What is discarded of a struct -/

section Struct

variable {op : Opcode} {format : Argument.Format} (hformat : op.format? = some format)

include hformat in
theorem layoutSize_fields : layoutSize (fields op) = Record.size format.Fixed := by
  cases op <;> cases hformat <;> rfl

include hformat in
/-- But for the structs that are shared, the record that is decoded is the struct. -/
theorem fields_eq_layout (hop : op ∉ [.readdir, .readdirPlus, .releasedir, .getlk]) :
    fields op = Record.layout format.Fixed := by
  cases op with
  | readdir | readdirPlus | releasedir | getlk => exact absurd (by decide) hop
  | _ => cases hformat <;> rfl

include hformat in
/-- Structs that differ in what is discarded ask the same. -/
theorem askBehind_congr {s t : Bytes} (h : AgreeOff (isPadding (fields op) · = true) s t) (start : UInt64) :
    format.askBehind start (Record.ofBytes s) = format.askBehind start (Record.ofBytes t) := by
  by_cases hop : op ∈ [.readdir, .readdirPlus, .releasedir, .getlk]
  · have hvalues := Values.ofBytes_congr h
    simp only [List.mem_cons, List.not_mem_nil, or_false] at hop
    -- what is asked is the same where the fields that are not used are zeros
    rcases hop with rfl | rfl | rfl | rfl <;> cases hformat
    · exact congrArg (fun (fh, offset, size, ()) =>
        Argument.readdir.askBehind start (ReadArgs.mk fh offset size 0 0 0)) hvalues
    · exact congrArg (fun (fh, offset, size, ()) =>
        Argument.readdirPlus.askBehind start (ReadArgs.mk fh offset size 0 0 0)) hvalues
    · exact congrArg (fun (fh, flags, ()) =>
        Argument.releasedir.askBehind start (ReleaseArgs.mk fh flags 0 0)) hvalues
    · exact congrArg (fun (fh, owner, first, last, type, pid, ()) =>
        Argument.getlk.askBehind start (LockArgs.mk fh owner ⟨first, last, type, pid⟩ 0)) hvalues
  · rw [fields_eq_layout hformat hop] at h
    rw [Record.ofBytes, Values.ofBytes_congr h, Record.ofBytes]

end Struct

end Kernel

namespace Request

/-! ## Two requests -/

variable {s t : Bytes}

/-- Behind the length and the opcode nothing of a header matters to what is asked, nor does padding. -/
theorem ask_congr (minor : Minor) (h : AgreeOff (Kernel.Unasked (wordAt s 4)) s t) :
    ask minor s = ask minor t := by
  have hlen : wordAt s 0 = wordAt t 0 := by
    refine h.wordAt_eq ?_
    rintro place hlt ⟨hplace, -⟩
    omega
  have hopcode : wordAt s 4 = wordAt t 4 := by
    refine h.wordAt_eq ?_
    rintro place hlt ⟨hplace, -⟩
    omega
  have harguments : AgreeOff (isPadding (Kernel.fieldsOf (wordAt s 4)) · = true) (s.drop Header.size)
      (t.drop Header.size) := by
    refine (h.drop Header.size).mono ?_
    intro place hplace
    have hpad := hplace.2 (Nat.le_add_right _ _)
    rwa [Header.size, Nat.add_sub_cancel_left] at hpad
  rw [ask, ask, ← hlen, ← hopcode, ← h.1]
  cases hformat : minor.format (wordAt s 4) with
  | error fault => rfl
  | ok format =>
    obtain ⟨op, hop, hopformat, -⟩ := Minor.format_eq_ok_iff.mp hformat
    have hfields : Kernel.fieldsOf (wordAt s 4) = Kernel.fields op := by
      rw [Kernel.fieldsOf, hop]
      rfl
    rw [hfields] at harguments
    have hbehind := harguments.drop_eq (n := Record.size format.Fixed) (by
      intro place hplace
      rw [← Kernel.layoutSize_fields hopformat] at hplace
      rw [isPadding_of_le hplace]
      exact Bool.false_ne_true)
    dsimp only
    rw [askArguments_congr harguments.1 (Kernel.askBehind_congr hopformat harguments) hbehind]

/-- Of two requests that differ only in what is discarded, either both are decoded, to equal operations, or
both are refused with the same error. That holds with the nodes different too, but for the operations. -/
theorem decode_discarded (minor : Minor) (s t : Bytes) :
    (AgreeOff (Kernel.Discarded (wordAt s 4)) s t →
      (∃ request request', decode minor s = .ok request ∧ decode minor t = .ok request' ∧
        request.operation = request'.operation) ∨
      ∃ e, decode minor s = .error e ∧ decode minor t = .error e) ∧
    (AgreeOff (fun place => Kernel.Discarded (wordAt s 4) place ∨ 16 ≤ place ∧ place < 24) s t →
      (∃ request request', decode minor s = .ok request ∧ decode minor t = .ok request') ∨
      ∃ e, decode minor s = .error e ∧ decode minor t = .error e) := by
  constructor
  · intro h
    have hasked := ask_congr minor (h.mono fun _ hplace => Kernel.unasked_of_discarded (.inl hplace))
    rcases decode_of_ask_eq hasked with ⟨asked, hask, hs, ht⟩ | hrefused
    · refine .inl ⟨_, _, hs, ht, ?_⟩
      have hnodeid : (Header.peek s).nodeid = (Header.peek t).nodeid := by
        rw [Header.peek_nodeid, Header.peek_nodeid]
        refine h.longAt_eq ?_
        rintro place hlt (hplace | hplace | hplace) <;> omega
      have hunique (hcode : wordAt s 4 = Opcode.notifyReply.code) :
          (Header.peek s).unique = (Header.peek t).unique := by
        rw [Header.peek_unique, Header.peek_unique]
        refine h.longAt_eq ?_
        rintro place hlt (hplace | hplace | hplace)
        · exact hplace.2.2 hcode
        · omega
        · omega
      have hmap := ask_map_congr minor s hnodeid hunique
      rw [hask] at hmap
      exact Except.ok.inj hmap
    · exact .inr hrefused
  · intro h
    have hasked := ask_congr minor (h.mono fun _ => Kernel.unasked_of_discarded)
    rcases decode_of_ask_eq hasked with ⟨asked, -, hs, ht⟩ | hrefused
    · exact .inl ⟨_, _, hs, ht⟩
    · exact .inr hrefused

/-- A query which lock is in the way of one, with a filler for what is discarded. -/
def lockQuery (unique nodeid : UInt64) (filler : UInt8) (type : UInt32) : Bytes :=
  littleEndian 4 88 ++ littleEndian 4 31 ++ littleEndian 8 unique.toNat ++ littleEndian 8 nodeid.toNat ++
    List.replicate 16 filler ++
    (littleEndian 8 9 ++ littleEndian 8 3 ++ littleEndian 8 10 ++ littleEndian 8 20 ++
      littleEndian 4 type.toNat ++ littleEndian 4 77 ++ List.replicate 8 filler)

/-- A query for a lock is decoded alike whoever asks. One for a lock of no known type is refused alike, on
another node too. -/
theorem decode_discarded_lockQuery :
    AgreeOff (Kernel.Discarded 31) (lockQuery 1 5 0 1) (lockQuery 2 5 255 1) ∧
    AgreeOff (fun place => Kernel.Discarded 31 place ∨ 16 ≤ place ∧ place < 24)
      (lockQuery 1 5 0 9) (lockQuery 2 6 255 9) ∧
    (∃ request request', decode .newest (lockQuery 1 5 0 1) = .ok request ∧
      decode .newest (lockQuery 2 5 255 1) = .ok request' ∧ request.operation = request'.operation) ∧
    ∃ e, decode .newest (lockQuery 1 5 0 9) = .error e ∧
      decode .newest (lockQuery 2 6 255 9) = .error e := by
  have hgood : AgreeOff (Kernel.Discarded 31) (lockQuery 1 5 0 1) (lockQuery 2 5 255 1) := by decide
  have hbad : AgreeOff (fun place => Kernel.Discarded 31 place ∨ 16 ≤ place ∧ place < 24)
      (lockQuery 1 5 0 9) (lockQuery 2 6 255 9) := by decide
  have haccepted := (decode_discarded .newest (lockQuery 1 5 0 1) (lockQuery 2 5 255 1)).1 hgood
  have hrefused := (decode_discarded .newest (lockQuery 1 5 0 9) (lockQuery 2 6 255 9)).2 hbad
  refine ⟨hgood, hbad, ?_, ?_⟩
  · rcases haccepted with h | ⟨e, he, -⟩
    · exact h
    · have hok : (decode .newest (lockQuery 1 5 0 1)).isOk := by decide
      rw [he] at hok
      cases hok
  · rcases hrefused with ⟨_, _, h, -⟩ | h
    · have herror : (decode .newest (lockQuery 1 5 0 9)).isOk = false := by decide
      rw [h] at herror
      cases herror
    · exact h

end Request

end FuseAbi
