import FuseAbi.Argument.Format
import FuseAbi.Proofs.Record

/-!
# Reading and writing parts

What follows a record is a list of parts: names, counted data, and forget records. `Part.Legible`
says which values a part can hold, and `Part.encode` how a value stands on the wire. The two
directions are proved for one part first and for lists of parts after that:

- a legible value that fills the region is read back (`Part.read_encode`, `Parts.read_encode`);
- what is read is legible, and its bytes are just the bytes that were taken (`Part.ok_of_read`,
  `Parts.ok_of_read`).

Names and data say by themselves where they end (`Part.isDelimited`), so the same value is read
whatever follows. Forget records do not: they fill the region or are refused.
-/

namespace FuseAbi

/-! ## Records in a row -/

namespace Record

variable {α : Type} [Record α]

/-- So many records in a row, as the bytes in front of a text spell them. -/
def listOf : (n : Nat) → Bytes → List α
  | 0, _ => []
  | n + 1, s => ofBytes s :: listOf n (s.drop (size α))

@[simp] theorem length_listOf (n : Nat) (s : Bytes) : (listOf n s : List α).length = n := by
  induction n generalizing s with
  | zero => rfl
  | succ n ih => rw [listOf, List.length_cons, ih]

/-- With enough bytes for all of them, records in a row are read. -/
theorem many_of_le {n : Nat} {c : Cursor} (h : n * size α ≤ c.unread.length) :
    (Scan.many (read : Scan α) n).run c = .ok (listOf n c.unread) (c.advance (n * size α)) := by
  induction n generalizing c with
  | zero =>
    rw [Nat.zero_mul, Cursor.advance_zero]
    rfl
  | succ n ih =>
    rw [Nat.succ_mul] at h ⊢
    have hrest : n * size α ≤ (c.advance (size α)).unread.length := by
      rw [Cursor.advance_unread, List.length_drop]
      omega
    have hmany := Scan.run_bind_of_ok (f := fun rest => pure (ofBytes c.unread :: rest)) (ih hrest)
    refine (Scan.run_bind_of_ok (read_of_le (by omega))).trans (hmany.trans ?_)
    rw [Cursor.advance_advance, Nat.add_comm]
    rfl

theorem encode_cons (a : α) (rest : List α) :
    Item.encodeAll ((a :: rest).flatMap items) =
      Item.encodeAll (items a) ++ Item.encodeAll (rest.flatMap items) := by
  simp only [Item.encodeAll, List.flatMap_cons, List.flatMap_append]

theorem length_encode_list (entries : List α) :
    (Item.encodeAll (entries.flatMap items)).length = entries.length * size α := by
  induction entries with
  | nil => rw [List.length_nil, Nat.zero_mul]; rfl
  | cons a rest ih =>
    rw [encode_cons, List.length_append, length_encode, ih, List.length_cons, Nat.succ_mul,
      Nat.add_comm]

/-- Records that were written in a row are read back. -/
theorem listOf_encode (entries : List α) :
    listOf entries.length (Item.encodeAll (entries.flatMap items)) = entries := by
  induction entries with
  | nil => rfl
  | cons a rest ih =>
    rw [encode_cons, List.length_cons, listOf, ofBytes_encode, List.drop_left' (length_encode a), ih]

end Record

/-- A forget record has no padding, so its bytes are just those of its two words. -/
theorem encode_ofBytes_forget {s : Bytes} (h : s.length = Record.size Forget) :
    Item.encodeAll (Record.items (Record.ofBytes s : Forget)) = s :=
  Values.encode_ofBytes (by simp [Record.layout]) h

theorem encode_listOf_forget {n : Nat} {s : Bytes} (h : s.length = n * Record.size Forget) :
    Item.encodeAll ((Record.listOf n s : List Forget).flatMap Record.items) = s := by
  induction n generalizing s with
  | zero =>
    rw [Nat.zero_mul] at h
    rw [List.length_eq_zero_iff.mp h]
    rfl
  | succ n ih =>
    rw [Nat.succ_mul] at h
    have hrest := ih (s := s.drop (Record.size Forget)) (by rw [List.length_drop]; omega)
    have htake : (s.take (Record.size Forget)).length = Record.size Forget := by
      rw [List.length_take]
      omega
    have hfirst := encode_ofBytes_forget htake
    have hfront := Record.ofBytes_append (α := Forget) (le_of_eq htake.symm) (s.drop (Record.size Forget))
    rw [List.take_append_drop] at hfront
    rw [Record.listOf, Record.encode_cons, hrest, hfront, hfirst, List.take_append_drop]

namespace Argument

/-! ## One part -/

namespace Part

/-- The values that a part can hold: a name without zero bytes that is within its limit, and as many
bytes of data or forget records as were announced. The limit is taken with one added to it and
modulo 2 ^ 64, as it is when the name is read. -/
def Legible : (part : Part) → part.Value → Prop
  | name limit, (text : Bytes) => 0 ∉ text ∧ text.length < (limit + 1).toNat
  | data size, (bytes : Bytes) => bytes.length = size.toNat
  | forgets count, (entries : List Forget) => entries.length = count.toNat

/-- The bytes of a part. -/
def encode (part : Part) (value : part.Value) : Bytes :=
  Item.encodeAll (part.items value)

/-- Whether a part says by itself where it ends. -/
def isDelimited : Part → Bool
  | forgets _ => false
  | _ => true

/-- The faults that reading a part can meet. -/
def Meets : Part → Fault → Prop
  | name _ => Fault.OfKind .invalidString
  | data _ => Fault.OfKind .truncated
  | forgets _ => Fault.OfKind .malformedArgument

theorem encode_name (limit : UInt64) (text : Bytes) :
    encode (.name limit) text = text ++ [0] :=
  List.append_nil _

theorem encode_data (size : UInt32) (bytes : Bytes) : encode (.data size) bytes = bytes :=
  List.append_nil _

theorem length_encode_forgets (count : UInt32) (entries : List Forget) :
    (encode (.forgets count) entries).length = entries.length * Record.size Forget :=
  Record.length_encode_list entries

/-- Forget records are read where they fill the region, to the record. -/
theorem readForgets_of_eq {count : UInt32} {c : Cursor}
    (h : c.unread.length = count.toNat * Record.size Forget) :
    (readForgets count).run c = .ok (Record.listOf count.toNat c.unread) (c.advance c.unread.length) := by
  have hmany := Record.many_of_le (α := Forget) (n := count.toNat) (c := c) (le_of_eq h.symm)
  have hsize : Record.size Forget = 16 := rfl
  rw [hsize] at h
  have hwhole : c.unread.length % Record.size Forget = 0 := by rw [hsize]; omega
  have hcount : c.unread.length / Record.size Forget = count.toNat := by rw [hsize]; omega
  refine (Scan.run_bind_of_ok (s := Scan.remaining) rfl).trans ?_
  dsimp only
  rw [if_neg (not_not_intro hwhole), if_neg (not_not_intro hcount), hmany, h, hsize]

/-- What is said of forget records that do not fill the region: a broken record before a wrong count. -/
def forgetsFault (count : UInt32) (left : Nat) : Fault :=
  if left % Record.size Forget ≠ 0 then .brokenForgets left
  else .forgetCount count (left / Record.size Forget)

theorem ofKind_forgetsFault (count : UInt32) (left : Nat) :
    (forgetsFault count left).OfKind .malformedArgument := by
  unfold forgetsFault
  split <;> exact ⟨rfl, trivial⟩

/-- Where they do not fill it, they are refused, and the rest of the region is blamed. -/
theorem readForgets_of_ne {count : UInt32} {c : Cursor}
    (h : c.unread.length ≠ count.toNat * Record.size Forget) :
    (readForgets count).run c =
      .error { fault := forgetsFault count c.unread.length, offset := c.offset } c := by
  have hrest := Scan.run_bind_of_ok (s := Scan.remaining) (c := c) (d := c) (a := c.unread.length)
    (f := fun left =>
      if left % Record.size Forget ≠ 0 then Scan.refuse (.brokenForgets left)
      else if left / Record.size Forget ≠ count.toNat then
        Scan.refuse (.forgetCount count (left / Record.size Forget))
      else Scan.many (Record.read : Scan Forget) count.toNat) rfl
  have hsize : Record.size Forget = 16 := rfl
  refine hrest.trans ?_
  by_cases hwhole : c.unread.length % Record.size Forget = 0
  · have hcount : c.unread.length / Record.size Forget ≠ count.toNat := by
      rw [hsize] at h hwhole ⊢
      omega
    rw [if_neg (not_not_intro hwhole), if_pos hcount, forgetsFault, if_neg (not_not_intro hwhole)]
    rfl
  · rw [if_pos hwhole, forgetsFault, if_pos hwhole]
    rfl

/-- A legible value is read back from a region that it fills. -/
theorem read_encode {part : Part} {value : part.Value} (h : part.Legible value) {c : Cursor}
    (hc : c.unread = part.encode value) :
    part.read.run c = .ok value (c.advance c.unread.length) := by
  cases part with
  | name limit =>
    have hbytes := hc.trans (encode_name limit value)
    have hlen : c.unread.length = List.length (α := UInt8) value + 1 :=
      (congrArg List.length hbytes).trans (List.length_append ..)
    rw [hlen]
    exact Scan.cstring_of_terminated h.1 h.2 hbytes
  | data size =>
    have hbytes := hc.trans (encode_data size value)
    have hlen : c.unread.length = size.toNat := (congrArg List.length hbytes).trans h
    refine (Scan.take_of_le (le_of_eq hlen.symm)).trans ?_
    rw [← hlen, List.take_length]
    exact congrArg (EStateM.Result.ok · _) hbytes
  | forgets count =>
    have hentries := length_encode_forgets count value
    rw [show List.length (α := Forget) value = count.toNat from h] at hentries
    refine (readForgets_of_eq ((congrArg List.length hc).trans hentries)).trans ?_
    rw [hc]
    refine congrArg (EStateM.Result.ok · _) ?_
    have hlist := Record.listOf_encode (α := Forget) value
    rwa [show List.length (α := Forget) value = count.toNat from h] at hlist

/-- What is read is legible, and its bytes are those that were taken. -/
theorem ok_of_read {part : Part} {value : part.Value} {c d : Cursor}
    (h : part.read.run c = .ok value d) :
    part.Legible value ∧ c.unread = part.encode value ++ d.unread ∧ c.Reaches d := by
  cases part with
  | name limit =>
    obtain ⟨hzero, hlimit, hunread, -⟩ := Scan.cstring_ok h
    refine ⟨⟨hzero, hlimit⟩, ?_, (Scan.lawful_cstring limit).ok h⟩
    have hname : c.unread = (show Bytes from value) ++ [0] ++ d.unread :=
      hunread.trans (List.append_cons ..)
    exact hname.trans (congrArg (· ++ d.unread) (encode_name limit value).symm)
  | data size =>
    obtain ⟨hle, hvalue, rfl⟩ := Scan.take_ok h
    refine ⟨?_, ?_, Cursor.reaches_advance hle⟩
    · rw [hvalue]
      exact (List.length_take ..).trans (min_eq_left hle)
    · rw [hvalue]
      refine (List.take_append_drop size.toNat c.unread).symm.trans ?_
      exact congrArg (· ++ c.unread.drop size.toNat) (encode_data size _).symm
  | forgets count =>
    by_cases hfill : c.unread.length = count.toNat * Record.size Forget
    · cases h.symm.trans (readForgets_of_eq hfill)
      refine ⟨Record.length_listOf _ _, ?_, Cursor.reaches_advance (Nat.le_refl _)⟩
      rw [Cursor.advance_unread, List.drop_length, List.append_nil]
      exact (encode_listOf_forget hfill).symm
    · cases h.symm.trans (readForgets_of_ne hfill)

theorem lawful_read (part : Part) : Scan.Lawful part.Meets part.read := by
  cases part with
  | name limit => exact Scan.lawful_cstring limit
  | data size => exact Scan.lawful_take size.toNat
  | forgets count =>
    refine ⟨fun {c _ d} h => (@ok_of_read (.forgets count) _ c d h).2.2, fun {c e d} h => ?_⟩
    by_cases hfill : c.unread.length = count.toNat * Record.size Forget
    · cases h.symm.trans (readForgets_of_eq hfill)
    · cases h.symm.trans (readForgets_of_ne hfill)
      exact ⟨Cursor.reaches_refl c, Scan.blamedIn_here _ c, ofKind_forgetsFault _ _⟩

theorem extends_read {part : Part} (h : part.isDelimited) : Scan.Extends part.read := by
  cases part with
  | name limit => exact Scan.extends_cstring limit
  | data size => exact Scan.extends_take size.toNat
  | forgets count => cases h

end Part

/-! ## Lists of parts -/

namespace Parts

/-- The values that a list of parts can hold. -/
def Legible : (parts : List Part) → Parts parts → Prop
  | [], _ => True
  | part :: rest, (value, values) => part.Legible value ∧ Legible rest values

/-- The bytes of a list of parts. -/
def encode (parts : List Part) (values : Parts parts) : Bytes :=
  Item.encodeAll (items parts values)

theorem encode_cons {part : Part} {rest : List Part} (value : part.Value) (values : Parts rest) :
    encode (part :: rest) (value, values) = part.encode value ++ encode rest values :=
  List.flatMap_append ..

/-- Where a part and the rest of the parts are read behind it, both are read. -/
theorem read_cons_of_ok {part : Part} {rest : List Part} {value : part.Value} {values : Parts rest}
    {c d e : Cursor} (hpart : part.read.run c = .ok value d) (hrest : (read rest).run d = .ok values e) :
    (read (part :: rest)).run c = .ok (value, values) e :=
  (Scan.run_bind_of_ok hpart).trans (Scan.run_bind_of_ok hrest)

theorem ok_of_read_cons {part : Part} {rest : List Part} {values : Parts (part :: rest)}
    {c e : Cursor} (h : (read (part :: rest)).run c = .ok values e) :
    ∃ d, part.read.run c = .ok values.1 d ∧ (read rest).run d = .ok values.2 e := by
  cases hpart : part.read.run c with
  | error err d => cases h.symm.trans (Scan.run_bind_of_error hpart)
  | ok value d =>
    cases hrest : (read rest).run d with
    | error err e' => cases h.symm.trans ((Scan.run_bind_of_ok hpart).trans (Scan.run_bind_of_error hrest))
    | ok values' e' =>
      cases h.symm.trans (read_cons_of_ok hpart hrest)
      exact ⟨d, rfl, hrest⟩

/-- Legible values that fill the region are read back, if all parts but the last are delimited. -/
theorem read_encode {parts : List Part} (hd : ∀ part ∈ parts.dropLast, part.isDelimited)
    {values : Parts parts} (h : Legible parts values) {c : Cursor} (hc : c.unread = encode parts values) :
    (read parts).run c = .ok values (c.advance c.unread.length) := by
  induction parts generalizing c with
  | nil =>
    rw [hc]
    exact congrArg (EStateM.Result.ok ()) (Cursor.advance_zero c).symm
  | cons part rest ih =>
    obtain ⟨value, values⟩ := values
    rw [encode_cons] at hc
    have hlen : c.unread.length = (part.encode value).length + (encode rest values).length := by
      rw [hc, List.length_append]
    -- the part alone, in a region that it fills
    have hfill : part.read.run { offset := c.offset, unread := part.encode value } =
        .ok value { offset := (c.advance (part.encode value).length).offset, unread := [] } := by
      have hread := Part.read_encode h.1 (c := { offset := c.offset, unread := part.encode value }) rfl
      rwa [Cursor.advance, List.drop_length] at hread
    have hpart : part.read.run c = .ok value (c.advance (part.encode value).length) := by
      cases rest with
      | nil =>
        have hnil : c.unread = part.encode value := hc.trans (List.append_nil _)
        have hread := Part.read_encode h.1 hnil
        rwa [hnil] at hread
      | cons next rest =>
        have hextend := Part.extends_read (hd part List.mem_cons_self) hfill (encode (next :: rest) values)
        have hcursor : Cursor.extend { offset := c.offset, unread := part.encode value }
            (encode (next :: rest) values) = c := by
          rw [Cursor.extend, ← hc]
        rw [hcursor] at hextend
        rw [hextend, Cursor.advance, hc, List.drop_left]
        rfl
    have hrestUnread : (c.advance (part.encode value).length).unread = encode rest values := by
      rw [Cursor.advance_unread, hc, List.drop_left]
    have hdrest : ∀ part ∈ rest.dropLast, part.isDelimited := by
      intro next hmem
      cases rest with
      | nil => cases hmem
      | cons first rest => exact hd next (List.mem_cons_of_mem part hmem)
    have hrest := ih hdrest h.2 hrestUnread
    rw [hrestUnread, Cursor.advance_advance, ← hlen] at hrest
    exact read_cons_of_ok hpart hrest

/-- What is read is legible, and its bytes are those that were taken. -/
theorem ok_of_read {parts : List Part} {values : Parts parts} {c e : Cursor}
    (h : (read parts).run c = .ok values e) :
    Legible parts values ∧ c.unread = encode parts values ++ e.unread ∧ c.Reaches e := by
  induction parts generalizing c with
  | nil =>
    cases h
    exact ⟨trivial, rfl, Cursor.reaches_refl _⟩
  | cons part rest ih =>
    obtain ⟨value, values⟩ := values
    obtain ⟨d, hpart, hrest⟩ := ok_of_read_cons h
    obtain ⟨hlegible, hbytes, hreaches⟩ := Part.ok_of_read hpart
    obtain ⟨hlegibles, hbytes', hreaches'⟩ := ih hrest
    refine ⟨⟨hlegible, hlegibles⟩, ?_, hreaches.trans hreaches'⟩
    rw [hbytes, hbytes', encode_cons, List.append_assoc]

theorem lawful_read (parts : List Part) :
    Scan.Lawful (fun fault => ∃ part ∈ parts, part.Meets fault) (read parts) := by
  induction parts with
  | nil => exact Scan.lawful_pure ()
  | cons part rest ih =>
    have hpart : Scan.Lawful (fun fault => ∃ other ∈ part :: rest, other.Meets fault) part.read :=
      (Part.lawful_read part).mono fun fault h => ⟨part, List.mem_cons_self, h⟩
    have hrest : Scan.Lawful (fun fault => ∃ other ∈ part :: rest, other.Meets fault) (read rest) :=
      ih.mono fun fault ⟨other, hmem, h⟩ => ⟨other, List.mem_cons_of_mem part hmem, h⟩
    exact hpart.bind fun value => hrest.bind fun values => Scan.lawful_pure _

theorem extends_read {parts : List Part} (h : ∀ part ∈ parts, part.isDelimited) :
    Scan.Extends (read parts) := by
  induction parts with
  | nil => exact Scan.extends_pure ()
  | cons part rest ih =>
    have hpart := Part.extends_read (h part List.mem_cons_self)
    have hrest := ih fun other hmem => h other (List.mem_cons_of_mem part hmem)
    exact hpart.bind fun value => hrest.bind fun values => Scan.extends_pure _

end Parts

end Argument

end FuseAbi
