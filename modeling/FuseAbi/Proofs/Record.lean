import FuseAbi.Proofs.Scan
import FuseAbi.Record
import FuseAbi.Word.Lemmas

/-!
# Reading and writing records

A layout is read field by field, but what comes of it depends on very little. Whether the read goes
through depends on the number of bytes alone (`Values.read_run`): with enough of them it gives
`Values.ofBytes`, a plain function of the bytes in front, and takes as many as the layout is long;
with fewer it stops in front of the first field that does not fit (`layoutStop`). Writing the words
of a layout and reading them back gives the same words (`Values.ofBytes_encode`).

`Record.read_run` and `Record.ofBytes_encode` carry both facts over to every record type.
-/

namespace FuseAbi

/-! ## Words and the bytes that spell them -/

/-- Four bytes are those of the word that they spell. -/
theorem littleEndian_u32 {s : Bytes} (h : s.length = 4) :
    littleEndian 4 (UInt32.ofNat (ofLittleEndian s)).toNat = s := by
  have hlt := ofLittleEndian_lt s
  rw [h] at hlt
  have hword : (UInt32.ofNat (ofLittleEndian s)).toNat = ofLittleEndian s :=
    UInt32.toNat_ofNat_of_lt' hlt
  rw [hword, ← h, littleEndian_ofLittleEndian]

/-- Eight bytes are those of the word that they spell. -/
theorem littleEndian_u64 {s : Bytes} (h : s.length = 8) :
    littleEndian 8 (UInt64.ofNat (ofLittleEndian s)).toNat = s := by
  have hlt := ofLittleEndian_lt s
  rw [h] at hlt
  have hword : (UInt64.ofNat (ofLittleEndian s)).toNat = ofLittleEndian s :=
    UInt64.toNat_ofNat_of_lt' hlt
  rw [hword, ← h, littleEndian_ofLittleEndian]

/-! ## Words under a cursor -/

namespace Scan

theorem u32_of_le {c : Cursor} (h : 4 ≤ c.unread.length) :
    u32.run c = .ok (UInt32.ofNat (ofLittleEndian (c.unread.take 4))) (c.advance 4) :=
  run_map_of_ok (run_map_of_ok (take_of_le h))

theorem u32_of_lt {c : Cursor} (h : c.unread.length < 4) :
    u32.run c = .error { fault := .short 4 c.unread.length, offset := c.offset } c :=
  run_map_of_error (run_map_of_error (take_of_lt h))

theorem u64_of_le {c : Cursor} (h : 8 ≤ c.unread.length) :
    u64.run c = .ok (UInt64.ofNat (ofLittleEndian (c.unread.take 8))) (c.advance 8) :=
  run_map_of_ok (run_map_of_ok (take_of_le h))

theorem u64_of_lt {c : Cursor} (h : c.unread.length < 8) :
    u64.run c = .error { fault := .short 8 c.unread.length, offset := c.offset } c :=
  run_map_of_error (run_map_of_error (take_of_lt h))

theorem skip_of_le {n : Nat} {c : Cursor} (h : n ≤ c.unread.length) :
    (skip n).run c = .ok () (c.advance n) :=
  run_bind_of_ok (take_of_le h)

theorem skip_of_lt {n : Nat} {c : Cursor} (h : c.unread.length < n) :
    (skip n).run c = .error { fault := .short n c.unread.length, offset := c.offset } c :=
  run_bind_of_error (take_of_lt h)

end Scan

/-! ## Layouts -/

/-- Where the read of a layout stops for want of bytes, `left` of them being there: the number of
bytes in front of the first field that does not fit, and the width of that field. -/
def layoutStop : (layout : List Field) → (left : Nat) → Nat × Nat
  | [], _ => (0, 0)
  | field :: rest, left =>
    if left < field.width then (0, field.width)
    else
      let stop := layoutStop rest (left - field.width)
      (field.width + stop.1, stop.2)

/-- A layout that lacks bytes stops in front of a field: the fields before it fit, and it does not. -/
theorem exists_layoutStop {layout : List Field} {left : Nat} (h : left < layoutSize layout) :
    ∃ before field after, layout = before ++ field :: after ∧ layoutSize before ≤ left ∧
      left < layoutSize before + field.width ∧ layoutStop layout left = (layoutSize before, field.width) := by
  induction layout generalizing left with
  | nil => cases h
  | cons first rest ih =>
    by_cases hfirst : left < first.width
    · refine ⟨[], first, rest, rfl, Nat.zero_le _, ?_, ?_⟩
      · rwa [layoutSize, Nat.zero_add]
      · rw [layoutStop, if_pos hfirst, layoutSize]
    · rw [layoutSize] at h
      obtain ⟨before, field, after, rfl, hbefore, hfield, hstop⟩ :=
        ih (show left - first.width < layoutSize rest by omega)
      refine ⟨first :: before, field, after, rfl, ?_, ?_, ?_⟩
      · rw [layoutSize]
        omega
      · rw [layoutSize]
        omega
      · rw [layoutStop, if_neg hfirst, hstop, layoutSize]

/-- A layout that lacks bytes stops inside the bytes that are there, and lacks some for the field
that it stops at. -/
theorem layoutStop_spec {layout : List Field} {left : Nat} (h : left < layoutSize layout) :
    (layoutStop layout left).1 ≤ left ∧ left < (layoutStop layout left).1 + (layoutStop layout left).2 := by
  obtain ⟨before, field, after, -, hbefore, hfield, hstop⟩ := exists_layoutStop h
  rw [hstop]
  exact ⟨hbefore, hfield⟩

namespace Values

/-- The words of a layout that starts with a field: the field's own word, if it has one, is spelled by
the bytes in front. -/
def cons : (field : Field) → {rest : List Field} → Bytes → Values rest → Values (field :: rest)
  | .u32, _, s, values => (UInt32.ofNat (ofLittleEndian (s.take 4)), values)
  | .u64, _, s, values => (UInt64.ofNat (ofLittleEndian (s.take 8)), values)
  | .pad _, _, _, values => values

/-- The words of a layout that the bytes in front of a text spell. -/
def ofBytes : (layout : List Field) → Bytes → Values layout
  | [], _ => ()
  | field :: rest, s => cons field s (ofBytes rest (s.drop field.width))

/-- A field that fits is read, and the rest of the layout behind it. -/
theorem read_cons_of_le {field : Field} {rest : List Field} {c : Cursor}
    (h : field.width ≤ c.unread.length) :
    (read (field :: rest)).run c =
      match (read rest).run (c.advance field.width) with
      | .ok values d => .ok (cons field c.unread values) d
      | .error e d => .error e d := by
  cases field with
  | u32 =>
    refine (Scan.run_bind_of_ok (Scan.u32_of_le h)).trans ?_
    cases hrest : (read rest).run (c.advance Field.u32.width) with
    | ok values d => exact Scan.run_bind_of_ok hrest
    | error e d => exact Scan.run_bind_of_error hrest
  | u64 =>
    refine (Scan.run_bind_of_ok (Scan.u64_of_le h)).trans ?_
    cases hrest : (read rest).run (c.advance Field.u64.width) with
    | ok values d => exact Scan.run_bind_of_ok hrest
    | error e d => exact Scan.run_bind_of_error hrest
  | pad width =>
    refine (Scan.run_bind_of_ok (Scan.skip_of_le h)).trans ?_
    cases hrest : (read rest).run (c.advance (Field.pad width).width) with
    | ok values d => exact hrest
    | error e d => exact hrest

/-- A field that does not fit ends the read of the layout. -/
theorem read_cons_of_lt {field : Field} {rest : List Field} {c : Cursor}
    (h : c.unread.length < field.width) :
    (read (field :: rest)).run c =
      .error { fault := .short field.width c.unread.length, offset := c.offset } c := by
  cases field with
  | u32 => exact Scan.run_bind_of_error (Scan.u32_of_lt h)
  | u64 => exact Scan.run_bind_of_error (Scan.u64_of_lt h)
  | pad width => exact Scan.run_bind_of_error (Scan.skip_of_lt h)

/-- With enough bytes, a layout is read. -/
theorem read_of_le {layout : List Field} {c : Cursor} (h : layoutSize layout ≤ c.unread.length) :
    (read layout).run c = .ok (ofBytes layout c.unread) (c.advance (layoutSize layout)) := by
  induction layout generalizing c with
  | nil =>
    rw [layoutSize, Cursor.advance_zero]
    rfl
  | cons field rest ih =>
    rw [layoutSize] at h
    have hrest : layoutSize rest ≤ (c.advance field.width).unread.length := by
      rw [Cursor.advance_unread, List.length_drop]
      omega
    rw [read_cons_of_le (by omega), ih hrest, Cursor.advance_advance]
    rfl

/-- With too few, the read stops in front of the first field that does not fit. -/
theorem read_of_lt {layout : List Field} {c : Cursor} (h : c.unread.length < layoutSize layout) :
    (read layout).run c =
      .error
        { fault := .short (layoutStop layout c.unread.length).2
            (c.unread.length - (layoutStop layout c.unread.length).1)
          offset := c.offset + UInt64.ofNat (layoutStop layout c.unread.length).1 }
        (c.advance (layoutStop layout c.unread.length).1) := by
  induction layout generalizing c with
  | nil => cases h
  | cons field rest ih =>
    by_cases hfield : c.unread.length < field.width
    · have hhere : c.offset + UInt64.ofNat 0 = c.offset := UInt64.add_zero c.offset
      rw [read_cons_of_lt hfield, layoutStop, if_pos hfield]
      dsimp only
      rw [Cursor.advance_zero, hhere, Nat.sub_zero]
    · rw [layoutSize] at h
      have hrest : (c.advance field.width).unread.length < layoutSize rest := by
        rw [Cursor.advance_unread, List.length_drop]
        omega
      rw [read_cons_of_le (by omega), ih hrest, layoutStop, if_neg hfield]
      simp only [Cursor.advance_unread, List.length_drop, Cursor.advance_offset, Cursor.advance_advance,
        UInt64.add_assoc, ← UInt64.ofNat_add, Nat.sub_sub]

theorem ok_of_read {layout : List Field} {c d : Cursor} {values : Values layout}
    (h : (read layout).run c = .ok values d) :
    layoutSize layout ≤ c.unread.length ∧ values = ofBytes layout c.unread ∧
      d = c.advance (layoutSize layout) := by
  by_cases hsize : layoutSize layout ≤ c.unread.length
  · rw [read_of_le hsize] at h
    cases h
    exact ⟨hsize, rfl, rfl⟩
  · rw [read_of_lt (by omega)] at h
    cases h

theorem lawful_read (layout : List Field) : Scan.Lawful (Fault.OfKind .truncated) (read layout) where
  ok h := by
    obtain ⟨hsize, -, rfl⟩ := ok_of_read h
    exact Cursor.reaches_advance hsize
  error {c e d} h := by
    by_cases hsize : layoutSize layout ≤ c.unread.length
    · rw [read_of_le hsize] at h
      cases h
    · have hstop := (layoutStop_spec (Nat.lt_of_not_le hsize)).1
      rw [read_of_lt (by omega)] at h
      cases h
      exact ⟨Cursor.reaches_advance hstop, ⟨rfl, _, hstop, rfl⟩, rfl, trivial⟩

/-- The word of a field hangs on the bytes of the field only. -/
theorem cons_congr {field : Field} {rest : List Field} {s t : Bytes}
    (h : s.take field.width = t.take field.width) (values : Values rest) :
    cons field s values = cons field t values := by
  cases field with
  | u32 => exact congrArg (fun word => (UInt32.ofNat (ofLittleEndian word), values)) h
  | u64 => exact congrArg (fun word => (UInt64.ofNat (ofLittleEndian word), values)) h
  | pad width => rfl

/-- The words of a layout hang on its own bytes only. -/
theorem ofBytes_append {layout : List Field} {s : Bytes} (h : layoutSize layout ≤ s.length)
    (more : Bytes) : ofBytes layout (s ++ more) = ofBytes layout s := by
  induction layout generalizing s with
  | nil => rfl
  | cons field rest ih =>
    rw [layoutSize] at h
    have hfield : field.width ≤ s.length := by omega
    have hrest : layoutSize rest ≤ (s.drop field.width).length := by
      rw [List.length_drop]
      omega
    rw [ofBytes, ofBytes, List.drop_append_of_le_length hfield, ih hrest]
    exact cons_congr (List.take_append_of_le_length hfield) _

/-! ## Writing -/

/-- What is written for a layout starts with as many bytes as its first field takes, and reading the
field from them gives its word back. -/
theorem encode_cons {field : Field} {rest : List Field} (values : Values (field :: rest)) :
    ∃ (front : Bytes) (values' : Values rest), front.length = field.width ∧
      Item.encodeAll (items (field :: rest) values) = front ++ Item.encodeAll (items rest values') ∧
      ∀ more, cons field (front ++ more) values' = values := by
  cases field with
  | u32 =>
    obtain ⟨value, values'⟩ := values
    refine ⟨littleEndian 4 value.toNat, values', length_littleEndian _ _, rfl, fun more => ?_⟩
    have hword : ofLittleEndian (littleEndian 4 value.toNat) = value.toNat :=
      ofLittleEndian_littleEndian 4 _ value.toNat_lt
    rw [cons, List.take_left' (length_littleEndian _ _), hword, UInt32.ofNat_toNat]
  | u64 =>
    obtain ⟨value, values'⟩ := values
    refine ⟨littleEndian 8 value.toNat, values', length_littleEndian _ _, rfl, fun more => ?_⟩
    have hword : ofLittleEndian (littleEndian 8 value.toNat) = value.toNat :=
      ofLittleEndian_littleEndian 8 _ value.toNat_lt
    rw [cons, List.take_left' (length_littleEndian _ _), hword, UInt64.ofNat_toNat]
  | pad width => exact ⟨List.replicate width 0, values, List.length_replicate, rfl, fun _ => rfl⟩

@[simp] theorem length_encode (layout : List Field) (values : Values layout) :
    (Item.encodeAll (items layout values)).length = layoutSize layout := by
  induction layout with
  | nil => rfl
  | cons field rest ih =>
    obtain ⟨front, values', hfront, hencode, -⟩ := encode_cons values
    rw [hencode, List.length_append, hfront, ih values', layoutSize]

/-- The words that were written are read back, whatever follows them. -/
theorem ofBytes_encode (layout : List Field) (values : Values layout) (more : Bytes) :
    ofBytes layout (Item.encodeAll (items layout values) ++ more) = values := by
  induction layout with
  | nil => rfl
  | cons field rest ih =>
    obtain ⟨front, values', hfront, hencode, hcons⟩ := encode_cons values
    rw [hencode, List.append_assoc, ofBytes, List.drop_left' hfront, ih values']
    exact hcons _

/-- Where a layout has no padding, its bytes are just those of its words. -/
theorem encode_ofBytes {layout : List Field} {s : Bytes} (hpad : ∀ width, .pad width ∉ layout)
    (h : s.length = layoutSize layout) :
    Item.encodeAll (items layout (ofBytes layout s)) = s := by
  induction layout generalizing s with
  | nil => exact (List.length_eq_zero_iff.mp h).symm
  | cons field rest ih =>
    rw [layoutSize] at h
    have hrest := ih (s := s.drop field.width) (fun width hmem => hpad width (List.mem_cons_of_mem _ hmem))
      (by rw [List.length_drop]; omega)
    have htake : (s.take field.width).length = field.width := by
      rw [List.length_take]
      omega
    have hsplit := List.take_append_drop field.width s
    cases field with
    | u32 => exact (congrArg₂ (· ++ ·) (littleEndian_u32 htake) hrest).trans hsplit
    | u64 => exact (congrArg₂ (· ++ ·) (littleEndian_u64 htake) hrest).trans hsplit
    | pad width => exact absurd List.mem_cons_self (hpad width)

end Values

/-! ## Records -/

namespace Record

variable {α : Type} [Record α]

/-- The record that the bytes in front of a text spell. -/
def ofBytes (s : Bytes) : α :=
  ofValues (Values.ofBytes (layout α) s)

/-- With enough bytes, a record is read. -/
theorem read_of_le {c : Cursor} (h : size α ≤ c.unread.length) :
    (read : Scan α).run c = .ok (ofBytes c.unread) (c.advance (size α)) :=
  Scan.run_map_of_ok (Values.read_of_le h)

/-- With too few, the read stops in front of the first field that does not fit. -/
theorem read_of_lt {c : Cursor} (h : c.unread.length < size α) :
    (read : Scan α).run c =
      .error
        { fault := .short (layoutStop (layout α) c.unread.length).2
            (c.unread.length - (layoutStop (layout α) c.unread.length).1)
          offset := c.offset + UInt64.ofNat (layoutStop (layout α) c.unread.length).1 }
        (c.advance (layoutStop (layout α) c.unread.length).1) :=
  Scan.run_map_of_error (Values.read_of_lt h)

theorem lawful_read : Scan.Lawful (Fault.OfKind .truncated) (read : Scan α) :=
  (Values.lawful_read (layout α)).map _

/-- A record hangs on its own bytes only. -/
theorem ofBytes_append {s : Bytes} (h : size α ≤ s.length) (more : Bytes) :
    (ofBytes (s ++ more) : α) = ofBytes s :=
  congrArg ofValues (Values.ofBytes_append h more)

/-- A record hangs on its own bytes only. -/
theorem ofBytes_take {s : Bytes} {n : Nat} (h : size α ≤ s.length) (hn : size α ≤ n) :
    (ofBytes (s.take n) : α) = ofBytes s := by
  have htake : size α ≤ (s.take n).length := by
    rw [List.length_take]
    omega
  rw [← ofBytes_append htake (s.drop n), List.take_append_drop]

@[simp] theorem length_encode (a : α) : (Item.encodeAll (items a)).length = size α :=
  Values.length_encode (layout α) (toValues a)

/-- A record that was written is read back, whatever follows it. -/
theorem ofBytes_encode (a : α) (more : Bytes) : ofBytes (Item.encodeAll (items a) ++ more) = a := by
  rw [ofBytes, items, Values.ofBytes_encode, ofValues_toValues]

end Record

end FuseAbi
