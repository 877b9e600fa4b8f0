import FuseAbi.Probe
import FuseAbi.Proofs.Scan
import FuseAbi.Word.Lemmas
import Mathlib.Data.Nat.Digits.Defs

/-!
# Runs of probes

The primitive reads may come in any order, and a run goes on behind a read that failed. This module says
that no such run leaves its region.

One probe is settled first. What it needs, what it takes, how many bytes it looks at and what it is to give
are said of the probe and the bytes in front of it, apart from the code that reads them; `Probe.Bounded`
puts them together, and `bounded` proves it of every probe at every cursor. A run keeps its cursor in the
region (`reaches_leave`), by induction on the probes. Since `bounded` asks nothing of the cursor, both hold
at every step of every run.
-/

namespace FuseAbi

/-! ## Numbers as digits -/

/-- A word is spelled in base 256, least significant digit first. -/
theorem ofLittleEndian_eq_ofDigits (s : Bytes) : ofLittleEndian s = Nat.ofDigits 256 (s.map UInt8.toNat) := by
  induction s with
  | nil => rfl
  | cons b rest ih => rw [ofLittleEndian, List.map_cons, Nat.ofDigits_cons, ih]

/-- A word of 32 bits, read as signed, is the number in two's complement. -/
theorem toInt_toInt32_ofNat (n : Nat) : (UInt32.ofNat n).toInt32.toInt = (n : Int).bmod (2 ^ 32) := by
  rw [← Int32.toInt_toBitVec, UInt32.toBitVec_toInt32, UInt32.toBitVec_ofNat', BitVec.toInt_ofNat']

/-- The same of 64 bits. -/
theorem toInt_toInt64_ofNat (n : Nat) : (UInt64.ofNat n).toInt64.toInt = (n : Int).bmod (2 ^ 64) := by
  rw [← Int64.toInt_toBitVec, UInt64.toBitVec_toInt64, UInt64.toBitVec_ofNat', BitVec.toInt_ofNat']

/-! ## Cursors of one region -/

namespace Cursor

/-- The cursor stands in a region that starts at `base`: it is at most the size of the region from the
start, and has just the rest of the region in front of it. -/
structure StandsIn (region : Bytes) (base : UInt64) (c : Cursor) : Prop where
  place : ∃ place ≤ region.length, c.offset = base + UInt64.ofNat place ∧ c.unread = region.drop place
  /-- Modulo 2 ^ 64, what is left ends where the region ends. -/
  ends : c.offset + UInt64.ofNat c.unread.length = base + UInt64.ofNat region.length
  /-- Where the size is a word, the size less the way to the cursor is what is left: taken on words, the
  difference does not wrap around. -/
  left : region.length < 2 ^ 64 →
    (UInt64.ofNat region.length - (c.offset - base)).toNat = c.unread.length

/-- A step inside the region moves what is left by as much as the place. -/
theorem Reaches.ends {c d : Cursor} (h : c.Reaches d) :
    d.offset + UInt64.ofNat d.unread.length = c.offset + UInt64.ofNat c.unread.length := by
  obtain ⟨n, hn, rfl⟩ := h
  rw [advance_offset, advance_unread, List.length_drop, UInt64.add_assoc, ← UInt64.ofNat_add,
    Nat.add_sub_cancel' hn]

theorem Reaches.standsIn {region : Bytes} {base : UInt64} {c : Cursor}
    (h : Reaches { offset := base, unread := region } c) : c.StandsIn region base where
  place := by
    obtain ⟨place, hplace, rfl⟩ := h
    exact ⟨place, hplace, rfl, rfl⟩
  ends := h.ends
  left hsize := by
    obtain ⟨place, hplace, rfl⟩ := h
    change place ≤ region.length at hplace
    have hleft : region.length - place < UInt64.size := Nat.lt_of_le_of_lt (Nat.sub_le _ _) hsize
    have hway : base + UInt64.ofNat place - base = UInt64.ofNat place := by
      rw [UInt64.add_comm, UInt64.add_sub_cancel]
    rw [advance_offset, hway, ← UInt64.ofNat_sub hplace, UInt64.toNat_ofNat_of_lt' hleft,
      advance_unread, List.length_drop]

end Cursor

namespace Probe

/-! ## What a probe is to do -/

/-- The number of bytes that a fixed-width or counted read needs. -/
def need : Probe → Option Nat
  | u16 => some 2
  | u32 | i32 => some 4
  | u64 | i64 => some 8
  | bytes n | skip n => some n.toNat
  | cstring _ | finish => none

/-- There are fixed-width and counted reads, names, and the end. -/
theorem need_or (p : Probe) : (∃ n, p.need = some n) ∨ (∃ limit, p = cstring limit) ∨ p = finish := by
  cases p with
  | cstring limit => exact .inr (.inl ⟨limit, rfl⟩)
  | finish => exact .inr (.inr rfl)
  | _ => exact .inl ⟨_, rfl⟩

/-- The number of bytes that a probe takes where it gives a reading: a name takes its terminator along. -/
def consumed (p : Probe) : Reading → Nat
  | .cstring name => name.length + 1
  | _ => p.need.getD 0

/-- The number of bytes that a probe looks at, with so many left. A name is sought in a window of them; the
other reads look at what they need if it is there, and at nothing if not. -/
def looksAt (p : Probe) (left : Nat) : Nat :=
  match p with
  | cstring limit => min (limit + 1).toNat left
  | p => if p.need.getD 0 ≤ left then p.need.getD 0 else 0

/-- The number that the first bytes of a text spell in base 256, least significant digit first. -/
def spelled (width : Nat) (s : Bytes) : Nat :=
  Nat.ofDigits 256 ((s.take width).map UInt8.toNat)

/-- What a probe is to give in front of some bytes: the number in little-endian order, in two's complement
if it is signed; just the bytes asked for; the name up to the zero byte. The name is at most as long as its
limit, and under the greatest limit, where the sum wraps around to zero, there is none. -/
def Gives : (p : Probe) → (unread : Bytes) → Reading → Prop
  | u16, s, .u16 value => value.toNat = spelled 2 s
  | u32, s, .u32 value => value.toNat = spelled 4 s
  | u64, s, .u64 value => value.toNat = spelled 8 s
  | i32, s, .i32 value => value.toInt = (spelled 4 s : Int).bmod (2 ^ 32)
  | i64, s, .i64 value => value.toInt = (spelled 8 s : Int).bmod (2 ^ 64)
  | bytes n, s, .bytes value => value = s.take n.toNat
  | skip _, _, .nothing => True
  | cstring limit, s, .cstring name => 0 ∉ name ∧ name.length < (limit + 1).toNat ∧ name ++ [0] <+: s
  | finish, s, .nothing => s = []
  | _, _, _ => False

/-- A probe at a cursor keeps to the bytes that are left there. -/
structure Bounded (p : Probe) (c : Cursor) : Prop where
  /-- A read goes through with what the bytes in front spell, if they are there, and with nothing else; then
  it moves by exactly what it takes. -/
  ok_iff : ∀ {r d}, p.run c = (.ok r, d) ↔
    p.Gives c.unread r ∧ p.consumed r ≤ c.unread.length ∧ d = c.advance (p.consumed r)
  /-- A read that fails leaves the cursor where it was, and blames that place. -/
  error : ∀ {e d}, p.run c = (.error e, d) → d = c ∧ e.offset = c.offset
  /-- A fixed-width or counted read fails exactly when it needs more bytes than are left. -/
  fails_iff : ∀ {n}, p.need = some n → ((∃ e, (p.run c).1 = .error e) ↔ c.unread.length < n)
  /-- No byte is looked at that is not there. -/
  looksAt_le : p.looksAt c.unread.length ≤ c.unread.length
  /-- Nothing else matters: at the same place, with as many bytes left and the same ones to look at, the
  outcome is the same, and the cursor moves by as much. -/
  run_congr : ∀ {c' : Cursor}, c'.offset = c.offset → c'.unread.length = c.unread.length →
    c'.unread.take (p.looksAt c.unread.length) = c.unread.take (p.looksAt c.unread.length) →
    ∃ n ≤ c.unread.length, (p.run c).2 = c.advance n ∧ p.run c' = ((p.run c).1, c'.advance n)

/-! ## A probe as a function of what it looks at -/

/-- What a fixed-width or counted read makes of the bytes it takes. -/
def reading : Probe → Bytes → Reading
  | u16, s => .u16 (UInt16.ofNat (ofLittleEndian s))
  | u32, s => .u32 (UInt32.ofNat (ofLittleEndian s))
  | u64, s => .u64 (UInt64.ofNat (ofLittleEndian s))
  | i32, s => .i32 (UInt32.ofNat (ofLittleEndian s)).toInt32
  | i64, s => .i64 (UInt64.ofNat (ofLittleEndian s)).toInt64
  | bytes _, s => .bytes s
  | skip _, _ | cstring _, _ | finish, _ => .nothing

/-- What comes of a probe at a place, from the number of bytes left and those in the window. -/
def outcome (p : Probe) (offset : UInt64) (left : Nat) (window : Bytes) : Except DecodeError Reading :=
  match p with
  | cstring limit =>
    let name := untilZero window
    if name.length < window.length then .ok (.cstring name)
    else if window.length = left then .error { fault := .unterminated, offset }
    else .error { fault := .overlong limit, offset }
  | finish => if left = 0 then .ok .nothing else .error { fault := .unread left, offset }
  | p =>
    let n := p.need.getD 0
    if n ≤ left then .ok (p.reading window) else .error { fault := .short n left, offset }

theorem outcome_cstring (limit offset : UInt64) (left : Nat) (window : Bytes) :
    (cstring limit).outcome offset left window =
      if (untilZero window).length < window.length then .ok (.cstring (untilZero window))
      else if window.length = left then .error { fault := .unterminated, offset }
      else .error { fault := .overlong limit, offset } := rfl

theorem outcome_finish (offset : UInt64) (left : Nat) (window : Bytes) :
    finish.outcome offset left window =
      if left = 0 then .ok .nothing else .error { fault := .unread left, offset } := rfl

/-- How far an outcome moves the cursor. -/
def moves (p : Probe) : Except DecodeError Reading → Nat
  | .ok r => p.consumed r
  | .error _ => 0

section Counted

variable {p : Probe} {n : Nat}

/-- All fixed-width and counted reads are one: so many bytes are taken, and something is made of them. -/
theorem scan_of_need (h : p.need = some n) : p.scan = p.reading <$> Scan.take n := by
  cases p with
  | cstring | finish => cases h
  | skip k =>
    cases h
    simp only [scan, Scan.skip, bind_pure_comp, Functor.map_map]
    rfl
  | _ =>
    cases h
    simp only [scan, Scan.u16, Scan.u32, Scan.u64, Scan.i32, Scan.i64, Scan.word, Functor.map_map]
    rfl

theorem outcome_of_need (h : p.need = some n) (offset : UInt64) (left : Nat) (window : Bytes) :
    p.outcome offset left window =
      if n ≤ left then .ok (p.reading window) else .error { fault := .short n left, offset } := by
  cases p with
  | cstring | finish => cases h
  | _ => cases h; rfl

theorem looksAt_of_need (h : p.need = some n) (left : Nat) :
    p.looksAt left = if n ≤ left then n else 0 := by
  cases p with
  | cstring | finish => cases h
  | _ => cases h; rfl

theorem consumed_reading (h : p.need = some n) (s : Bytes) : p.consumed (p.reading s) = n := by
  cases p with
  | cstring | finish => cases h
  | _ => cases h; rfl

theorem gives_reading (h : p.need = some n) (s : Bytes) : p.Gives s (p.reading (s.take n)) := by
  have hlt := ofLittleEndian_take_lt n s
  have hdigits := ofLittleEndian_eq_ofDigits (s.take n)
  cases p with
  | cstring | finish => cases h
  | u16 => cases h; exact (UInt16.toNat_ofNat_of_lt' hlt).trans hdigits
  | u32 => cases h; exact (UInt32.toNat_ofNat_of_lt' hlt).trans hdigits
  | u64 => cases h; exact (UInt64.toNat_ofNat_of_lt' hlt).trans hdigits
  | i32 => cases h; exact (toInt_toInt32_ofNat _).trans (congrArg (fun k : Nat => (k : Int).bmod _) hdigits)
  | i64 => cases h; exact (toInt_toInt64_ofNat _).trans (congrArg (fun k : Nat => (k : Int).bmod _) hdigits)
  | bytes k => cases h; rfl
  | skip k => trivial

/-- Nothing else is to be given. -/
theorem eq_reading_of_gives (h : p.need = some n) {s : Bytes} {r : Reading} (hr : p.Gives s r) :
    r = p.reading (s.take n) := by
  have hread := gives_reading h s
  cases p with
  | cstring | finish => cases h
  | u16 =>
    cases r with
    | u16 value => cases h; exact congrArg _ (UInt16.toNat_inj.mp (hr.trans hread.symm))
    | _ => exact hr.elim
  | u32 =>
    cases r with
    | u32 value => cases h; exact congrArg _ (UInt32.toNat_inj.mp (hr.trans hread.symm))
    | _ => exact hr.elim
  | u64 =>
    cases r with
    | u64 value => cases h; exact congrArg _ (UInt64.toNat_inj.mp (hr.trans hread.symm))
    | _ => exact hr.elim
  | i32 =>
    cases r with
    | i32 value => cases h; exact congrArg _ (Int32.toInt_inj.mp (hr.trans hread.symm))
    | _ => exact hr.elim
  | i64 =>
    cases r with
    | i64 value => cases h; exact congrArg _ (Int64.toInt_inj.mp (hr.trans hread.symm))
    | _ => exact hr.elim
  | bytes k =>
    cases r with
    | bytes value => cases h; exact congrArg _ hr
    | _ => exact hr.elim
  | skip k =>
    cases r with
    | nothing => rfl
    | _ => exact hr.elim

end Counted

theorem looksAt_le (p : Probe) (left : Nat) : p.looksAt left ≤ left := by
  obtain ⟨n, hneed⟩ | ⟨limit, rfl⟩ | rfl := p.need_or
  · rw [looksAt_of_need hneed]
    split <;> omega
  · exact Nat.min_le_right _ _
  · exact Nat.zero_le _

section

variable {p : Probe} {c : Cursor}

theorem run_of_ok {r : Reading} (h : p.scan.run c = .ok r (c.advance (p.consumed r))) :
    p.run c = (.ok r, c.advance (p.moves (.ok r))) := by
  rw [run, h, moves]

theorem run_of_error {e : DecodeError} (h : p.scan.run c = .error e c) :
    p.run c = (.error e, c.advance (p.moves (.error e))) := by
  rw [run, h, moves, Cursor.advance_zero]

end

/-- A probe looks at its window and nowhere else: what it gives, and how far it moves, is a function of the
place, the number of bytes left and the bytes of the window. -/
theorem run_eq (p : Probe) (c : Cursor) {result : Except DecodeError Reading}
    (h : p.outcome c.offset c.unread.length (c.unread.take (p.looksAt c.unread.length)) = result) :
    p.run c = (result, c.advance (p.moves result)) := by
  obtain ⟨n, hneed⟩ | ⟨limit, rfl⟩ | rfl := p.need_or
  · rw [outcome_of_need hneed, looksAt_of_need hneed] at h
    by_cases hn : n ≤ c.unread.length
    · rw [if_pos hn, if_pos hn] at h
      subst h
      apply run_of_ok
      rw [scan_of_need hneed, consumed_reading hneed]
      exact Scan.run_map_of_ok (Scan.take_of_le hn)
    · rw [if_neg hn] at h
      subst h
      apply run_of_error
      rw [scan_of_need hneed]
      exact Scan.run_map_of_error (Scan.take_of_lt (Nat.lt_of_not_le hn))
  · have hwindow : c.unread.take ((cstring limit).looksAt c.unread.length) =
        c.unread.take (limit + 1).toNat := List.take_eq_take_min.symm
    rw [hwindow, outcome_cstring] at h
    split at h
    next hname => subst h; exact run_of_ok (Scan.run_map_of_ok (if_pos hname))
    next hname =>
      split at h
      next hall =>
        subst h
        exact run_of_error (Scan.run_map_of_error ((if_neg hname).trans (if_pos hall)))
      next hall =>
        subst h
        exact run_of_error (Scan.run_map_of_error ((if_neg hname).trans (if_neg hall)))
  · rw [outcome_finish] at h
    split at h
    next hend =>
      subst h
      have hempty : c.unread.isEmpty = true := List.isEmpty_iff.mpr (List.length_eq_zero_iff.mp hend)
      have hhere : c.advance (finish.consumed .nothing) = c := Cursor.advance_zero c
      exact run_of_ok (hhere.symm ▸ Scan.run_map_of_ok (if_pos hempty))
    next hleft =>
      subst h
      have hmore : ¬c.unread.isEmpty = true := fun hempty =>
        hleft (List.length_eq_zero_iff.mpr (List.isEmpty_iff.mp hempty))
      exact run_of_error (Scan.run_map_of_error (if_neg hmore))

/-- The name found in a window of some bytes stands in front of them with its terminator. -/
theorem gives_untilZero {limit : UInt64} {s window : Bytes}
    (hwindow : window = s.take ((cstring limit).looksAt s.length))
    (hname : (untilZero window).length < window.length) :
    (cstring limit).Gives s (.cstring (untilZero window)) ∧
      (cstring limit).consumed (.cstring (untilZero window)) ≤ s.length := by
  have hfront : window <+: s := hwindow ▸ List.take_prefix _ s
  have hlimit : window.length ≤ (limit + 1).toNat :=
    hwindow ▸ (List.length_take_le _ s).trans (Nat.min_le_left _ _)
  have hterminated : untilZero window ++ [0] <+: window :=
    ⟨_, (List.append_assoc _ _ _).trans (untilZero_append_drop hname)⟩
  exact ⟨⟨zero_notMem_untilZero _, by omega, hterminated.trans hfront⟩,
    Nat.le_trans hname hfront.length_le⟩

theorem gives_of_outcome {p : Probe} {offset : UInt64} {s : Bytes} {r : Reading}
    (h : p.outcome offset s.length (s.take (p.looksAt s.length)) = .ok r) :
    p.Gives s r ∧ p.consumed r ≤ s.length := by
  obtain ⟨n, hneed⟩ | ⟨limit, rfl⟩ | rfl := p.need_or
  · rw [outcome_of_need hneed, looksAt_of_need hneed] at h
    by_cases hn : n ≤ s.length
    · rw [if_pos hn, if_pos hn] at h
      cases h
      exact ⟨gives_reading hneed s, (consumed_reading hneed _).trans_le hn⟩
    · rw [if_neg hn] at h
      cases h
  · rw [outcome_cstring] at h
    split at h
    next hname => cases h; exact gives_untilZero rfl hname
    next => split at h <;> cases h
  · rw [outcome_finish] at h
    split at h
    next hend => cases h; exact ⟨List.length_eq_zero_iff.mp hend, Nat.zero_le _⟩
    next => cases h

/-- What is to be given is given, where there are enough bytes. -/
theorem run_of_gives {p : Probe} {c : Cursor} {r : Reading} (hr : p.Gives c.unread r)
    (hle : p.consumed r ≤ c.unread.length) : p.run c = (.ok r, c.advance (p.moves (.ok r))) := by
  obtain ⟨n, hneed⟩ | ⟨limit, rfl⟩ | rfl := p.need_or
  · obtain rfl := eq_reading_of_gives hneed hr
    rw [consumed_reading hneed] at hle
    apply run_eq
    rw [outcome_of_need hneed, looksAt_of_need hneed, if_pos hle, if_pos hle]
  · cases r with
    | cstring name =>
      obtain ⟨hzero, hlimit, rest, hrest⟩ := hr
      rw [List.append_assoc] at hrest
      exact run_of_ok (Scan.run_map_of_ok (Scan.cstring_of_terminated hzero hlimit hrest.symm))
    | _ => exact hr.elim
  · cases r with
    | nothing =>
      have hend : c.unread.length = 0 := List.length_eq_zero_iff.mpr hr
      exact run_eq finish c (if_pos hend)
    | _ => exact hr.elim

theorem blame_of_outcome {p : Probe} {offset : UInt64} {left : Nat} {window : Bytes} {e : DecodeError}
    (h : p.outcome offset left window = .error e) : e.offset = offset := by
  obtain ⟨n, hneed⟩ | ⟨limit, rfl⟩ | rfl := p.need_or
  · rw [outcome_of_need hneed] at h
    split at h <;> cases h
    rfl
  · rw [outcome_cstring] at h
    split at h
    next => cases h
    next => split at h <;> cases h <;> rfl
  · rw [outcome_finish] at h
    split at h <;> cases h
    rfl

theorem bounded (p : Probe) (c : Cursor) : p.Bounded c where
  ok_iff {r d} := by
    constructor
    · intro h
      rw [run_eq p c rfl] at h
      obtain ⟨hresult, hd⟩ := Prod.mk.inj h
      obtain ⟨hgives, hle⟩ := gives_of_outcome hresult
      rw [hresult] at hd
      exact ⟨hgives, hle, hd.symm⟩
    · rintro ⟨hgives, hle, rfl⟩
      exact run_of_gives hgives hle
  error {e d} h := by
    rw [run_eq p c rfl] at h
    obtain ⟨hresult, hd⟩ := Prod.mk.inj h
    rw [hresult, moves, Cursor.advance_zero] at hd
    exact ⟨hd.symm, blame_of_outcome hresult⟩
  fails_iff {n} hneed := by
    rw [run_eq p c rfl, outcome_of_need hneed]
    by_cases hn : n ≤ c.unread.length
    · rw [if_pos hn]
      exact iff_of_false (fun ⟨_, he⟩ => nomatch he) (by omega)
    · rw [if_neg hn]
      exact iff_of_true ⟨_, rfl⟩ (by omega)
  looksAt_le := looksAt_le p _
  run_congr {c'} hoffset hleft hwindow := by
    refine ⟨p.moves (p.outcome c.offset c.unread.length (c.unread.take (p.looksAt c.unread.length))),
      ?_, congrArg Prod.snd (run_eq p c rfl), ?_⟩
    · cases hresult : p.outcome c.offset c.unread.length (c.unread.take (p.looksAt c.unread.length)) with
      | ok r => exact (gives_of_outcome hresult).2
      | error e => exact Nat.zero_le _
    · rw [run_eq p c rfl]
      exact run_eq p c' (by rw [hoffset, hleft, hwindow])

/-! ## Runs -/

/-- The cursor that a run of probes leaves. -/
def leave : List Probe → Cursor → Cursor
  | [], c => c
  | p :: rest, c => leave rest (p.run c).2

/-- One probe, through or not, keeps its cursor in the region. -/
theorem reaches_run (p : Probe) (c : Cursor) : c.Reaches (p.run c).2 := by
  obtain ⟨n, hn, hmove, -⟩ := (bounded p c).run_congr rfl rfl rfl
  exact ⟨n, hn, hmove⟩

/-- So does a run, since the next probe starts from where the last one left it. -/
theorem reaches_leave (probes : List Probe) (c : Cursor) : c.Reaches (leave probes c) := by
  induction probes generalizing c with
  | nil => exact c.reaches_refl
  | cons p rest ih => exact (reaches_run p c).trans (ih (p.run c).2)

theorem leave_append (probes more : List Probe) (c : Cursor) :
    leave (probes ++ more) c = leave more (leave probes c) := by
  induction probes generalizing c with
  | nil => rfl
  | cons p rest ih => exact ih (p.run c).2

/-- Behind some probes, a run goes on from the cursor that they leave. -/
theorem runAll_append (probes more : List Probe) (c : Cursor) :
    runAll (probes ++ more) c = runAll probes c ++ runAll more (leave probes c) := by
  induction probes generalizing c with
  | nil => rfl
  | cons p rest ih => exact congrArg (p.run c :: ·) (ih (p.run c).2)

theorem length_runAll (probes : List Probe) (c : Cursor) : (runAll probes c).length = probes.length := by
  induction probes generalizing c with
  | nil => rfl
  | cons p rest ih => exact congrArg (· + 1) (ih (p.run c).2)

/-- At every step of every run on a region, whatever went through and whatever failed before, the probe
runs at the cursor that the probes before it left; the cursor stands in the region before the probe and after
it; and the probe keeps to the bytes that are left. -/
theorem runAll_bounded (region : Bytes) (base : UInt64) (before : List Probe) (p : Probe)
    (after : List Probe) :
    let start : Cursor := { offset := base, unread := region }
    let c := leave before start
    (runAll (before ++ p :: after) start)[before.length]? = some (p.run c) ∧
      leave (before ++ [p]) start = (p.run c).2 ∧
      c.StandsIn region base ∧ (p.run c).2.StandsIn region base ∧ p.Bounded c := by
  intro start c
  have hreach := reaches_leave before start
  refine ⟨?_, leave_append before [p] start, hreach.standsIn, (hreach.trans (reaches_run p c)).standsIn,
    bounded p c⟩
  rw [runAll_append, List.getElem?_append_right (length_runAll before start).le, length_runAll, Nat.sub_self]
  rfl

/-- Six probes on three bytes, at a place near the top of the range: too long a word, two bytes, a count and
a name at the greatest limit, the last byte, and the end. -/
example :
    (runAll [.u32, .u16, .skip (-1), .cstring (-1), .bytes 1, .finish]
        { offset := -2, unread := [1, 2, 0] }).map (·.2) =
      [⟨-2, [1, 2, 0]⟩, ⟨0, [0]⟩, ⟨0, [0]⟩, ⟨0, [0]⟩, ⟨1, []⟩, ⟨1, []⟩] := by
  decide

end Probe

end FuseAbi
