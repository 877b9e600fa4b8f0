import FuseAbi.Cursor
import FuseAbi.Proofs.Text

/-!
# Laws of scans

Every read in this library is made of a few primitive ones, so a fact about reads is proved in two
steps: for each primitive, and for putting two reads behind one another. This module holds the two
facts that later proofs are made of.

`Scan.Lawful` is what a read does to its cursor. Whether it goes through or not, the cursor it
leaves stands further on in the same region, and a failure is blamed on a place of that region. The
law is taken with a set of faults, so that the same proof says which faults a read can meet.

`Scan.Extends` is prefix stability: a read that goes through gives the same value where more bytes
follow the region, and leaves them alone. It fails of a read that asks how many bytes are left, and
there is one such read (`Part.readForgets`).
-/

namespace FuseAbi

namespace Cursor

@[simp] theorem advance_offset (c : Cursor) (n : Nat) :
    (c.advance n).offset = c.offset + UInt64.ofNat n := rfl

@[simp] theorem advance_unread (c : Cursor) (n : Nat) : (c.advance n).unread = c.unread.drop n := rfl

@[simp] theorem advance_zero (c : Cursor) : c.advance 0 = c := by
  have hoffset : c.offset + UInt64.ofNat 0 = c.offset := UInt64.add_zero c.offset
  simp only [advance, hoffset, List.drop_zero]

/-- Two steps on are one step as long as both. -/
theorem advance_advance (c : Cursor) (m n : Nat) : (c.advance m).advance n = c.advance (m + n) := by
  simp only [advance, List.drop_drop, UInt64.ofNat_add, UInt64.add_assoc]

/-- The cursor with more bytes behind its region. -/
def extend (c : Cursor) (more : Bytes) : Cursor where
  offset := c.offset
  unread := c.unread ++ more

@[simp] theorem extend_unread (c : Cursor) (more : Bytes) :
    (c.extend more).unread = c.unread ++ more := rfl

/-- Inside the region it makes no difference whether more bytes follow it. -/
theorem extend_advance {c : Cursor} {n : Nat} (h : n ≤ c.unread.length) (more : Bytes) :
    (c.extend more).advance n = (c.advance n).extend more := by
  simp only [advance, extend, List.drop_append_of_le_length h]

/-- `c.Reaches d`: the cursor `d` stands in the region of `c`, at `c` or further on. -/
def Reaches (c d : Cursor) : Prop :=
  ∃ n ≤ c.unread.length, d = c.advance n

theorem reaches_refl (c : Cursor) : c.Reaches c :=
  ⟨0, Nat.zero_le _, (advance_zero c).symm⟩

theorem reaches_advance {c : Cursor} {n : Nat} (h : n ≤ c.unread.length) : c.Reaches (c.advance n) :=
  ⟨n, h, rfl⟩

theorem Reaches.trans {c d e : Cursor} (hcd : c.Reaches d) (hde : d.Reaches e) : c.Reaches e := by
  obtain ⟨m, hm, rfl⟩ := hcd
  obtain ⟨n, hn, rfl⟩ := hde
  rw [advance_unread, List.length_drop] at hn
  exact ⟨m + n, by omega, advance_advance c m n⟩

end Cursor

/-- An error that is blamed on a place in the region of a cursor, and on no opcode yet. -/
def DecodeError.BlamedIn (e : DecodeError) (c : Cursor) : Prop :=
  e.opcode = 0 ∧ ∃ n ≤ c.unread.length, e.offset = c.offset + UInt64.ofNat n

/-- A place further on in a region is a place in the region. -/
theorem DecodeError.BlamedIn.of_reaches {e : DecodeError} {c d : Cursor} (h : e.BlamedIn d)
    (hcd : c.Reaches d) : e.BlamedIn c := by
  obtain ⟨m, hm, rfl⟩ := hcd
  obtain ⟨hop, n, hn, hoff⟩ := h
  rw [Cursor.advance_unread, List.length_drop] at hn
  refine ⟨hop, m + n, by omega, ?_⟩
  rw [hoff, Cursor.advance_offset, UInt64.ofNat_add, UInt64.add_assoc]

namespace Scan

variable {α β : Type}

/-- Behind a read that goes through, the next one starts from the cursor it leaves. -/
theorem run_bind_of_ok {s : Scan α} {f : α → Scan β} {c d : Cursor} {a : α} (h : s.run c = .ok a d) :
    (s >>= f).run c = (f a).run d := by
  rw [EStateM.run_bind, h]

/-- Behind a read that fails, nothing is read. -/
theorem run_bind_of_error {s : Scan α} {f : α → Scan β} {c d : Cursor} {e : DecodeError}
    (h : s.run c = .error e d) : (s >>= f).run c = .error e d := by
  rw [EStateM.run_bind, h]

theorem run_map_of_ok {s : Scan α} {f : α → β} {c d : Cursor} {a : α} (h : s.run c = .ok a d) :
    (f <$> s).run c = .ok (f a) d := by
  rw [← bind_pure_comp]
  exact run_bind_of_ok h

theorem run_map_of_error {s : Scan α} {f : α → β} {c d : Cursor} {e : DecodeError}
    (h : s.run c = .error e d) : (f <$> s).run c = .error e d := by
  rw [← bind_pure_comp]
  exact run_bind_of_error h

theorem eval_of_ok {s : Scan α} {c d : Cursor} {a : α} (h : s.run c = .ok a d) : s.eval c = .ok a := by
  rw [eval, h]

theorem eval_of_error {s : Scan α} {c d : Cursor} {e : DecodeError} (h : s.run c = .error e d) :
    s.eval c = .error e := by
  rw [eval, h]

theorem eval_map (f : α → β) (s : Scan α) (c : Cursor) : (f <$> s).eval c = (s.eval c).map f := by
  cases h : s.run c with
  | ok a d => rw [eval_of_ok h, eval_of_ok (run_map_of_ok h), Except.map]
  | error e d => rw [eval_of_error h, eval_of_error (run_map_of_error h), Except.map]

/-! ## What a read does to its cursor -/

/-- The law of the cursor, with the faults that the read can meet. -/
structure Lawful (faults : Fault → Prop) (s : Scan α) : Prop where
  /-- A read that goes through leaves its cursor in the region. -/
  ok : ∀ {c a d}, s.run c = .ok a d → c.Reaches d
  /-- A read that fails leaves it there too, and blames a place of the region. -/
  error : ∀ {c e d}, s.run c = .error e d → c.Reaches d ∧ e.BlamedIn c ∧ faults e.fault

variable {faults : Fault → Prop}

theorem lawful_pure (a : α) : Lawful faults (pure a : Scan α) where
  ok h := by cases h; exact Cursor.reaches_refl _
  error h := by cases h

/-- One read behind the other: the second starts inside the region of the first. -/
theorem Lawful.bind {s : Scan α} {f : α → Scan β} (hs : Lawful faults s)
    (hf : ∀ a, Lawful faults (f a)) : Lawful faults (s >>= f) where
  ok {c b d} h := by
    cases hrun : s.run c with
    | ok a c' =>
      rw [run_bind_of_ok hrun] at h
      exact (hs.ok hrun).trans ((hf a).ok h)
    | error e c' => rw [run_bind_of_error hrun] at h; cases h
  error {c e d} h := by
    cases hrun : s.run c with
    | ok a c' =>
      rw [run_bind_of_ok hrun] at h
      have hc := hs.ok hrun
      obtain ⟨hd, hblame, hfault⟩ := (hf a).error h
      exact ⟨hc.trans hd, hblame.of_reaches hc, hfault⟩
    | error e' c' =>
      rw [run_bind_of_error hrun] at h
      cases h
      exact hs.error hrun

theorem Lawful.map {s : Scan α} (hs : Lawful faults s) (f : α → β) : Lawful faults (f <$> s) := by
  rw [← bind_pure_comp]
  exact hs.bind fun a => lawful_pure (f a)

theorem Lawful.mono {faults' : Fault → Prop} {s : Scan α} (hs : Lawful faults s)
    (h : ∀ fault, faults fault → faults' fault) : Lawful faults' s where
  ok := hs.ok
  error hrun := ⟨(hs.error hrun).1, (hs.error hrun).2.1, h _ (hs.error hrun).2.2⟩

/-! ## Prefix stability -/

/-- A read that goes through does so in front of any further bytes, and leaves them alone. -/
def Extends (s : Scan α) : Prop :=
  ∀ ⦃c a d⦄, s.run c = .ok a d → ∀ more, s.run (c.extend more) = .ok a (d.extend more)

theorem extends_pure (a : α) : Extends (pure a : Scan α) := by
  intro c b d h more
  cases h
  rfl

theorem Extends.bind {s : Scan α} {f : α → Scan β} (hs : Extends s) (hf : ∀ a, Extends (f a)) :
    Extends (s >>= f) := by
  intro c b d h more
  cases hrun : s.run c with
  | ok a c' =>
    rw [run_bind_of_ok hrun] at h
    rw [run_bind_of_ok (hs hrun more)]
    exact hf a h more
  | error e c' => rw [run_bind_of_error hrun] at h; cases h

/-! ## Counted reads -/

/-- A counted read goes through where there are as many bytes. -/
theorem take_of_le {n : Nat} {c : Cursor} (h : n ≤ c.unread.length) :
    (take n).run c = .ok (c.unread.take n) (c.advance n) := by
  rw [take_run, if_pos h]

/-- A counted read that lacks bytes fails where it stands. -/
theorem take_of_lt {n : Nat} {c : Cursor} (h : c.unread.length < n) :
    (take n).run c = .error { fault := .short n c.unread.length, offset := c.offset } c := by
  rw [take_run, if_neg (by omega)]

/-- A counted read gives just the bytes that it takes. -/
theorem take_ok {n : Nat} {c d : Cursor} {bytes : Bytes} (h : (take n).run c = .ok bytes d) :
    n ≤ c.unread.length ∧ bytes = c.unread.take n ∧ d = c.advance n := by
  rw [take_run] at h
  split at h
  next hle => cases h; exact ⟨hle, rfl, rfl⟩
  next => cases h

theorem blamedIn_here (fault : Fault) (c : Cursor) :
    DecodeError.BlamedIn { fault, offset := c.offset } c :=
  ⟨rfl, 0, Nat.zero_le _, (UInt64.add_zero c.offset).symm⟩

theorem lawful_take (n : Nat) : Lawful (Fault.OfKind .truncated) (take n) where
  ok h := by
    obtain ⟨hle, -, rfl⟩ := take_ok h
    exact Cursor.reaches_advance hle
  error {c e d} h := by
    rw [take_run] at h
    split at h
    next => cases h
    next =>
      cases h
      exact ⟨Cursor.reaches_refl c, blamedIn_here _ c, rfl, trivial⟩

theorem extends_take (n : Nat) : Extends (take n) := by
  intro c bytes d h more
  obtain ⟨hle, rfl, rfl⟩ := take_ok h
  have hmore : n ≤ (c.extend more).unread.length := by
    rw [Cursor.extend_unread, List.length_append]
    omega
  rw [take_of_le hmore, Cursor.extend_unread, List.take_append_of_le_length hle,
    Cursor.extend_advance hle]

/-! ## Names -/

/-- A name that is read holds no zero byte and is within its limit, and its terminator follows it. -/
theorem cstring_ok {limit : UInt64} {c d : Cursor} {name : Bytes}
    (h : (cstring limit).run c = .ok name d) :
    0 ∉ name ∧ name.length < (limit + 1).toNat ∧ c.unread = name ++ 0 :: d.unread ∧
      d = c.advance (name.length + 1) := by
  simp only [cstring, EStateM.run] at h
  split at h
  next hlt =>
    cases h
    have hwindow := untilZero_append_drop hlt
    have hlimit := List.length_take_le (limit + 1).toNat c.unread
    refine ⟨zero_notMem_untilZero _, by omega, ?_, rfl⟩
    -- the window is a front part of the region, so the region too goes on behind the terminator
    generalize untilZero (c.unread.take (limit + 1).toNat) = name at *
    have hregion := List.take_append_drop (limit + 1).toNat c.unread
    rw [← hwindow, List.append_assoc, List.cons_append] at hregion
    have hrest := congrArg (List.drop (name.length + 1)) hregion
    rw [List.drop_append, List.drop_eq_nil_of_le (Nat.le_succ _), Nat.add_sub_cancel_left,
      List.nil_append, List.drop_succ_cons, List.drop_zero] at hrest
    rw [Cursor.advance_unread, ← hrest, hregion]
  next => split at h <;> cases h

/-- A name within its limit is read up to its terminator, whatever follows. -/
theorem cstring_of_terminated {limit : UInt64} {c : Cursor} {name rest : Bytes} (hzero : 0 ∉ name)
    (hlimit : name.length < (limit + 1).toNat) (h : c.unread = name ++ 0 :: rest) :
    (cstring limit).run c = .ok name (c.advance (name.length + 1)) := by
  have hwindow : c.unread.take (limit + 1).toNat =
      name ++ 0 :: rest.take ((limit + 1).toNat - name.length - 1) := by
    rw [h, List.take_append, List.take_of_length_le (by omega),
      show (limit + 1).toNat - name.length = (limit + 1).toNat - name.length - 1 + 1 by omega,
      List.take_succ_cons, Nat.add_sub_cancel]
  simp only [cstring, EStateM.run, hwindow, untilZero_append_zero hzero]
  rw [if_pos (by rw [List.length_append, List.length_cons]; omega)]

theorem lawful_cstring (limit : UInt64) : Lawful (Fault.OfKind .invalidString) (cstring limit) where
  ok {c name d} h := by
    obtain ⟨-, -, hunread, rfl⟩ := cstring_ok h
    refine Cursor.reaches_advance ?_
    rw [hunread, List.length_append, List.length_cons]
    omega
  error {c e d} h := by
    simp only [cstring, EStateM.run] at h
    split at h
    · cases h
    · split at h
      · cases h
        exact ⟨Cursor.reaches_refl c, blamedIn_here _ c, rfl, trivial⟩
      · cases h
        exact ⟨Cursor.reaches_refl c, blamedIn_here _ c, rfl, trivial⟩

theorem extends_cstring (limit : UInt64) : Extends (cstring limit) := by
  intro c name d h more
  obtain ⟨hzero, hlimit, hunread, rfl⟩ := cstring_ok h
  have hle : name.length + 1 ≤ c.unread.length := by
    rw [hunread, List.length_append, List.length_cons]
    omega
  have hmore : (c.extend more).unread =
      name ++ 0 :: ((c.advance (name.length + 1)).unread ++ more) := by
    rw [Cursor.extend_unread, hunread, List.append_assoc, List.cons_append]
  rw [cstring_of_terminated hzero hlimit hmore, Cursor.extend_advance hle]

end Scan

end FuseAbi
