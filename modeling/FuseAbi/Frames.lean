import FuseAbi.Header

/-!
# Framing a stream

A stream holds requests back to back, each as long as its header says. Splitting it looks at nothing but the
lengths. It stops at the first place where no frame fits: fewer bytes than a header are left, or the length
there does not cover a header, or it runs past the end.

**The law.** The frames and what is left over make up the stream, in order and without a gap.
-/

namespace FuseAbi.Frames

/-- The number in the first four bytes, or zero where there are not as many. -/
def declaredLength (s : Bytes) : Nat :=
  let word := s.take 4
  if word.length < 4 then 0 else ofLittleEndian word

/-- The frame at the start of a stream and the rest of the stream. That the stream has a header's worth of
bytes follows from the two checks and needs none of its own. -/
def next? (s : Bytes) : Option (Bytes × Bytes) :=
  let len := declaredLength s
  let frame := s.take len
  if len < Header.size ∨ frame.length < len then none else some (frame, s.drop len)

theorem append_of_next? {s frame rest : Bytes} (h : next? s = some (frame, rest)) : frame ++ rest = s := by
  simp only [next?] at h
  split at h
  · cases h
  · cases h
    exact List.take_append_drop _ _

theorem length_le_of_next? {s frame rest : Bytes} (h : next? s = some (frame, rest)) :
    Header.size ≤ frame.length := by
  simp only [next?] at h
  split at h
  · cases h
  · cases h
    omega

theorem length_lt_of_next? {s frame rest : Bytes} (h : next? s = some (frame, rest)) :
    rest.length < s.length := by
  have len := congrArg List.length (append_of_next? h)
  have size := length_le_of_next? h
  simp only [List.length_append, Header.size] at len size
  omega

/-- The frames of a stream, and what is left where no further frame fits. -/
def split (s : Bytes) : List Bytes × Bytes :=
  match _ : next? s with
  | none => ([], s)
  | some (frame, rest) =>
    let (frames, left) := split rest
    (frame :: frames, left)
termination_by s.length
decreasing_by exact length_lt_of_next? (by assumption)

/-- Nothing of a stream is lost, added or moved. -/
theorem flatten_split (s : Bytes) : (split s).1.flatten ++ (split s).2 = s := by
  fun_induction split s with
  | case1 s h => rfl
  | case2 s frame rest h frames left hsplit ih =>
    rw [hsplit] at ih
    rw [List.flatten_cons, List.append_assoc, ih, append_of_next? h]

end FuseAbi.Frames
