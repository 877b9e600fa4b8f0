import FuseAbi.Proofs.Classification
import FuseAbi.Proofs.Report

/-!
# How a stream is cut into requests

A stream is cut by lengths that it states itself, so that the cut is exact has to be said without the loop that
makes it. `Framed` says it: the frames and the rest make up the stream, each frame is as long as its own header
declares, and the rest is where no header is read. There is just one such cut, and `Frames.split` finds it
(`Frames.split_eq_iff`).

The step is `Frames.next?`. Its test on lengths is its own; that it goes through exactly where a header is read
is `Frames.next?_eq_none_iff`. From then on nothing of the loop is left: what is shown of a stream is what is
shown of its frames one by one (`dumpStream_partition`), and as frames have the length that they declare, none
is refused for its length or for want of a header.
-/

namespace FuseAbi

/-- A stream as a list of frames and a rest: every frame has the length that it declares, and at the rest no
header is read. -/
structure Framed (stream : Bytes) (frames : List Bytes) (left : Bytes) : Prop where
  flatten_append : frames.flatten ++ left = stream
  length_frame : ∀ frame ∈ frames, 40 ≤ frame.length ∧ (wordAt frame 0).toNat = frame.length
  left_stuck : left = [] ∨ ∃ e, Header.decode left = .error e

namespace Frames

variable {s frame rest left : Bytes} {frames : List Bytes}

/-! ## One frame -/

theorem declaredLength_of_lt (h : s.length < 4) : declaredLength s = 0 := by
  have htake : (s.take 4).length < 4 := by
    rw [List.length_take]
    omega
  rw [declaredLength, if_pos htake]

theorem declaredLength_of_le (h : 4 ≤ s.length) : declaredLength s = (wordAt s 0).toNat := by
  have htake : ¬ (s.take 4).length < 4 := by
    rw [List.length_take]
    omega
  rw [declaredLength, if_neg htake, toNat_wordAt, List.drop_zero]

/-- The declared length of a stream is that of a frame in front of it. -/
theorem declaredLength_append (h : 40 ≤ frame.length) (rest : Bytes) :
    declaredLength (frame ++ rest) = (wordAt frame 0).toNat := by
  have hlong : 4 ≤ (frame ++ rest).length := by
    rw [List.length_append]
    omega
  rw [declaredLength_of_le hlong, toNat_wordAt, toNat_wordAt, List.drop_zero, List.drop_zero,
    List.take_append_of_le_length (by omega)]

/-- A frame is cut off where the stream starts with as many bytes as it declares. -/
theorem next?_eq_some_iff :
    next? s = some (frame, rest) ↔
      frame ++ rest = s ∧ 40 ≤ frame.length ∧ (wordAt frame 0).toNat = frame.length := by
  constructor
  · intro h
    have happend := append_of_next? h
    have hsize : 40 ≤ frame.length := length_le_of_next? h
    have hdeclared := declaredLength_append hsize rest
    rw [happend] at hdeclared
    simp only [next?] at h
    split at h
    · cases h
    next hfits =>
      obtain ⟨-, hle⟩ := not_or.mp hfits
      obtain ⟨hframe, -⟩ := Prod.mk.inj (Option.some.inj h)
      rw [hframe] at hle
      have htake : frame.length ≤ declaredLength s := by
        rw [← hframe]
        exact List.length_take_le _ _
      exact ⟨happend, hsize, by omega⟩
  · rintro ⟨rfl, hsize, hlen⟩
    have hdeclared : declaredLength (frame ++ rest) = frame.length :=
      (declaredLength_append hsize rest).trans hlen
    have hheader : Header.size = 40 := rfl
    have hfits : ¬ (frame.length < Header.size ∨ frame.length < frame.length) := by omega
    simp only [next?, hdeclared, List.take_left, List.drop_left, if_neg hfits]

/-- No frame is cut off where no header is read, and only there. -/
theorem next?_eq_none_iff : next? s = none ↔ ∃ e, Header.decode s = .error e := by
  have hheader : Header.size = 40 := rfl
  rw [Header.decode_eq_error_iff, next?]
  by_cases hlong : 4 ≤ s.length
  · rw [declaredLength_of_le hlong, List.length_take, hheader]
    simp only [ite_eq_left_iff, reduceCtorEq, imp_false, not_not]
    omega
  · have hstuck : declaredLength s < Header.size ∨
        (s.take (declaredLength s)).length < declaredLength s := by
      rw [declaredLength_of_lt (Nat.lt_of_not_le hlong)]
      exact .inl (by decide)
    exact iff_of_true (if_pos hstuck) (by omega)

/-! ## The whole stream -/

theorem split_of_none (h : next? s = none) : split s = ([], s) := by
  rw [split]
  split
  · rfl
  next hsome => cases h.symm.trans hsome

theorem split_of_some (h : next? s = some (frame, rest)) :
    split s = (frame :: (split rest).1, (split rest).2) := by
  rw [split]
  split
  next hnone => cases h.symm.trans hnone
  next hsome =>
    cases h.symm.trans hsome
    rfl

theorem length_of_mem_split (s : Bytes) :
    ∀ frame ∈ (split s).1, 40 ≤ frame.length ∧ (wordAt frame 0).toNat = frame.length := by
  fun_induction split s with
  | case1 s h => exact List.forall_mem_nil _
  | case2 s frame rest h frames left hsplit ih =>
    rw [hsplit] at ih
    exact List.forall_mem_cons.mpr ⟨(next?_eq_some_iff.mp h).2, ih⟩

/-- The cutting stops where no further frame fits. -/
theorem next?_left (s : Bytes) : next? (split s).2 = none := by
  fun_induction split s with
  | case1 s h => exact h
  | case2 s frame rest h frames left hsplit ih => rwa [hsplit] at ih

/-- The cut that is made is one into frames and a rest. -/
theorem framed_split (s : Bytes) : Framed s (split s).1 (split s).2 where
  flatten_append := flatten_split s
  length_frame := length_of_mem_split s
  left_stuck := .inr (next?_eq_none_iff.mp (next?_left s))

/-- Every cut into frames and a rest is the one that is made: a frame in front of a stream is the next one. -/
theorem split_eq_of_framed (h : Framed s frames left) : split s = (frames, left) := by
  induction frames generalizing s with
  | nil =>
    have hs : left = s := h.flatten_append
    subst hs
    refine split_of_none (next?_eq_none_iff.mpr ?_)
    rcases h.left_stuck with rfl | hstuck
    · exact ⟨_, rfl⟩
    · exact hstuck
  | cons frame frames ih =>
    obtain ⟨hframe, hframes⟩ := List.forall_mem_cons.mp h.length_frame
    have happend := h.flatten_append
    rw [List.flatten_cons, List.append_assoc] at happend
    have hrest := ih ⟨rfl, hframes, h.left_stuck⟩
    rw [split_of_some (next?_eq_some_iff.mpr ⟨happend, hframe⟩), hrest]

theorem split_eq_iff : split s = (frames, left) ↔ Framed s frames left := by
  constructor
  · intro h
    have hframed := framed_split s
    rwa [h] at hframed
  · exact split_eq_of_framed

end Frames

/-! ## Requests in a stream -/

namespace Request

/-- A frame is not refused for its length, and a place where it is cut short lies behind its header. -/
theorem refused_frame {minor : Minor} {frame : Bytes}
    (hframe : 40 ≤ frame.length ∧ (wordAt frame 0).toNat = frame.length) {e : DecodeError}
    (he : decode minor frame = .error e) :
    e.kind ≠ .lengthMismatch ∧ (e.kind = .truncated → 40 ≤ e.offset.toNat) := by
  obtain ⟨hsize, hlen⟩ := hframe
  have hword := (wordAt frame 0).toNat_lt
  by_cases hdecodes : minor.Decodes (wordAt frame 4)
  · obtain ⟨hkind, hoffset, -⟩ := refused_arguments (by omega) hsize hlen hdecodes he
    refine ⟨?_, fun _ => hoffset⟩
    intro hmismatch
    rcases hkind with hk | hk | hk | hk <;> cases hmismatch.symm.trans hk
  · have hkind := (refused_opcode hsize hlen hdecodes).kind_eq he
    refine ⟨?_, ?_⟩
    · intro hmismatch
      cases hmismatch.symm.trans hkind
    · intro htruncated
      cases htruncated.symm.trans hkind

end Request

namespace Dump

variable (settings : Settings) (path : Bytes)

/-- The complaint about a rest in which no frame fits; there is none about a stream that is used up. -/
def leftComplaint (path : Bytes) (frames : List Bytes) (left : Bytes) : Bytes :=
  if left = [] then []
  else
    path ++ ascii ": cannot frame request at offset " ++ decimal frames.flatten.length ++ ascii " (len=" ++
      decimal (if left.length < 4 then 0 else (wordAt left 0).toNat) ++ ascii ", " ++ decimal left.length ++
      ascii " bytes left)\n"

/-- What is shown of a stream is what is shown of its frames, and then the complaint about the rest. -/
theorem dumpStream_of_framed {stream : Bytes} {frames : List Bytes} {left : Bytes}
    (h : Framed stream frames left) :
    dumpStream settings path stream =
      Report.concat (frames.map (dumpRequest settings path)) ++
        { stderr := leftComplaint path frames left, status := if left = [] then 0 else 1 } := by
  have hsplit := Frames.split_eq_of_framed h
  by_cases hleft : left = []
  · simp only [dumpStream, hsplit, hleft, leftComplaint, List.isEmpty_nil, if_true, Report.append_empty]
  · have hplace : stream.length - left.length = frames.flatten.length := by
      rw [← h.flatten_append, List.length_append, Nat.add_sub_cancel]
    have hdeclared : Frames.declaredLength left =
        if left.length < 4 then 0 else (wordAt left 0).toNat := by
      split
      next hshort => exact Frames.declaredLength_of_lt hshort
      next hlong => exact Frames.declaredLength_of_le (Nat.le_of_not_lt hlong)
    simp only [dumpStream, hsplit, List.isEmpty_iff, if_neg hleft, frameComplaint, leftComplaint, hplace,
      hdeclared]

/-- A stream goes well when nothing of it is left and each of its frames decodes. -/
theorem dumpStream_status_eq_zero_iff {stream : Bytes} {frames : List Bytes} {left : Bytes}
    (h : Framed stream frames left) :
    (dumpStream settings path stream).status = 0 ↔
      left = [] ∧ ∀ frame ∈ frames, ∃ request, Request.decode settings.minor frame = .ok request := by
  have hframes : (Report.concat (frames.map (dumpRequest settings path))).status ≤ 0 ↔
      ∀ frame ∈ frames, ∃ request, Request.decode settings.minor frame = .ok request := by
    rw [Report.concat_status_le_iff]
    simp only [List.forall_mem_map, Nat.le_zero, dumpRequest_status_eq_zero_iff]
  have hleft : (if left = [] then 0 else 1) ≤ 0 ↔ left = [] := by simp
  rw [dumpStream_of_framed settings path h, ← Nat.le_zero, Report.append_status, Nat.max_le, hframes, hleft,
    and_comm]

theorem dumpStream_status_le {stream : Bytes} {frames : List Bytes} {left : Bytes}
    (h : Framed stream frames left) : (dumpStream settings path stream).status ≤ 1 := by
  have hleft : (if left = [] then 0 else 1) ≤ 1 := by
    split <;> decide
  rw [dumpStream_of_framed settings path h, Report.append_status, Nat.max_le]
  refine ⟨Report.concat_status_le_iff.mpr ?_, hleft⟩
  intro report hreport
  obtain ⟨frame, -, rfl⟩ := List.mem_map.mp hreport
  exact dumpRequest_status_le settings path frame

/-- A stream falls into frames and a rest in just one way. What is shown of it, and logged, is what is shown of
each frame on its own, in order, and nothing of the rest but a complaint that says where it starts. It goes well
when nothing is left and each frame decodes, and no frame is refused for its length or for want of a header. -/
theorem dumpStream_partition (settings : Settings) (path stream : Bytes) :
    ∃ frames left, Framed stream frames left ∧
      (∀ frames' left', Framed stream frames' left' → frames' = frames ∧ left' = left) ∧
      (dumpStream settings path stream).stdout =
        frames.flatMap (fun frame => (dumpRequest settings path frame).stdout) ∧
      (dumpStream settings path stream).stderr = leftComplaint path frames left ∧
      (dumpStream settings path stream).log =
        frames.flatMap (fun frame => (dumpRequest settings path frame).log) ∧
      (dumpStream settings path stream).status ≤ 1 ∧
      ((dumpStream settings path stream).status = 0 ↔
        left = [] ∧ ∀ frame ∈ frames, ∃ request, Request.decode settings.minor frame = .ok request) ∧
      ∀ frame ∈ frames, ∀ e, Request.decode settings.minor frame = .error e →
        e.kind ≠ .lengthMismatch ∧ (e.kind = .truncated → 40 ≤ e.offset.toNat) := by
  have hframed := Frames.framed_split stream
  have hshown := dumpStream_of_framed settings path hframed
  refine ⟨_, _, hframed, ?_, ?_, ?_, ?_, dumpStream_status_le settings path hframed,
    dumpStream_status_eq_zero_iff settings path hframed, ?_⟩
  · intro frames' left' hframed'
    exact Prod.mk.inj (Frames.split_eq_of_framed hframed').symm
  · rw [hshown, Report.append_stdout, Report.concat_stdout, List.flatMap_map, List.append_nil]
  · have hsilent :
        (Frames.split stream).1.flatMap (fun frame => (dumpRequest settings path frame).stderr) = [] :=
      List.flatMap_eq_nil_iff.mpr fun frame _ => dumpRequest_stderr settings path frame
    rw [hshown, Report.append_stderr, Report.concat_stderr, List.flatMap_map, hsilent, List.nil_append]
  · rw [hshown, Report.append_log, Report.concat_log, List.flatMap_map, List.append_nil]
  · intro frame hmem e he
    exact Request.refused_frame (hframed.length_frame frame hmem) he

end Dump

end FuseAbi
