import NetworkChat.Foundation.Layout

/-!
# Streams of frames

A frame is a header of fixed size followed by a payload whose length the header
declares. A stream is read as the frames that are complete in it and a rest that
is not a complete frame (`Parses`).

The frames are a prefix code: a stream is read in one way only
(`Parses.unique`), what is read of a prefix of a stream is a prefix of what is
read of the stream (`Parses.prefix_stable`), and every stream can be read
(`exists_parses`). So reading a concatenation of frames gives these frames back
(`parses_stream`).
-/

set_option autoImplicit false

namespace NetworkChat.Foundation

variable {Header : Type} [FullLayout Header]

/-- A header and the payload that follows it. -/
abbrev Frame (Header : Type) := Header × List UInt8

/-- The bytes of a frame on the stream. -/
def frameBytes (frame : Frame Header) : List UInt8 := toBytes frame.1 ++ frame.2

/-- The bytes of a list of frames, one after the other. -/
def streamOf (frames : List (Frame Header)) : List UInt8 := frames.flatMap frameBytes

@[simp] theorem streamOf_nil : streamOf ([] : List (Frame Header)) = [] := rfl

@[simp] theorem streamOf_cons (frame : Frame Header) (frames : List (Frame Header)) :
    streamOf (frame :: frames) = frameBytes frame ++ streamOf frames := rfl

@[simp] theorem streamOf_append (first second : List (Frame Header)) :
    streamOf (first ++ second) = streamOf first ++ streamOf second :=
  List.flatMap_append

variable (payloadLength : Header → ℕ)

/-- The header declares the length of the payload. -/
def WellFramed (frame : Frame Header) : Prop := frame.2.length = payloadLength frame.1

/-- The bytes do not begin with a complete frame: the header or the payload it
declares is cut off. -/
def Incomplete (bytes : List UInt8) : Prop :=
  bytes.length < FixedLayout.size Header ∨
    bytes.length < FixedLayout.size Header +
      payloadLength (ofBytes (bytes.take (FixedLayout.size Header)))

/-- The stream is read as the frames and an incomplete rest. -/
structure Parses (bytes : List UInt8) (frames : List (Frame Header)) (rest : List UInt8) :
    Prop where
  wellFramed : ∀ frame ∈ frames, WellFramed payloadLength frame
  split : bytes = streamOf frames ++ rest
  incomplete : Incomplete payloadLength rest

variable {payloadLength}

theorem incomplete_nil (positive : 0 < FixedLayout.size Header) :
    Incomplete payloadLength [] :=
  Or.inl positive

/-- The header of a frame is read from the bytes that begin with it. -/
theorem header_of_frameBytes (frame : Frame Header) (after : List UInt8) :
    ofBytes ((frameBytes frame ++ after).take (FixedLayout.size Header)) = frame.1 := by
  rw [frameBytes, List.append_assoc, List.take_left' (FixedLayout.length_toBytes frame.1),
    FixedLayout.ofBytes_toBytes]

theorem length_frameBytes {frame : Frame Header} (wellFramed : WellFramed payloadLength frame) :
    (frameBytes frame).length = FixedLayout.size Header + payloadLength frame.1 := by
  rw [frameBytes, List.length_append, FixedLayout.length_toBytes, wellFramed]

/-- Bytes that begin with a complete frame are not incomplete. -/
theorem not_incomplete_frameBytes {frame : Frame Header}
    (wellFramed : WellFramed payloadLength frame) (after : List UInt8) :
    ¬ Incomplete payloadLength (frameBytes frame ++ after) := by
  have length := length_frameBytes wellFramed
  rintro (short | short)
  · rw [List.length_append] at short
    omega
  · rw [header_of_frameBytes, List.length_append] at short
    omega

/-- Frames at the start of the same bytes are the same frame. -/
theorem frame_unique {first second : Frame Header} (firstFramed : WellFramed payloadLength first)
    (secondFramed : WellFramed payloadLength second) {firstAfter secondAfter : List UInt8}
    (same : frameBytes first ++ firstAfter = frameBytes second ++ secondAfter) :
    first = second ∧ firstAfter = secondAfter := by
  have header : first.1 = second.1 := by
    rw [← header_of_frameBytes first firstAfter, same, header_of_frameBytes]
  have length : (frameBytes first).length = (frameBytes second).length := by
    rw [length_frameBytes firstFramed, length_frameBytes secondFramed, header]
  obtain ⟨bytes, after⟩ := List.append_inj same length
  have payload : first.2 = second.2 := by
    rw [frameBytes, frameBytes, header] at bytes
    exact List.append_cancel_left bytes
  exact ⟨Prod.ext header payload, after⟩

/-- **Frames that begin a stream are among the first frames it is read as.** -/
theorem frames_prefix {first second : List (Frame Header)} {firstAfter rest : List UInt8}
    (firstFramed : ∀ frame ∈ first, WellFramed payloadLength frame)
    (secondFramed : ∀ frame ∈ second, WellFramed payloadLength frame)
    (incomplete : Incomplete payloadLength rest)
    (same : streamOf first ++ firstAfter = streamOf second ++ rest) : first <+: second := by
  induction first generalizing second with
  | nil => exact List.nil_prefix
  | cons frame first ih =>
      rw [List.forall_mem_cons] at firstFramed
      cases second with
      | nil =>
          rw [streamOf_cons, streamOf_nil, List.nil_append, List.append_assoc] at same
          exact absurd (same ▸ incomplete) (not_incomplete_frameBytes firstFramed.1 _)
      | cons other second =>
          rw [List.forall_mem_cons] at secondFramed
          rw [streamOf_cons, streamOf_cons, List.append_assoc, List.append_assoc] at same
          obtain ⟨rfl, after⟩ := frame_unique firstFramed.1 secondFramed.1 same
          exact List.cons_prefix_cons.mpr ⟨rfl, ih firstFramed.2 secondFramed.2 after⟩

/-- **What is read of a prefix of a stream is a prefix of what is read of the
stream.** -/
theorem Parses.prefix_stable {shorter longer : List UInt8} {first second : List (Frame Header)}
    {firstRest secondRest : List UInt8} (isPrefix : shorter <+: longer)
    (firstParse : Parses payloadLength shorter first firstRest)
    (secondParse : Parses payloadLength longer second secondRest) : first <+: second := by
  obtain ⟨more, rfl⟩ := isPrefix
  have same : streamOf first ++ (firstRest ++ more) = streamOf second ++ secondRest := by
    rw [← List.append_assoc, ← firstParse.split, secondParse.split]
  exact frames_prefix firstParse.wellFramed secondParse.wellFramed secondParse.incomplete same

/-- **A stream is read in one way only.** -/
theorem Parses.unique {bytes : List UInt8} {first second : List (Frame Header)}
    {firstRest secondRest : List UInt8} (firstParse : Parses payloadLength bytes first firstRest)
    (secondParse : Parses payloadLength bytes second secondRest) :
    first = second ∧ firstRest = secondRest := by
  have same : first = second :=
    (firstParse.prefix_stable (List.prefix_refl bytes) secondParse).eq_of_length_le
      (secondParse.prefix_stable (List.prefix_refl bytes) firstParse).length_le
  subst same
  exact ⟨rfl, List.append_cancel_left (firstParse.split.symm.trans secondParse.split)⟩

/-- **Every stream can be read.** -/
theorem exists_parses (positive : 0 < FixedLayout.size Header) (bytes : List UInt8) :
    ∃ frames rest, Parses payloadLength bytes frames rest := by
  induction size : bytes.length using Nat.strongRecOn generalizing bytes with
  | ind length ih =>
      by_cases incomplete : Incomplete payloadLength bytes
      · exact ⟨[], bytes, by simp, rfl, incomplete⟩
      · simp only [Incomplete, not_or, Nat.not_lt] at incomplete
        obtain ⟨headerFits, payloadFits⟩ := incomplete
        have headerLength : (bytes.take (FixedLayout.size Header)).length =
            FixedLayout.size Header := by
          rw [List.length_take]
          omega
        let header : Header := ofBytes (bytes.take (FixedLayout.size Header))
        let after := bytes.drop (FixedLayout.size Header)
        obtain ⟨frames, rest, parse⟩ := ih (after.drop (payloadLength header)).length
          (by simp only [after, List.length_drop]; omega) _ rfl
        refine ⟨(header, after.take (payloadLength header)) :: frames, rest, ?_, ?_,
          parse.incomplete⟩
        · rw [List.forall_mem_cons]
          refine ⟨?_, parse.wellFramed⟩
          simp only [WellFramed, after, header, List.length_take, List.length_drop]
          omega
        · rw [streamOf_cons, List.append_assoc, ← parse.split, frameBytes, List.append_assoc,
            List.take_append_drop, FullLayout.toBytes_ofBytes _ headerLength,
            List.take_append_drop]

/-- **Reading a concatenation of frames gives these frames and no rest.** -/
theorem parses_stream (positive : 0 < FixedLayout.size Header) {frames : List (Frame Header)}
    (wellFramed : ∀ frame ∈ frames, WellFramed payloadLength frame) :
    Parses payloadLength (streamOf frames) frames [] :=
  ⟨wellFramed, (List.append_nil _).symm, incomplete_nil positive⟩

end NetworkChat.Foundation
