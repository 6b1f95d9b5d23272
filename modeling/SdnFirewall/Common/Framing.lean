import Mathlib.Data.List.Basic

/-!
# Cutting a stream into frames

A format whose frames start with a header of fixed size that tells the length of the whole. A
stream has at most one reading as complete frames and an incomplete rest, so a reader that keeps
the rest and goes on with whatever arrives next finds the same frames however the stream was
handed over.
-/

namespace Common

/-- Frames whose length is told by their first `header` elements. -/
structure FrameFormat (α : Type*) where
  header : ℕ
  frameLen : List α → ℕ
  header_pos : 0 < header
  header_le : ∀ bs, header ≤ frameLen bs
  frameLen_append : ∀ bs bs', header ≤ bs.length → frameLen (bs ++ bs') = frameLen bs

namespace FrameFormat

variable {α : Type*} {F : FrameFormat α} {bs bs' frame rest rest' : List α}
  {frames frames' : List (List α)}

/-- A whole frame. -/
structure IsFrame (F : FrameFormat α) (frame : List α) : Prop where
  header_le_length : F.header ≤ frame.length
  frameLen_eq : F.frameLen frame = frame.length

/-- No frame is complete yet. -/
def Incomplete (F : FrameFormat α) (bs : List α) : Prop :=
  bs.length < F.header ∨ bs.length < F.frameLen bs

instance : Decidable (F.Incomplete bs) := inferInstanceAs (Decidable (_ ∨ _))

/-- The stream reads as these frames and the rest. -/
structure Reads (F : FrameFormat α) (bs : List α) (frames : List (List α)) (rest : List α) :
    Prop where
  eq_append : bs = frames.flatten ++ rest
  isFrame : ∀ frame ∈ frames, F.IsFrame frame
  incomplete : F.Incomplete rest

/-- A stream that starts with a frame says how long that frame is. -/
theorem IsFrame.frameLen_append (h : F.IsFrame frame) (bs : List α) :
    F.frameLen (frame ++ bs) = frame.length := by
  rw [F.frameLen_append _ _ h.header_le_length, h.frameLen_eq]

/-- A stream that starts with a frame is not incomplete. -/
theorem IsFrame.not_incomplete (h : F.IsFrame frame) (bs : List α) :
    ¬ F.Incomplete (frame ++ bs) := by
  rw [Incomplete, h.frameLen_append, List.length_append]
  have hlen := h.header_le_length
  omega

/-- What is complete starts with a frame. -/
theorem isFrame_take (h : ¬ F.Incomplete bs) : F.IsFrame (bs.take (F.frameLen bs)) := by
  rw [Incomplete, not_or, Nat.not_lt, Nat.not_lt] at h
  have hlen : (bs.take (F.frameLen bs)).length = F.frameLen bs := by
    rw [List.length_take]
    omega
  have hheader : F.header ≤ (bs.take (F.frameLen bs)).length := by
    rw [hlen]
    exact F.header_le bs
  refine ⟨hheader, ?_⟩
  rw [hlen]
  -- the header decides, and it lies within the frame
  calc F.frameLen (bs.take (F.frameLen bs))
      = F.frameLen (bs.take (F.frameLen bs) ++ bs.drop (F.frameLen bs)) :=
        (F.frameLen_append _ _ hheader).symm
    _ = F.frameLen bs := by rw [List.take_append_drop]

/-- A stream has one reading. -/
theorem Reads.unique (h : F.Reads bs frames rest) (h' : F.Reads bs frames' rest') :
    frames = frames' ∧ rest = rest' := by
  induction frames generalizing bs frames' with
  | nil =>
      cases frames' with
      | nil =>
          refine ⟨rfl, ?_⟩
          have heq := h.eq_append.symm.trans h'.eq_append
          simpa using heq
      | cons frame' frames' =>
          have hbs : rest = frame' ++ (frames'.flatten ++ rest') := by
            simpa using h.eq_append.symm.trans h'.eq_append
          have hframe := (h'.isFrame frame' List.mem_cons_self).not_incomplete
            (frames'.flatten ++ rest')
          exact absurd (hbs ▸ h.incomplete) hframe
  | cons frame frames ih =>
      have hbs : bs = frame ++ (frames.flatten ++ rest) := by
        simpa using h.eq_append
      have hframe := h.isFrame frame List.mem_cons_self
      cases frames' with
      | nil =>
          have hrest : rest' = frame ++ (frames.flatten ++ rest) := by
            simpa using h'.eq_append.symm.trans hbs
          exact absurd (hrest ▸ h'.incomplete) (hframe.not_incomplete _)
      | cons frame' frames' =>
          have hbs' : bs = frame' ++ (frames'.flatten ++ rest') := by
            simpa using h'.eq_append
          have hframe' := h'.isFrame frame' List.mem_cons_self
          -- the stream itself says how long its first frame is
          have hlen : frame.length = frame'.length := by
            rw [← hframe.frameLen_append (frames.flatten ++ rest), ← hbs, hbs',
              hframe'.frameLen_append]
          obtain ⟨rfl, htail⟩ := List.append_inj (hbs.symm.trans hbs') hlen
          obtain ⟨rfl, rfl⟩ := ih
            ⟨rfl, fun f hf => h.isFrame f (List.mem_cons_of_mem _ hf), h.incomplete⟩
            ⟨htail, fun f hf => h'.isFrame f (List.mem_cons_of_mem _ hf), h'.incomplete⟩
          exact ⟨rfl, rfl⟩

/-- From an incomplete stream no frame is read. -/
theorem Reads.of_incomplete (h : F.Incomplete bs) : F.Reads bs [] bs :=
  ⟨rfl, by simp, h⟩

/-- A frame in front of a stream is read first. -/
theorem Reads.cons (hframe : F.IsFrame frame) (h : F.Reads bs frames rest) :
    F.Reads (frame ++ bs) (frame :: frames) rest where
  eq_append := by rw [h.eq_append, List.flatten_cons, List.append_assoc]
  isFrame := List.forall_mem_cons.mpr ⟨hframe, h.isFrame⟩
  incomplete := h.incomplete

/-- Frames put one after the other are read back as they are. -/
theorem Reads.of_frames (h : ∀ frame ∈ frames, F.IsFrame frame) :
    F.Reads frames.flatten frames [] :=
  ⟨by rw [List.append_nil], h, Or.inl F.header_pos⟩

/-- Reading goes on with the rest and what arrives behind it. -/
theorem Reads.append (h : F.Reads bs frames rest) (h' : F.Reads (rest ++ bs') frames' rest') :
    F.Reads (bs ++ bs') (frames ++ frames') rest' where
  eq_append := by
    rw [h.eq_append, List.append_assoc, h'.eq_append, List.flatten_append, List.append_assoc]
  isFrame := fun frame hmem => (List.mem_append.mp hmem).elim (h.isFrame frame)
    (h'.isFrame frame)
  incomplete := h'.incomplete

end FrameFormat

end Common
