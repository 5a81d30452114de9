/-
`Frames.lean` -- a stream of frames that is cut anywhere.

A sender writes frames one after another; a receiver sees a prefix of the stream, in pieces. Whatever prefix
it has seen is some whole frames and a proper part of the next (`cut`). A receiver that pushes pieces into a
buffer and takes the whole frames out of it has therefore taken the same frames however the prefix was cut
(`reassemble`).

Nothing here names the server: the messages, their frames and the receiver are parameters.
-/
import Mathlib.Data.List.Basic
import Mathlib.Data.List.Induction

set_option autoImplicit false

namespace ChatApp

universe u v

namespace Frames

section Stream

variable {M : Type u} {A : Type v} (frame : M → List A)

/-- The frames of these messages, one after another. -/
def stream (ms : List M) : List A := (ms.map frame).flatten

/-- The messages whose frames lie completely in the first `n` elements of the stream. -/
def contained : List M → Nat → List M
  | [], _ => []
  | m :: ms, n => if (frame m).length ≤ n then m :: contained ms (n - (frame m).length) else []

variable {frame} {m : M} {ms ms' : List M} {s rest : List A} {n k : Nat}

@[simp] theorem stream_nil : stream frame [] = [] := rfl

@[simp] theorem stream_cons : stream frame (m :: ms) = frame m ++ stream frame ms := by
  rw [stream, List.map_cons, List.flatten_cons]
  rfl

@[simp] theorem stream_append : stream frame (ms ++ ms') = stream frame ms ++ stream frame ms' := by
  rw [stream, List.map_append, List.flatten_append]
  rfl

theorem contained_isPrefix (ms : List M) (n : Nat) : contained frame ms n <+: ms := by
  induction ms generalizing n with
  | nil => exact List.prefix_rfl
  | cons m ms ih =>
    rw [contained]
    split
    · exact List.prefix_cons_inj m |>.mpr (ih _)
    · exact List.nil_prefix

/-- More of the stream contains more of the frames. -/
theorem contained_mono (ms : List M) (h : n ≤ k) : contained frame ms n <+: contained frame ms k := by
  induction ms generalizing n k with
  | nil => exact List.prefix_rfl
  | cons m ms ih =>
    rw [contained, contained]
    by_cases hn : (frame m).length ≤ n
    · rw [if_pos hn, if_pos (Nat.le_trans hn h)]
      exact List.prefix_cons_inj m |>.mpr (ih (Nat.sub_le_sub_right h _))
    · rw [if_neg hn]
      exact List.nil_prefix

/-- The frame of the next message is not completely there. -/
theorem contained_next {later : List M} (h : contained frame ms n ++ m :: later = ms) :
    n < (stream frame (contained frame ms n)).length + (frame m).length := by
  induction ms generalizing n with
  | nil => cases h
  | cons m₀ ms ih =>
    rw [contained] at h ⊢
    split
    · next hle =>
      rw [if_pos hle, List.cons_append] at h
      have hrest := ih (List.cons.inj h).2
      rw [stream_cons, List.length_append]
      omega
    · next hgt =>
      rw [if_neg hgt] at h
      rw [(List.cons.inj h).1, stream_nil, List.length_nil]
      omega

/-- A proper part of the frame of one of the messages. -/
def Partial (frame : M → List A) (ms : List M) (rest : List A) : Prop :=
  rest = [] ∨ ∃ m ∈ ms, rest <+: frame m ∧ rest.length < (frame m).length

/-- **Cutting the stream.** A prefix of the stream is the frames that it contains and a proper part of the
next one. -/
theorem cut (h : s <+: stream frame ms) :
    ∃ rest, s = stream frame (contained frame ms s.length) ++ rest ∧ Partial frame ms rest := by
  induction ms generalizing s with
  | nil =>
    rw [stream_nil, List.prefix_nil] at h
    exact ⟨[], by rw [h]; rfl, .inl rfl⟩
  | cons m ms ih =>
    rw [stream_cons] at h
    rw [contained]
    by_cases hm : (frame m).length ≤ s.length
    · -- the first frame is there
      have hfirst : frame m <+: s := List.prefix_of_prefix_length_le (List.prefix_append _ _) h hm
      obtain ⟨t, rfl⟩ := hfirst
      obtain ⟨rest, ht, hpart⟩ := ih ((List.prefix_append_right_inj _).mp h)
      refine ⟨rest, ?_, hpart.imp_right fun ⟨m', hm', h⟩ => ⟨m', List.mem_cons_of_mem _ hm', h⟩⟩
      rw [if_pos hm, stream_cons, List.append_assoc, List.length_append, Nat.add_sub_cancel_left, ← ht]
    · rw [if_neg hm]
      have hpart : s <+: frame m :=
        List.prefix_of_prefix_length_le h (List.prefix_append _ _) (Nat.le_of_not_le hm)
      exact ⟨s, rfl, .inr ⟨m, List.mem_cons_self, hpart, Nat.lt_of_not_le hm⟩⟩

end Stream

/-! ## Receivers that are pushed to -/

section Push

variable {M : Type u} {A : Type v} {frame : M → List A} {ms : List M} {D : Type u}

/-- A receiver is pushed one piece: it is put behind the buffer, and `drain` takes out what is whole. -/
def push (drain : List A → List D × List A) (st : List D × List A) (piece : List A) : List D × List A :=
  let drained := drain (st.2 ++ piece)
  (st.1 ++ drained.1, drained.2)

variable {drain : List A → List D × List A} {deliver : M → D}

/-- A receiver that takes out a frame in front of the buffer takes out all of them. -/
theorem drain_stream (whole : ∀ m ∈ ms, ∀ rest, drain (frame m ++ rest) = (deliver m :: (drain rest).1, (drain rest).2))
    {new : List M} (hnew : ∀ m ∈ new, m ∈ ms) (rest : List A) :
    drain (stream frame new ++ rest) = (new.map deliver ++ (drain rest).1, (drain rest).2) := by
  induction new with
  | nil => rfl
  | cons m new ih =>
    have hrest := ih fun m' hm' => hnew m' (List.mem_cons_of_mem _ hm')
    rw [stream_cons, List.append_assoc, whole m (hnew m List.mem_cons_self), hrest]
    rfl

/-- **Reassembly.** A receiver that takes whole frames out and leaves a part of one alone has delivered the
frames contained in what it was pushed, once each and in order, and keeps the rest. -/
theorem reassemble (nonempty : ∀ m ∈ ms, frame m ≠ [])
    (whole : ∀ m ∈ ms, ∀ rest, drain (frame m ++ rest) = (deliver m :: (drain rest).1, (drain rest).2))
    (part : ∀ rest, Partial frame ms rest → drain rest = ([], rest))
    {pieces : List (List A)} (h : pieces.flatten <+: stream frame ms) :
    ∃ rest, pieces.flatten = stream frame (contained frame ms pieces.flatten.length) ++ rest ∧
      pieces.foldl (push drain) ([], []) = ((contained frame ms pieces.flatten.length).map deliver, rest) := by
  -- the induction is on the pieces, the last one first
  induction pieces using List.reverseRecOn with
  | nil =>
    have hnone : contained frame ms 0 = [] := by
      cases ms with
      | nil => rfl
      | cons m ms =>
        have hm := List.length_pos_iff.mpr (nonempty m List.mem_cons_self)
        exact if_neg (by omega)
    refine ⟨[], ?_, ?_⟩
    · rw [List.flatten_nil, List.length_nil, hnone]
      rfl
    · rw [List.flatten_nil, List.length_nil, hnone]
      rfl
  | append_singleton pieces piece ih =>
    rw [List.flatten_append, List.flatten_singleton] at h ⊢
    obtain ⟨rest, hbefore, hfold⟩ := ih ((List.prefix_append _ _).trans h)
    obtain ⟨rest', hafter, hpart⟩ := cut h
    -- the frames that the new piece completes
    obtain ⟨new, hnew⟩ : contained frame ms _ <+: contained frame ms _ := contained_mono ms
      (List.length_append ▸ Nat.le_add_right pieces.flatten.length piece.length)
    refine ⟨rest', hafter, ?_⟩
    have hbuffer : rest ++ piece = stream frame new ++ rest' := by
      refine (List.append_right_inj (stream frame (contained frame ms pieces.flatten.length))).mp ?_
      rw [← List.append_assoc, ← hbefore, ← List.append_assoc, ← stream_append, hnew]
      exact hafter
    have hmem : ∀ m ∈ new, m ∈ ms := fun m hm =>
      (contained_isPrefix ms _).subset (hnew ▸ List.mem_append_right _ hm)
    rw [List.foldl_append, hfold, List.foldl_cons, List.foldl_nil, push, hbuffer,
      drain_stream whole hmem, part rest' hpart, List.append_nil, ← List.map_append, hnew]

end Push

end Frames

end ChatApp
