import Mathlib.Data.List.Infix
import Mathlib.Tactic.Common
/-!
# Frames in a stream

A frame is a header of fixed size that says how long the payload behind it is,
and the payload. A stream determines the frames it begins with, so the longest
part of it that is made of frames is one list of payloads.
-/

namespace ProgLib

/-- How a length is written in front of a payload of at most `limit` symbols. -/
structure Framing (α : Type) where
  header_size : Nat
  limit : Nat
  encode : Nat → List α
  decode : List α → Nat
  header_pos : 0 < header_size
  length_encode : ∀ n, (encode n).length = header_size
  decode_encode : ∀ n, n ≤ limit → decode (encode n) = n
  encode_decode : ∀ header, header.length = header_size → encode (decode header) = header

namespace Framing

variable {α : Type} (F : Framing α)

def frame (payload : List α) : List α := F.encode payload.length ++ payload

/-- The first frame of a stream, and what follows it. -/
def next (stream : List α) : Option (List α × List α) :=
  let size := F.decode (stream.take F.header_size)
  if F.header_size + size ≤ stream.length ∧ size ≤ F.limit then
    some ((stream.drop F.header_size).take size, stream.drop (F.header_size + size))
  else none

variable {F} {stream payload rest : List α}

theorem frame_append : F.frame payload ++ rest = F.encode payload.length ++ (payload ++ rest) := List.append_assoc ..

theorem next_frame (h : payload.length ≤ F.limit) (rest : List α) :
    F.next (F.frame payload ++ rest) = some (payload, rest) := by
  have hlen := F.length_encode payload.length
  have hhead : (F.frame payload ++ rest).take F.header_size = F.encode payload.length := by
    rw [frame_append]
    exact List.take_left' hlen
  have htail : (F.frame payload ++ rest).drop F.header_size = payload ++ rest := by
    rw [frame_append]
    exact List.drop_left' hlen
  have hfits : F.header_size + payload.length ≤ (F.frame payload ++ rest).length ∧ payload.length ≤ F.limit := by
    rw [frame_append, List.length_append, List.length_append, hlen]
    exact ⟨by omega, h⟩
  unfold next
  simp only [hhead, F.decode_encode _ h]
  rw [if_pos hfits, ← List.drop_drop, htail, List.take_left, List.drop_left]

theorem next_eq_some (h : F.next stream = some (payload, rest)) :
    payload.length ≤ F.limit ∧ stream = F.frame payload ++ rest := by
  unfold next at h
  simp only at h
  split at h
  case isFalse => cases h
  case isTrue hfits =>
    obtain ⟨hlen, hlimit⟩ := hfits
    cases h
    have hsize : ((stream.drop F.header_size).take (F.decode (stream.take F.header_size))).length =
        F.decode (stream.take F.header_size) := by
      rw [List.length_take, List.length_drop]
      omega
    have hheader : (stream.take F.header_size).length = F.header_size := by
      rw [List.length_take]
      omega
    refine ⟨hsize.trans_le hlimit, ?_⟩
    rw [frame_append, hsize, F.encode_decode _ hheader, ← List.drop_drop, List.take_append_drop, List.take_append_drop]

/-- Payloads that can be framed. -/
def Valid (F : Framing α) (ps : List (List α)) : Prop := ∀ p ∈ ps, p.length ≤ F.limit

/-- These payloads are the longest part of the stream that is made of frames. -/
structure Longest (F : Framing α) (stream : List α) (ps : List (List α)) : Prop where
  valid : F.Valid ps
  is_prefix : ps.flatMap F.frame <+: stream
  longest : ∀ qs, F.Valid qs → qs.flatMap F.frame <+: stream → qs <+: ps

theorem length_next (h : F.next stream = some (payload, rest)) : rest.length < stream.length := by
  have hpos := F.header_pos
  rw [(next_eq_some h).2, frame_append, List.length_append, F.length_encode, List.length_append]
  omega

theorem longest_nil (h : F.next stream = none) : F.Longest stream [] where
  valid := by simp [Valid]
  is_prefix := List.nil_prefix
  longest qs hvalid hpre := by
    cases qs with
    | nil => exact List.nil_prefix
    | cons q qs =>
      obtain ⟨tail, htail⟩ := hpre
      rw [List.flatMap_cons, List.append_assoc] at htail
      rw [← htail, next_frame (hvalid q List.mem_cons_self)] at h
      cases h

theorem Longest.cons {ps : List (List α)} (hp : payload.length ≤ F.limit) (h : F.Longest rest ps) :
    F.Longest (F.frame payload ++ rest) (payload :: ps) where
  valid p hmem := by
    rcases List.mem_cons.1 hmem with rfl | hmem
    · exact hp
    · exact h.valid p hmem
  is_prefix := (List.prefix_append_right_inj _).2 h.is_prefix
  longest qs hvalid hpre := by
    cases qs with
    | nil => exact List.nil_prefix
    | cons q qs =>
      -- The stream has only one first frame.
      have hq : q.length ≤ F.limit := hvalid q List.mem_cons_self
      obtain ⟨tail, htail⟩ := hpre
      rw [List.flatMap_cons, List.append_assoc] at htail
      have hfirst := next_frame hq (qs.flatMap F.frame ++ tail)
      rw [htail, next_frame hp] at hfirst
      cases hfirst
      exact List.cons_prefix_cons.2
        ⟨rfl, h.longest qs (fun p hmem => hvalid p (List.mem_cons_of_mem _ hmem)) (List.prefix_append _ _)⟩

/-- Every stream has one. -/
theorem exists_longest (F : Framing α) (stream : List α) : ∃ ps, F.Longest stream ps := by
  induction hn : stream.length using Nat.strong_induction_on generalizing stream with
  | _ n ih =>
    cases hnext : F.next stream with
    | none => exact ⟨[], longest_nil hnext⟩
    | some x =>
      obtain ⟨payload, rest⟩ := x
      obtain ⟨hp, hstream⟩ := next_eq_some hnext
      obtain ⟨ps, hps⟩ := ih rest.length (hn ▸ length_next hnext) rest rfl
      exact ⟨payload :: ps, hstream ▸ hps.cons hp⟩

/-- Only one. -/
theorem Longest.unique {ps qs : List (List α)} (h : F.Longest stream ps) (h' : F.Longest stream qs) : ps = qs :=
  (h'.longest ps h.valid h.is_prefix).eq_of_length_le (h.longest qs h'.valid h'.is_prefix).length_le

/-- Frames that are followed by none are found, all of them. -/
theorem longest_frames {ps : List (List α)} (hvalid : F.Valid ps) (hrest : F.next rest = none) :
    F.Longest (ps.flatMap F.frame ++ rest) ps := by
  induction ps with
  | nil => exact longest_nil hrest
  | cons p ps ih =>
    rw [List.flatMap_cons, List.append_assoc]
    exact (ih fun q hmem => hvalid q (List.mem_cons_of_mem _ hmem)).cons (hvalid p List.mem_cons_self)

/-! ## No frame -/

theorem next_eq_none (h : ∀ payload rest, payload.length ≤ F.limit → stream ≠ F.frame payload ++ rest) :
    F.next stream = none := by
  cases hnext : F.next stream with
  | none => rfl
  | some x =>
    obtain ⟨hp, hstream⟩ := next_eq_some hnext
    exact absurd hstream (h x.1 x.2 hp)

/-- The header is cut off, or says too much. -/
theorem next_bad_header (h : F.header_size ≤ stream.length → F.limit < F.decode (stream.take F.header_size)) :
    F.next stream = none := by
  refine next_eq_none ?_
  rintro payload rest hp rfl
  have hlen := F.length_encode payload.length
  rw [frame_append, List.length_append, hlen, List.take_left' hlen, F.decode_encode _ hp] at h
  have := h (Nat.le_add_right _ _)
  omega

/-- The payload is cut off. -/
theorem next_cut {n : Nat} (hn : n ≤ F.limit) (h : rest.length < n) : F.next (F.encode n ++ rest) = none := by
  have hlen := F.length_encode n
  unfold next
  rw [if_neg]
  rw [List.take_left' hlen, F.decode_encode _ hn, List.length_append, hlen]
  omega

theorem next_nil : F.next ([] : List α) = none := by
  have hpos := F.header_pos
  refine next_bad_header fun h => ?_
  rw [List.length_nil] at h
  omega

end Framing

end ProgLib
