import Imm.Link.Frames
import Imm.Schemes.Wire

/-! How envelopes are cut out of the byte stream between a client and its Gateway. A frame is the length
    of its payload in four bytes, in network order, and the payload. `connection::send` makes frames,
    the loop of `connection::run` takes them apart again: it skips empty ones and gives up at a length
    above the limit or at the end of the stream. -/

namespace Imm

open Wire List

def PROTOCOL_SEND_MSS : ℕ := 10 * 1024 * 1024

def PROTOCOL_RECV_MSS : ℕ := 10 * 1024 * 1024

/-- Bytes of which there are some: an envelope has a body and is never encoded to nothing, and the socket
    delivers an empty piece only at the end of the stream. -/
structure Octets where
  bytes : Bytes
  nonempty : bytes ≠ []
  deriving DecidableEq

/-- The frame of a payload. -/
def encodeFrame (payload : Bytes) : Bytes := word 4 payload.length ++ payload

/-- One turn of the loop of `connection::run`: the payload, nothing for an empty frame, and the pieces
    that are left. -/
def readFrame (pieces : List Bytes) : Option (Option Bytes × List Bytes) :=
  match readExactly 4 pieces with
  | (header, pieces) =>
    if header.length ≠ 4 then none
    else if PROTOCOL_RECV_MSS < wordValue header then none
    else if wordValue header = 0 then some (none, pieces)
    else
      match readExactly (wordValue header) pieces with
      | (payload, pieces) => if payload.length ≠ wordValue header then none else some (some payload, pieces)

theorem readFrame_whole {pieces pieces' : List Bytes} {payload : Option Bytes}
    (h : readFrame pieces = some (payload, pieces')) :
    pieces.flatten = encodeFrame (payload.getD []) ++ pieces'.flatten ∧ payload ≠ some [] ∧
      (payload.getD []).length ≤ PROTOCOL_RECV_MSS := by
  have hheader := readExactly_fst 4 pieces
  have hrest := readExactly_snd 4 pieces
  unfold readFrame at h
  generalize readExactly 4 pieces = read at h hheader hrest
  obtain ⟨header, pieces⟩ := read
  dsimp only at h hheader hrest
  split at h
  · cases h
  rename_i hlength
  have hword : word 4 (wordValue header) = header := by
    have := word_wordValue header
    rwa [not_not.1 hlength] at this
  split at h
  · cases h
  rename_i hsize
  split at h
  · rename_i hzero
    cases h
    refine ⟨?_, by simp, by simp⟩
    rw [hrest, Option.getD_none, encodeFrame, length_nil, ← hzero, hword, append_nil, hheader,
      take_append_drop]
  · rename_i hpositive
    have hpayload := readExactly_fst (wordValue header) pieces
    have htail := readExactly_snd (wordValue header) pieces
    generalize readExactly (wordValue header) pieces = read at h hpayload htail
    obtain ⟨payload, pieces⟩ := read
    split at h
    · cases h
    rename_i hwhole
    cases h
    rw [not_not] at hwhole
    refine ⟨?_, ?_, ?_⟩
    · rw [htail, Option.getD_some, encodeFrame, hwhole, hword, append_assoc, hpayload,
        take_append_drop, hrest, hheader, take_append_drop]
    · rintro ⟨rfl⟩
      exact hpositive hwhole.symm
    · rw [Option.getD_some, hwhole]
      exact Nat.not_lt.1 hsize

/-- The loop of `connection::run`, with the payloads it processes. -/
def readFrames (pieces : List Bytes) : List Bytes :=
  match _h : readFrame pieces with
  | none => []
  | some (payload, rest) => payload.toList ++ readFrames rest
termination_by pieces.flatten.length
decreasing_by
  have h := (readFrame_whole _h).1
  rw [h, length_append, encodeFrame, length_append, length_word]
  omega

@[simp] theorem length_encodeFrame (payload : Bytes) : (encodeFrame payload).length = 4 + payload.length := by
  simp [encodeFrame]

theorem wordValue_length {payload : Bytes} (h : payload.length ≤ PROTOCOL_SEND_MSS) :
    wordValue (word 4 payload.length) = payload.length := by
  rw [wordValue_word, Nat.mod_eq_of_lt]
  unfold PROTOCOL_SEND_MSS at h
  omega

theorem readFrame_frame {pieces : List Bytes} {payload rest : Bytes}
    (hpieces : pieces.flatten = encodeFrame payload ++ rest) (hsize : payload.length ≤ PROTOCOL_SEND_MSS) :
    ∃ pieces', pieces'.flatten = rest ∧
      readFrame pieces = some (if payload = [] then none else some payload, pieces') := by
  have hheader : (readExactly 4 pieces).1 = word 4 payload.length := by
    rw [readExactly_fst, hpieces, encodeFrame, append_assoc]
    exact take_left' (length_word _ _)
  have hrest : (readExactly 4 pieces).2.flatten = payload ++ rest := by
    rw [readExactly_snd, hpieces, encodeFrame, append_assoc]
    exact drop_left' (length_word _ _)
  unfold readFrame
  generalize readExactly 4 pieces = read at hheader hrest
  obtain ⟨header, pieces⟩ := read
  dsimp only at hheader hrest ⊢
  have hlimit : ¬ PROTOCOL_RECV_MSS < payload.length := Nat.not_lt.2 hsize
  rw [hheader, wordValue_length hsize, if_neg (by simp), if_neg hlimit]
  by_cases hempty : payload = []
  · subst hempty
    exact ⟨pieces, hrest, rfl⟩
  have hpositive : ¬ payload.length = 0 := fun h => hempty (length_eq_zero_iff.1 h)
  have hpayload := readExactly_fst payload.length pieces
  have htail := readExactly_snd payload.length pieces
  generalize readExactly payload.length pieces = read at hpayload htail
  obtain ⟨payload', pieces'⟩ := read
  rw [hrest, take_left] at hpayload
  rw [hrest, drop_left] at htail
  rw [if_neg hpositive, if_neg hempty, hpayload, if_neg (by simp)]
  exact ⟨pieces', htail, rfl⟩

/-- The reader finds the frames that were sent, however the stream was cut. -/
theorem readFrames_encoded (payloads pieces : List Bytes) (hsize : ∀ p ∈ payloads, p.length ≤ PROTOCOL_SEND_MSS)
    (hpieces : pieces.flatten = (payloads.map encodeFrame).flatten) :
    readFrames pieces = payloads.filter (· ≠ []) := by
  induction payloads generalizing pieces with
  | nil =>
    -- nothing is left to read a header from
    have hnone : readFrame pieces = none := by
      cases h : readFrame pieces with
      | none => rfl
      | some turn =>
        have hlength := congrArg List.length (readFrame_whole (show _ = some (turn.1, turn.2) from h)).1
        rw [hpieces, length_append, length_encodeFrame] at hlength
        simp only [map_nil, flatten_nil, length_nil] at hlength
        omega
    rw [readFrames]
    split
    · rfl
    rename_i h
    rw [hnone] at h
    cases h
  | cons payload payloads ih =>
    obtain ⟨pieces', hrest, hframe⟩ := readFrame_frame hpieces (hsize payload mem_cons_self)
    have hread := ih _ (fun p hp => hsize p (mem_cons_of_mem _ hp)) hrest
    rw [readFrames]
    split
    · rename_i h
      rw [hframe] at h
      cases h
    rename_i h
    rw [hframe] at h
    cases h
    rw [hread]
    by_cases hempty : payload = []
    · simp [hempty]
    · simp [hempty]

/-- Whatever the stream is, what the reader processes are whole frames from its beginning. -/
theorem readFrames_whole (pieces : List Bytes) : ∃ (payloads : List Bytes) (rest : Bytes),
    pieces.flatten = (payloads.map encodeFrame).flatten ++ rest ∧
    (∀ p ∈ payloads, p.length ≤ PROTOCOL_RECV_MSS) ∧ readFrames pieces = payloads.filter (· ≠ []) := by
  fun_induction readFrames pieces with
  | case1 pieces h => exact ⟨[], pieces.flatten, rfl, by simp, rfl⟩
  | case2 pieces payload pieces' h ih =>
    obtain ⟨payloads, rest, hpieces, hsize, hread⟩ := ih
    obtain ⟨hframe, hsome, hlimit⟩ := readFrame_whole h
    refine ⟨payload.getD [] :: payloads, rest, ?_, ?_, ?_⟩
    · rw [hframe, hpieces, map_cons, flatten_cons, append_assoc]
    · intro p hp
      rcases mem_cons.1 hp with rfl | hp
      · exact hlimit
      · exact hsize p hp
    · rw [hread]
      cases payload with
      | none => simp
      | some payload =>
        have hne : payload ≠ [] := fun h => hsome (by rw [h])
        simp [hne]

end Imm
