import Imm.Socket.Buffers
import Mathlib.Tactic.IntervalCases

/-! What a connection hands to its socket. There is one write loop at most, and while the connection is
    open it is there whenever a frame waits; so the frames of the envelopes that were accepted stand in
    one line: written, being written, waiting (`Socket.Flow`). What the socket has got is a beginning
    of that line, made of whole frames, and the reader at the other end finds the envelopes in it. -/

namespace Imm

open Steps List

namespace Socket

/-- The frames of the envelopes that were accepted. -/
def line (s : Socket) : List Bytes := s.sent.map fun envelope => encodeFrame envelope.bytes

structure Flow (s : Socket) : Prop where
  one : s.loops.length ≤ 1
  running : s.closed = false → (s.writing = true ↔ s.loops ≠ [])
  waiting : s.closed = false → s.writes ≠ [] → s.loops ≠ []
  frames : s.closed = false → s.line = s.written ++ s.beingWritten ++ s.writes
  handed : s.closed = false → s.output = (s.written ++ s.beingWritten).flatten
  whole : ∃ n ≤ s.sent.length, s.output = (s.line.take n).flatten
  /-- the response to `quit` is in the line, and the loop that closes the connection is running -/
  quits : s.closed = false → s.closeAfterWrite = true →
    s.loops ≠ [] ∧ ∃ n, s.quitResponse = some n ∧ n < s.sent.length
  gate : s.closed = false → s.writerClosed = true ∨ s.quitting = true → s.closeAfterWrite = true
  sizes : ∀ envelope ∈ s.sent, envelope.bytes.length ≤ PROTOCOL_SEND_MSS

variable {s s' : Socket}

theorem whole_of_line {handed : List Bytes} (hframes : s.line = handed ++ s.writes)
    (hhanded : s.output = handed.flatten) : ∃ n ≤ s.sent.length, s.output = (s.line.take n).flatten := by
  refine ⟨handed.length, ?_, ?_⟩
  · have hlength := congrArg List.length hframes
    rw [line, length_map, length_append] at hlength
    omega
  · rw [hframes, take_left, hhanded]

theorem Flow.reliable (h : s.Flow) (reliable : Table ℤ ReliableEntry) (reliableBytes : ℕ)
    (writeBudget reliableBudget : Budget) :
    ({ s with reliable, reliableBytes, writeBudget, reliableBudget } : Socket).Flow :=
  ⟨h.one, h.running, h.waiting, h.frames, h.handed, h.whole, h.quits, h.gate, h.sizes⟩

/-- Once it is closed, all that matters is what was handed over. -/
theorem flow_closed (hwhole : ∃ n ≤ s.sent.length, s.output = (s.line.take n).flatten)
    (hsizes : ∀ envelope ∈ s.sent, envelope.bytes.length ≤ PROTOCOL_SEND_MSS) (hclosed : s'.closed = true)
    (hone : s'.loops.length ≤ 1) (hsent : s'.sent = s.sent) (houtput : s'.output = s.output) : s'.Flow := by
  have hnot : s'.closed ≠ false := by simp [hclosed]
  refine ⟨hone, fun h => absurd h hnot, fun h => absurd h hnot, fun h => absurd h hnot, fun h => absurd h hnot,
    ?_, fun h => absurd h hnot, fun h => absurd h hnot, hsent ▸ hsizes⟩
  rw [houtput, line, hsent]
  exact hwhole

theorem close_eq (s : Socket) : s.close.loops = s.loops ∧ s.close.sent = s.sent ∧ s.close.output = s.output ∧
    s.close.written = s.written := by
  unfold close
  split <;> exact ⟨rfl, rfl, rfl, rfl⟩

theorem Flow.close (h : s.Flow) : s.close.Flow := by
  obtain ⟨hloops, hsent, houtput, -⟩ := close_eq s
  exact flow_closed h.whole h.sizes (closed_close s) (hloops ▸ h.one) hsent houtput

/-! ### Sending -/

theorem Flow.queue (h : s.Flow) (hopen : s.closed = false) {envelope : Octets}
    (hsize : envelope.bytes.length ≤ PROTOCOL_SEND_MSS) (writeBudget : Budget) :
    (s.queue envelope writeBudget).Flow ∧ (s.queue envelope writeBudget).loops ≠ [] := by
  have hloops : (s.queue envelope writeBudget).loops ≠ [] ∧
      (s.queue envelope writeBudget).loops.length ≤ 1 := by
    unfold Socket.queue
    split
    · rename_i hwriting
      exact ⟨(h.running hopen).1 hwriting, h.one⟩
    rename_i hidle
    have hnone : s.loops = [] := by
      by_contra hne
      exact hidle ((h.running hopen).2 hne)
    rw [hnone]
    simp
  have hline : (s.queue envelope writeBudget).line =
      (s.written ++ s.beingWritten) ++ (s.queue envelope writeBudget).writes := by
    simp only [line, Socket.queue, map_append, map_cons, map_nil]
    rw [← append_assoc, ← h.frames hopen]
    rfl
  have hbeing := beingWritten_queue s envelope writeBudget
  refine ⟨⟨hloops.2, fun _ => ⟨fun _ => hloops.1, fun _ => rfl⟩, fun _ _ => hloops.1, fun _ => ?_, fun _ => ?_,
    whole_of_line hline (h.handed hopen), fun _ hquit => ⟨hloops.1, ?_⟩, fun _ => h.gate hopen, ?_⟩, hloops.1⟩
  · rw [hbeing, hline]
    rfl
  · rw [hbeing]
    exact h.handed hopen
  · obtain ⟨-, n, hn, hlt⟩ := h.quits hopen hquit
    exact ⟨n, hn, by simp only [Socket.queue, length_append]; omega⟩
  · intro envelope' he
    rcases mem_append.1 he with he | he
    · exact h.sizes envelope' he
    rw [mem_singleton.1 he]
    exact hsize

theorem Flow.send (h : s.Flow) (envelope : Octets) : (s.send envelope).1.Flow := by
  rcases send_cases s envelope with hsend | ⟨writeBudget, hsend, hopen, hsize, -⟩
  · rw [hsend]
    exact h.close
  rw [hsend]
  exact (h.queue hopen hsize writeBudget).1

theorem Flow.sendReliable (h : s.Flow) (envelope : Octets) (sequence : ℤ) :
    (s.sendReliable envelope sequence).1.Flow := by
  unfold Socket.sendReliable
  split
  · exact h.send envelope
  split
  · unfold Socket.replaceReliable
    dsimp only
    split
    · exact h.close
    split
    · exact h.close
    rename_i previous _ _ _ reliableBudget _
    have hsent := (h.reliable (s.reliable.set sequence
      (some { previous with units := envelope.bytes.length })) s.reliableBytes s.writeBudget
      reliableBudget).send envelope
    split
    · rename_i hsend
      rwa [hsend] at hsent
    rename_i hsend
    rw [hsend] at hsent
    exact hsent.reliable _ _ _ _
  · unfold Socket.addReliable
    dsimp only
    split
    · exact h.close
    split
    · exact h.close
    rename_i reliableBudget _
    have hsent := (h.reliable s.reliable s.reliableBytes s.writeBudget reliableBudget).send envelope
    split
    · rename_i hsend
      rw [hsend] at hsent
      exact hsent.reliable _ _ _ _
    rename_i hsend
    rw [hsend] at hsent
    exact hsent.reliable _ _ _ _

theorem Flow.acknowledge (h : s.Flow) (sequence : ℤ) : (s.acknowledge sequence).Flow := by
  unfold Socket.acknowledge
  split
  · exact h
  · exact h.reliable _ _ _ _

theorem Flow.retry (h : s.Flow) (sequence : ℤ) : (s.retry sequence).Flow := by
  unfold Socket.retry
  split
  · exact h
  split
  · exact h
  split
  · exact h.acknowledge sequence
  · exact (h.reliable _ _ _ _).send _

/-- `quit`: the connection is closed, or its response ends the line. -/
theorem quit_cases (s : Socket) (response : Octets) :
    ((s.quit response).closed = true ∧ (s.quit response).loops = s.loops ∧
      (s.quit response).sent = s.sent ∧ (s.quit response).output = s.output) ∨
    ∃ writeBudget, s.quit response = { s.queue response writeBudget with
        closeAfterWrite := true, writerClosed := true, quitting := true, quitResponse := some s.sent.length } ∧
      s.closed = false ∧ response.bytes.length ≤ PROTOCOL_SEND_MSS := by
  unfold quit
  rcases send_cases { s with closeAfterWrite := true } response with
    hsend | ⟨writeBudget, hsend, hopen, hsize, -⟩
  · obtain ⟨hloops, hsent, houtput, -⟩ := close_eq { s with closeAfterWrite := true }
    rw [hsend]
    exact .inl ⟨closed_close _, hloops, hsent, houtput⟩
  rw [hsend]
  exact .inr ⟨writeBudget, rfl, hopen, hsize⟩

theorem Flow.quit (h : s.Flow) (response : Octets) : (s.quit response).Flow := by
  rcases quit_cases s response with ⟨hclosed, hloops, hsent, houtput⟩ | ⟨writeBudget, hquit, hopen, hsize⟩
  · exact flow_closed h.whole h.sizes hclosed (hloops ▸ h.one) hsent houtput
  obtain ⟨hqueue, hloops⟩ := h.queue hopen hsize writeBudget
  rw [hquit]
  refine ⟨hqueue.one, hqueue.running, hqueue.waiting, hqueue.frames, hqueue.handed, hqueue.whole,
    fun _ _ => ⟨hloops, s.sent.length, rfl, ?_⟩, fun _ _ => rfl, hqueue.sizes⟩
  simp [Socket.queue]

/-! ### The loops -/

theorem only_loop (h : s.loops.length ≤ 1) {k : ℕ} {loop : WriteLoop} (hk : s.loops[k]? = some loop) :
    s.loops = [loop] ∧ k = 0 := by
  obtain ⟨hlt, hloop⟩ := List.getElem?_eq_some_iff.1 hk
  obtain rfl : k = 0 := by omega
  obtain ⟨loop', hloops⟩ := length_eq_one_iff.1 (show s.loops.length = 1 by omega)
  simp only [hloops, getElem_cons_zero] at hloop
  exact ⟨by rw [hloops, hloop], rfl⟩

theorem loopHead_flow {loop : WriteLoop} (hloops : s.loops = [loop])
    (hwriting : s.closed = false → s.writing = true)
    (hframes : s.closed = false → s.line = s.written ++ s.writes)
    (hhanded : s.closed = false → s.output = s.written.flatten)
    (hwhole : ∃ n ≤ s.sent.length, s.output = (s.line.take n).flatten)
    (hquits : s.closed = false → s.closeAfterWrite = true → ∃ n, s.quitResponse = some n ∧ n < s.sent.length)
    (hgate : s.closed = false → s.writerClosed = true ∨ s.quitting = true → s.closeAfterWrite = true)
    (hsizes : ∀ envelope ∈ s.sent, envelope.bytes.length ≤ PROTOCOL_SEND_MSS) : (s.loopHead 0).Flow := by
  unfold loopHead
  split
  · rename_i frame writes hwrites hopen
    have hset : s.loops.set 0 (.busy frame) = [.busy frame] := by rw [hloops]; rfl
    have hline : s.line = (s.written ++ [frame]) ++ writes := by
      rw [hframes hopen, hwrites]
      simp
    have hbytes : s.output ++ frame = (s.written ++ [frame]).flatten := by
      rw [hhanded hopen]
      simp
    rw [hset]
    exact ⟨le_rfl, fun _ => ⟨fun _ => by simp, fun _ => hwriting hopen⟩, fun _ _ => by simp, fun _ => hline,
      fun _ => hbytes, whole_of_line hline hbytes,
      fun _ hclose => ⟨by simp, hquits hopen hclose⟩, hgate, hsizes⟩
  · rename_i hlast
    have herase : s.loops.eraseIdx 0 = [] := by rw [hloops]; rfl
    rw [herase]
    split
    · obtain ⟨hloops', hsent, houtput, -⟩ := close_eq { s with loops := [], writing := false }
      exact flow_closed hwhole hsizes (closed_close _) (hloops' ▸ Nat.zero_le _) hsent houtput
    rename_i hstay
    have hnone : s.closed = false → s.writes = [] := by
      intro hopen
      cases hwrites : s.writes with
      | nil => rfl
      | cons frame writes => exact absurd hopen (hlast frame writes hwrites)
    refine ⟨Nat.zero_le _, fun _ => by simp, fun hopen hwrites => absurd (hnone hopen) hwrites, fun hopen => ?_,
      fun hopen => ?_, hwhole, fun _ hclose => absurd hclose hstay, hgate, hsizes⟩
    · simpa [beingWritten, line] using hframes hopen
    · simpa [beingWritten] using hhanded hopen

theorem Flow.start (h : s.Flow) {k : ℕ} (hk : s.loops[k]? = some .ready) : (s.loopHead k).Flow := by
  obtain ⟨hloops, rfl⟩ := only_loop h.one hk
  have hbeing : s.beingWritten = [] := by rw [beingWritten, hloops]; rfl
  refine loopHead_flow hloops (fun hopen => (h.running hopen).2 (by simp [hloops])) (fun hopen => ?_)
    (fun hopen => ?_) h.whole (fun hopen hclose => (h.quits hopen hclose).2) h.gate h.sizes
  · rw [h.frames hopen, hbeing, append_nil]
  · rw [h.handed hopen, hbeing, append_nil]

theorem Flow.flushed (h : s.Flow) {k : ℕ} {frame : Bytes} (hk : s.loops[k]? = some (.busy frame)) :
    (s.flushed k frame).Flow := by
  obtain ⟨hloops, rfl⟩ := only_loop h.one hk
  have hbeing : s.beingWritten = [frame] := by rw [beingWritten, hloops]; rfl
  refine loopHead_flow hloops (fun hopen => (h.running hopen).2 (by simp [hloops])) (fun hopen => ?_)
    (fun hopen => ?_) h.whole (fun hopen hclose => (h.quits hopen hclose).2) h.gate h.sizes
  · have hframes := h.frames hopen
    rwa [hbeing] at hframes
  · have hhanded := h.handed hopen
    rwa [hbeing] at hhanded

theorem Flow.failed (h : s.Flow) {k : ℕ} {frame : Bytes} (hk : s.loops[k]? = some (.busy frame))
    (writeBudget : Budget) :
    ({ s with loops := s.loops.set k (.failed (some frame)), writeBudget } : Socket).Flow := by
  obtain ⟨hloops, rfl⟩ := only_loop h.one hk
  have hset : s.loops.set 0 (.failed (some frame)) = [.failed (some frame)] := by rw [hloops]; rfl
  have hbeing : s.beingWritten = [frame] := by rw [beingWritten, hloops]; rfl
  rw [hset]
  refine ⟨le_rfl, fun hopen => ⟨fun _ => by simp, fun _ => ?_⟩, fun _ _ => by simp, fun hopen => ?_,
    fun hopen => ?_, h.whole, fun hopen hclose => ⟨by simp, (h.quits hopen hclose).2⟩, h.gate, h.sizes⟩
  · exact (h.running hopen).2 (by simp [hloops])
  · have hframes := h.frames hopen
    rwa [hbeing] at hframes
  · have hhanded := h.handed hopen
    rwa [hbeing] at hhanded

theorem Flow.handled (h : s.Flow) (k : ℕ) : ({ s with loops := s.loops.eraseIdx k } : Socket).close.Flow := by
  obtain ⟨hloops, hsent, houtput, -⟩ := close_eq { s with loops := s.loops.eraseIdx k }
  refine flow_closed h.whole h.sizes (closed_close _) ?_ hsent houtput
  rw [hloops]
  exact (length_eraseIdx_le _ _).trans h.one

theorem step_flow (h : s.Flow) {e : SocketEvent} (hstep : s.step e = some s') : s'.Flow := by
  cases e with
  | send envelope =>
    cases hstep
    exact h.send envelope
  | sendReliable envelope sequence =>
    cases hstep
    exact h.sendReliable envelope sequence
  | retry sequence =>
    cases hstep
    exact h.retry sequence
  | acknowledge sequence =>
    cases hstep
    exact h.acknowledge sequence
  | quit response =>
    simp only [step] at hstep
    split at hstep
    · cases hstep
    cases hstep
    exact h.quit response
  | quitDone =>
    simp only [step] at hstep
    split at hstep
    · cases hstep
      exact h.close
    · cases hstep
  | start k =>
    simp only [step] at hstep
    split at hstep
    · rename_i hk
      cases hstep
      exact h.start hk
    · cases hstep
  | written k ok =>
    simp only [step] at hstep
    split at hstep
    · rename_i hk
      split at hstep
      · cases hstep
        exact h.flushed hk
      cases hstep
      exact h.failed hk _
    · cases hstep
  | handled k =>
    simp only [step] at hstep
    split at hstep
    · cases hstep
      exact h.handled k
    · cases hstep
  | close =>
    cases hstep
    exact h.close
  | budgets writeBudget reliableBudget =>
    cases hstep
    exact h.reliable _ _ _ _

theorem fresh_flow (writeBudget reliableBudget : Budget) : (fresh writeBudget reliableBudget).Flow where
  one := Nat.zero_le _
  running _ := by simp [fresh]
  waiting _ h := absurd rfl h
  frames _ := rfl
  handed _ := rfl
  whole := ⟨0, le_rfl, rfl⟩
  quits _ := by rintro ⟨⟩
  gate _ := by simp [fresh]
  sizes := by rintro _ ⟨⟩

/-! ### Quitting -/

theorem loopHead_closes {k : ℕ} (h : (s.loopHead k).closed = true) (hopen : s.closed = false) :
    s.writes = [] ∧ s.closeAfterWrite = true ∧ (s.loopHead k).written = s.written := by
  unfold loopHead at h ⊢
  split at h
  · rw [show s.closed = true from h] at hopen
    cases hopen
  rename_i hlast
  have hnone : s.writes = [] := by
    cases hwrites : s.writes with
    | nil => rfl
    | cons frame writes => exact absurd hopen (hlast frame writes hwrites)
  split at h
  · rename_i hclose
    rw [hnone]
    rw [if_pos hclose]
    exact ⟨rfl, hclose, (close_eq _).2.2.2⟩
  · rw [show s.closed = true from h] at hopen
    cases hopen

/-- The events by which a connection closes itself once it was asked to. -/
def SocketEvent.own : SocketEvent → Bool
  | .quitDone | .start _ | .written _ true => true
  | _ => false

/-- It has written the response by then, unless a write failed. -/
theorem Flow.closes_itself (h : s.Flow) {e : SocketEvent} (hown : SocketEvent.own e = true)
    (hstep : s.step e = some s') (hopen : s.closed = false) (hclosed : s'.closed = true) :
    (∃ n response, s.quitResponse = some n ∧ s.sent[n]? = some response ∧
      s'.written[n]? = some (encodeFrame response.bytes)) ∨ ∃ frame, .failed frame ∈ s.loops := by
  -- everything that was sent has been written
  have hdone : s.closeAfterWrite = true → s'.written = s.line → ∃ n response, s.quitResponse = some n ∧
      s.sent[n]? = some response ∧ s'.written[n]? = some (encodeFrame response.bytes) := by
    intro hclose hwritten
    obtain ⟨-, n, hn, hlt⟩ := h.quits hopen hclose
    refine ⟨n, s.sent[n], hn, getElem?_eq_getElem hlt, ?_⟩
    rw [hwritten, line, getElem?_map, getElem?_eq_getElem hlt]
    rfl
  cases e with
  | quitDone =>
    right
    simp only [step] at hstep
    split at hstep
    · rename_i hquit
      obtain ⟨hquitting, hout⟩ := hquit
      have hloops := (h.quits hopen (h.gate hopen (.inr hquitting))).1
      obtain ⟨loop, loops, hcons⟩ := exists_cons_of_ne_nil hloops
      have hloop := all_eq_true.1 hout loop (by simp [hcons])
      cases loop with
      | failed frame => exact ⟨frame, by simp [hcons]⟩
      | _ => simp [WriteLoop.inside] at hloop
    · cases hstep
  | start k =>
    left
    simp only [step] at hstep
    split at hstep
    · rename_i hk
      cases hstep
      obtain ⟨hloops, rfl⟩ := only_loop h.one hk
      obtain ⟨hnone, hclose, hwritten⟩ := loopHead_closes hclosed hopen
      refine hdone hclose ?_
      rw [hwritten, h.frames hopen, hnone, beingWritten, hloops]
      simp [WriteLoop.frames]
    · cases hstep
  | written k ok =>
    left
    obtain rfl : ok = true := by
      cases ok
      · cases hown
      · rfl
    simp only [step] at hstep
    split at hstep
    · rename_i frame hk
      cases hstep
      obtain ⟨hloops, rfl⟩ := only_loop h.one hk
      obtain ⟨hnone, hclose, hwritten⟩ := loopHead_closes hclosed hopen
      refine hdone hclose (hwritten.trans ?_)
      rw [h.frames hopen, show s.writes = [] from hnone, beingWritten, hloops]
      simp [WriteLoop.frames]
    · cases hstep
  | _ => cases hown

end Socket

open Socket in
/-- What a connection hands to its socket, after every run. One write loop runs at most; the socket has
    got the frames of the first `n` envelopes that were accepted, whole, and the reader finds just
    these envelopes in its bytes however they are cut; while the connection is open every envelope is
    written, being written or waiting, once. After `quit` the connection closes itself only when the
    response is written, or a write has failed. A reader that is given anything else processes whole
    frames as well. -/
theorem frames_in_order (writeBudget reliableBudget : Budget) {events : List SocketEvent} {s : Socket}
    (h : events.foldlM step (fresh writeBudget reliableBudget) = some s) :
    s.loops.length ≤ 1 ∧
    (∃ n ≤ s.sent.length,
      s.output = ((s.sent.take n).map fun envelope => encodeFrame envelope.bytes).flatten ∧
      ∀ pieces : List Octets, (pieces.map (·.bytes)).flatten = s.output →
        readFrames (pieces.map (·.bytes)) = (s.sent.take n).map (·.bytes)) ∧
    (s.closed = false →
      (s.sent.map fun envelope => encodeFrame envelope.bytes) = s.written ++ s.beingWritten ++ s.writes) ∧
    (∀ response s', s.step (.quit response) = some s' → s'.closed = true ∨
      ∃ n, s'.quitResponse = some n ∧ s'.sent[n]? = some response) ∧
    (∀ e s', SocketEvent.own e = true → s.step e = some s' → s.closed = false → s'.closed = true →
      (∃ n response, s.quitResponse = some n ∧ s.sent[n]? = some response ∧
        s'.written[n]? = some (encodeFrame response.bytes)) ∨ ∃ frame, .failed frame ∈ s.loops) ∧
    ∀ pieces : List Octets, ∃ (payloads : List Bytes) (rest : Bytes),
      (pieces.map (·.bytes)).flatten = (payloads.map encodeFrame).flatten ++ rest ∧
      (∀ p ∈ payloads, p.length ≤ PROTOCOL_RECV_MSS) ∧
      readFrames (pieces.map (·.bytes)) = payloads.filter (· ≠ []) := by
  have hflow : s.Flow := run_invariant (fresh_flow writeBudget reliableBudget)
    (fun _ _ _ hs hstep => step_flow hs hstep) h
  refine ⟨hflow.one, ?_, hflow.frames, fun response s' hstep => ?_,
    fun e s' hown hstep hopen hclosed => hflow.closes_itself hown hstep hopen hclosed,
    fun pieces => readFrames_whole _⟩
  · obtain ⟨n, hn, houtput⟩ := hflow.whole
    rw [line, ← map_take] at houtput
    refine ⟨n, hn, houtput, fun pieces hpieces => ?_⟩
    have hread := readFrames_encoded ((s.sent.take n).map (·.bytes)) (pieces.map (·.bytes)) (by
        intro p hp
        obtain ⟨envelope, he, rfl⟩ := mem_map.1 hp
        exact hflow.sizes envelope (mem_of_mem_take he))
      (by rw [hpieces, houtput, map_map]; rfl)
    rw [hread, filter_eq_self]
    intro p hp
    obtain ⟨envelope, -, rfl⟩ := mem_map.1 hp
    simpa using envelope.nonempty
  · simp only [step] at hstep
    split at hstep
    · cases hstep
    cases hstep
    rcases quit_cases s response with ⟨hclosed, -⟩ | ⟨writeBudget, hquit, -⟩
    · exact .inl hclosed
    rw [hquit]
    exact .inr ⟨s.sent.length, rfl, by simp [queue]⟩

namespace Socket

theorem threeBytes_nonempty : ([1, 2, 3] : Bytes) ≠ [] := by decide

/-- Two envelopes and the response to `quit` are written. -/
def saying : List SocketEvent := [
  .send ⟨[1, 2, 3], threeBytes_nonempty⟩,
  .start 0,
  .send ⟨[4], by decide⟩,
  .quit ⟨[9], by decide⟩,
  .written 0 true,
  .written 0 true]

end Socket

open Socket in
theorem frames_in_order_saying : ∃ s, saying.foldlM step (fresh ⟨8, 100⟩ ⟨8, 100⟩) = some s ∧
    s.closed = false ∧ s.output = [0, 0, 0, 3, 1, 2, 3, 0, 0, 0, 1, 4, 0, 0, 0, 1, 9] ∧
    ∃ s', s.step (.written 0 true) = some s' ∧ s'.closed = true ∧
      readFrames [[0, 0, 0], [3, 1, 2, 3, 0], [0, 0, 1, 4, 0, 0, 0, 1, 9]] = [[1, 2, 3], [4], [9]] := by
  obtain ⟨s, hrun, hs⟩ := (Option.any_eq_true _ _).1
    (show (saying.foldlM step (fresh ⟨8, 100⟩ ⟨8, 100⟩)).any (fun s => decide (s.closed = false ∧
      s.output = [0, 0, 0, 3, 1, 2, 3, 0, 0, 0, 1, 4, 0, 0, 0, 1, 9] ∧
      s.sent.map (·.bytes) = [[1, 2, 3], [4], [9]] ∧
      ((s.step (.written 0 true)).map (·.closed)) = some true)) = true by decide +kernel)
  obtain ⟨hopen, houtput, hsent, hlast⟩ := of_decide_eq_true hs
  obtain ⟨s', hs', hclosed⟩ := Option.map_eq_some_iff.1 hlast
  refine ⟨s, hrun, hopen, houtput, s', hs', hclosed, ?_⟩
  obtain ⟨-, ⟨n, hn, houtput', hread⟩, -⟩ := frames_in_order ⟨8, 100⟩ ⟨8, 100⟩ hrun
  have hbytes : (s.sent.take n).map (·.bytes) = [[1, 2, 3], [4], [9]].take n := by rw [map_take, hsent]
  have hframes : s.output = (([[1, 2, 3], [4], [9]].take n).map encodeFrame).flatten := by
    rw [houtput', ← hbytes, map_map]
    rfl
  have hlength : n ≤ 3 := by
    rw [← length_map, hsent] at hn
    exact hn
  obtain rfl : n = 3 := by
    rw [houtput] at hframes
    interval_cases n
    · exact absurd hframes (by decide)
    · exact absurd hframes (by decide)
    · exact absurd hframes (by decide)
    · rfl
  rw [hbytes] at hread
  exact hread [⟨[0, 0, 0], by decide⟩, ⟨[3, 1, 2, 3, 0], by decide⟩, ⟨[0, 0, 1, 4, 0, 0, 0, 1, 9], by decide⟩]
    (by rw [houtput]; decide)

end Imm
