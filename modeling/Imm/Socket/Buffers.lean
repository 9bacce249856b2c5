import Imm.Schemes.Paths
import Imm.Socket.Connection
import Mathlib.Algebra.Order.BigOperators.Group.List

/-! The sums that a connection keeps of its buffers. `_write_bytes` is the size of the frames that wait or
    are being written, `_reliable_bytes` that of the pushes that are kept; both stay within the limits,
    so that no subtraction of `size_t`s wraps around (`Socket.Accounts`). A connection that is closed
    has neither. -/

namespace Imm

open Steps List Table

theorem sizeAdd_of_le {a b : ℕ} (h : a + b ≤ 2 * maxConnectionBytes) : sizeAdd a b = a + b := by
  unfold maxConnectionBytes at h
  exact Nat.mod_eq_of_lt (by omega)

theorem sizeSub_of_le {a b : ℕ} (h : b ≤ a) (ha : a ≤ maxConnectionBytes) : sizeSub a b = a - b := by
  unfold sizeSub
  unfold maxConnectionBytes at ha
  rw [Nat.mod_eq_of_lt (by omega : b < 2 ^ 64), show a + (2 ^ 64 - b) = a - b + 2 ^ 64 by omega,
    Nat.add_mod_right]
  exact Nat.mod_eq_of_lt (by omega)

namespace Socket

/-- The bytes of the frames that wait or are being written. -/
def pendingBytes (s : Socket) : ℕ := ((s.writes ++ s.beingWritten).map List.length).sum

/-- The sum of the writer. -/
structure WriteSums (s : Socket) : Prop where
  bytes : s.closed = false → s.writeBytes = s.pendingBytes
  limits : s.closed = false → s.writeBytes ≤ maxConnectionBytes ∧ s.writes.length ≤ maxConnectionWrites
  emptied : s.closed = true → s.writes = [] ∧ s.writeBytes = 0

/-- The sum of the pushes that are kept. -/
structure ReliableSums (s : Socket) : Prop where
  bytes : s.closed = false → s.reliableBytes = s.reliable.total (·.envelope.bytes.length)
  limits : s.closed = false →
    s.reliableBytes ≤ maxConnectionBytes ∧ s.reliable.rows.length ≤ maxConnectionWrites
  units : ∀ sequence entry, s.reliable.get sequence = some entry → entry.units = entry.envelope.bytes.length
  emptied : s.closed = true → s.reliable = ∅ ∧ s.reliableBytes = 0

variable {s s' : Socket}

/-! ### Closing and sending -/

@[simp] theorem closed_close (s : Socket) : s.close.closed = true := by
  unfold close
  split
  · assumption
  · rfl

theorem WriteSums.close (h : s.WriteSums) : s.close.WriteSums := by
  unfold Socket.close
  split
  · exact h
  · exact ⟨by simp, by simp, fun _ => ⟨rfl, rfl⟩⟩

theorem ReliableSums.close (h : s.ReliableSums) : s.close.ReliableSums := by
  unfold Socket.close
  split
  · exact h
  · exact ⟨by simp, by simp, by simp, fun _ => ⟨rfl, rfl⟩⟩

theorem WriteSums.congr (h : s.WriteSums) (hsame : (s'.closed, s'.writes, s'.writeBytes, s'.beingWritten) =
    (s.closed, s.writes, s.writeBytes, s.beingWritten)) : s'.WriteSums := by
  simp only [Prod.mk.injEq] at hsame
  obtain ⟨hclosed, hwrites, hbytes, hloops⟩ := hsame
  refine ⟨fun hopen => ?_, fun hopen => ?_, fun hend => ?_⟩
  · rw [hbytes, h.bytes (hclosed ▸ hopen), pendingBytes, pendingBytes, hwrites, hloops]
  · rw [hbytes, hwrites]
    exact h.limits (hclosed ▸ hopen)
  · rw [hbytes, hwrites]
    exact h.emptied (hclosed ▸ hend)

theorem ReliableSums.congr (h : s.ReliableSums)
    (hsame : (s'.closed, s'.reliable, s'.reliableBytes) = (s.closed, s.reliable, s.reliableBytes)) :
    s'.ReliableSums := by
  simp only [Prod.mk.injEq] at hsame
  obtain ⟨hclosed, hreliable, hbytes⟩ := hsame
  refine ⟨fun hopen => ?_, fun hopen => ?_, ?_, fun hend => ?_⟩
  · rw [hbytes, hreliable]
    exact h.bytes (hclosed ▸ hopen)
  · rw [hbytes, hreliable]
    exact h.limits (hclosed ▸ hopen)
  · rw [hreliable]
    exact h.units
  · rw [hbytes, hreliable]
    exact h.emptied (hclosed ▸ hend)

/-- What `send` does: it queues the frame, or the connection is closed afterwards. -/
theorem send_cases (s : Socket) (envelope : Octets) :
    s.send envelope = (s.close, false) ∨
    ∃ writeBudget, s.send envelope = (s.queue envelope writeBudget, true) ∧ s.closed = false ∧
      envelope.bytes.length ≤ PROTOCOL_SEND_MSS ∧ s.writes.length < maxConnectionWrites ∧
      sizeAdd envelope.bytes.length 4 ≤ sizeSub maxConnectionBytes s.writeBytes := by
  unfold send
  dsimp only
  split
  · rename_i hclosed
    rw [Socket.close, if_pos hclosed]
    exact .inl rfl
  rename_i hopen
  split
  · exact .inl rfl
  rename_i hlimits
  simp only [not_or, Nat.not_lt, Nat.not_le] at hlimits
  split
  · exact .inl rfl
  rename_i writeBudget _
  exact .inr ⟨writeBudget, rfl, by simpa using hopen, hlimits⟩

theorem beingWritten_queue (s : Socket) (envelope : Octets) (writeBudget : Budget) :
    (s.queue envelope writeBudget).beingWritten = s.beingWritten := by
  unfold beingWritten queue
  split
  · rfl
  cases s.writerClosed <;> simp [WriteLoop.frames]

variable {envelope : Octets} {sequence : ℤ} {k : ℕ} {loop : WriteLoop}

theorem WriteSums.queue (h : s.WriteSums) (hopen : s.closed = false)
    (hsize : envelope.bytes.length ≤ PROTOCOL_SEND_MSS) (hcount : s.writes.length < maxConnectionWrites)
    (hbytes : sizeAdd envelope.bytes.length 4 ≤ sizeSub maxConnectionBytes s.writeBytes)
    (writeBudget : Budget) : (s.queue envelope writeBudget).WriteSums := by
  have hsum := h.bytes hopen
  obtain ⟨hmax, -⟩ := h.limits hopen
  have hadd : sizeAdd envelope.bytes.length 4 = envelope.bytes.length + 4 :=
    sizeAdd_of_le (by unfold PROTOCOL_SEND_MSS at hsize; unfold maxConnectionBytes; omega)
  rw [hadd, sizeSub_of_le hmax le_rfl] at hbytes
  have htotal : sizeAdd s.writeBytes (envelope.bytes.length + 4) = s.writeBytes + (envelope.bytes.length + 4) :=
    sizeAdd_of_le (by omega)
  refine ⟨fun _ => ?_, fun _ => ⟨?_, ?_⟩, fun hclosed => ?_⟩
  · refine (show (s.queue envelope writeBudget).writeBytes = _ from htotal).trans ?_
    rw [hsum, pendingBytes, pendingBytes, beingWritten_queue]
    simp only [Socket.queue, map_append, sum_append, map_cons, map_nil, sum_cons, sum_nil, length_encodeFrame]
    omega
  · simp only [Socket.queue, htotal]
    omega
  · simp only [Socket.queue, length_append, length_cons, length_nil]
    omega
  · rw [show (s.queue envelope writeBudget).closed = s.closed from rfl, hopen] at hclosed
    cases hclosed

theorem WriteSums.send (h : s.WriteSums) (envelope : Octets) : (s.send envelope).1.WriteSums := by
  rcases send_cases s envelope with hsend | ⟨writeBudget, hsend, hopen, hsize, hcount, hbytes⟩
  · rw [hsend]
    exact h.close
  rw [hsend]
  exact h.queue hopen hsize hcount hbytes writeBudget

theorem ReliableSums.send (h : s.ReliableSums) (envelope : Octets) : (s.send envelope).1.ReliableSums := by
  rcases send_cases s envelope with hsend | ⟨writeBudget, hsend, hopen, hsize, hcount, hbytes⟩
  · rw [hsend]
    exact h.close
  rw [hsend]
  exact h.congr rfl

theorem send_true (hsend : s.send envelope = (s', true)) :
    s'.closed = false ∧ s'.reliable = s.reliable ∧ s'.reliableBytes = s.reliableBytes := by
  rcases send_cases s envelope with h | ⟨writeBudget, h, hopen, -⟩
  · rw [h] at hsend
    cases hsend
  rw [h] at hsend
  cases hsend
  exact ⟨hopen, rfl, rfl⟩

theorem send_false (hsend : s.send envelope = (s', false)) : s' = s.close := by
  rcases send_cases s envelope with h | ⟨writeBudget, h, -⟩
  · rw [h] at hsend
    exact (congrArg Prod.fst hsend).symm
  rw [h] at hsend
  cases hsend

/-! ### Pushes that are kept -/

theorem ReliableSums.isOpen (h : s.ReliableSums) {entry : ReliableEntry}
    (hget : s.reliable.get sequence = some entry) : s.closed = false := by
  refine Bool.eq_false_iff.2 fun hclosed => ?_
  rw [(h.emptied hclosed).1] at hget
  cases hget

/-- An entry comes, or takes the place of another one; `rest` is the size of the others. -/
theorem ReliableSums.set (h : s.ReliableSums) (sequence : ℤ) (entry : ReliableEntry) (hopen : s'.closed = false)
    (hreliable : s'.reliable = s.reliable.set sequence (some entry))
    (hunits : entry.units = entry.envelope.bytes.length)
    (hbytes : s'.reliableBytes = entry.envelope.bytes.length +
      (s.reliable.set sequence none).total (·.envelope.bytes.length))
    (hmax : s'.reliableBytes ≤ maxConnectionBytes)
    (hcount : (s.reliable.set sequence none).rows.length < maxConnectionWrites) : s'.ReliableSums := by
  refine ⟨fun _ => ?_, fun _ => ⟨hmax, ?_⟩, fun sequence' entry' hget => ?_, fun hclosed => ?_⟩
  · rw [hbytes, hreliable, total_set_some]
  · rw [hreliable, length_set_some]
    exact hcount
  · rw [hreliable, get_set] at hget
    split at hget
    · cases hget
      exact hunits
    · exact h.units sequence' entry' hget
  · rw [hopen] at hclosed
    cases hclosed

theorem ReliableSums.acknowledge (h : s.ReliableSums) (sequence : ℤ) :
    (s.acknowledge sequence).ReliableSums := by
  unfold Socket.acknowledge
  split
  · exact h
  rename_i entry hget
  have hopen := h.isOpen hget
  have hsum := h.bytes hopen
  obtain ⟨hmax, hcount⟩ := h.limits hopen
  have htotal := total_set_none hget (·.envelope.bytes.length)
  have hlength := length_set_none hget
  have hsub := sizeSub_of_le (a := s.reliableBytes) (b := entry.envelope.bytes.length) (by omega) hmax
  refine ⟨fun _ => ?_, fun _ => ⟨?_, ?_⟩, fun sequence' entry' hget' => ?_, fun hclosed => ?_⟩
  · dsimp only
    omega
  · dsimp only
    omega
  · dsimp only
    omega
  · dsimp only at hget'
    rw [get_set] at hget'
    split at hget'
    · cases hget'
    · exact h.units sequence' entry' hget'
  · rw [hopen] at hclosed
    cases hclosed

theorem ReliableSums.retry (h : s.ReliableSums) (sequence : ℤ) : (s.retry sequence).ReliableSums := by
  unfold Socket.retry
  split
  · exact h
  rename_i entry hget
  split
  · exact h
  split
  · exact h.acknowledge sequence
  have hopen := h.isOpen hget
  have htotal := total_set_none hget (·.envelope.bytes.length)
  have hlength := length_set_none hget
  obtain ⟨hmax, hcount⟩ := h.limits hopen
  have hagain : ({ s with
      reliable := s.reliable.set sequence (some { entry with attempts := entry.attempts + 1 }) } :
        Socket).ReliableSums :=
    h.set sequence _ hopen rfl (h.units sequence entry hget) ((h.bytes hopen).trans htotal) hmax (by omega)
  exact hagain.send _

theorem ReliableSums.replaceReliable (h : s.ReliableSums) (envelope : Octets)
    {previous : ReliableEntry} (hget : s.reliable.get sequence = some previous) :
    (s.replaceReliable envelope sequence previous).1.ReliableSums := by
  have hopen := h.isOpen hget
  have hsum := h.bytes hopen
  obtain ⟨hmax, hcount⟩ := h.limits hopen
  have htotal := total_set_none hget (·.envelope.bytes.length)
  have hlength := length_set_none hget
  have hold := sizeSub_of_le (a := s.reliableBytes) (b := previous.envelope.bytes.length) (by omega) hmax
  unfold Socket.replaceReliable
  dsimp only
  split
  · exact h.close
  rename_i hlimit
  rw [hold, sizeSub_of_le (by omega) le_rfl] at hlimit
  split
  · exact h.close
  split
  · -- whatever the entry holds by now, it goes with the connection
    rename_i hsend
    rw [send_false hsend]
    unfold Socket.close
    rw [if_neg (by simp [hopen])]
    exact ⟨by simp, by simp, by simp, fun _ => ⟨rfl, rfl⟩⟩
  · rename_i hsend
    obtain ⟨hopen', hreliable, hbytes⟩ := send_true hsend
    have hnew := sizeAdd_of_le (a := s.reliableBytes - previous.envelope.bytes.length)
      (b := envelope.bytes.length) (by omega)
    refine h.set sequence { envelope, units := envelope.bytes.length } hopen' ?_ rfl ?_ ?_ (by omega)
    · dsimp only
      rw [hreliable, set_set_some]
    · dsimp only
      rw [hbytes]
      rw [hold, hnew]
      omega
    · dsimp only
      rw [hbytes]
      rw [hold, hnew]
      omega

theorem ReliableSums.addReliable (h : s.ReliableSums) (envelope : Octets)
    (hget : s.reliable.get sequence = none) : (s.addReliable envelope sequence).1.ReliableSums := by
  unfold Socket.addReliable
  dsimp only
  split
  · exact h.close
  rename_i hlimits
  simp only [not_or, Bool.not_eq_true, Nat.not_le, Nat.not_lt] at hlimits
  obtain ⟨hopen, hcount, hlimit⟩ := hlimits
  have hsum := h.bytes hopen
  obtain ⟨hmax, -⟩ := h.limits hopen
  rw [sizeSub_of_le hmax le_rfl] at hlimit
  split
  · exact h.close
  rename_i reliableBudget _
  have hbudget : ({ s with reliableBudget } : Socket).ReliableSums := h.congr rfl
  split
  · rename_i hsend
    rw [send_false hsend]
    exact hbudget.close.congr rfl
  rename_i hsend
  obtain ⟨hopen', hreliable, hbytes⟩ := send_true hsend
  have hadd := sizeAdd_of_le (a := s.reliableBytes) (b := envelope.bytes.length) (by omega)
  refine h.set sequence { envelope, units := envelope.bytes.length } hopen' ?_ rfl ?_ ?_ ?_
  · dsimp only
    rw [hreliable]
  · dsimp only
    rw [hbytes, set_none_of_get hget, hadd, hsum, Nat.add_comm]
  · dsimp only
    rw [hbytes, hadd]
    omega
  · rwa [set_none_of_get hget]

theorem ReliableSums.sendReliable (h : s.ReliableSums) (envelope : Octets) (sequence : ℤ) :
    (s.sendReliable envelope sequence).1.ReliableSums := by
  unfold Socket.sendReliable
  split
  · exact h.send envelope
  split
  · rename_i hget
    exact h.replaceReliable envelope hget
  rename_i hget
  exact h.addReliable envelope hget

/-- For the writer all of this is a `send` or a close. -/
theorem WriteSums.acknowledge (h : s.WriteSums) (sequence : ℤ) : (s.acknowledge sequence).WriteSums := by
  unfold Socket.acknowledge
  split
  · exact h
  · exact h.congr rfl

theorem WriteSums.retry (h : s.WriteSums) (sequence : ℤ) : (s.retry sequence).WriteSums := by
  unfold Socket.retry
  split
  · exact h
  split
  · exact h
  split
  · exact h.acknowledge sequence
  rename_i entry _ _ _
  have hagain : ({ s with
      reliable := s.reliable.set sequence (some { entry with attempts := entry.attempts + 1 }) } :
        Socket).WriteSums := h.congr rfl
  exact hagain.send _

theorem WriteSums.sendReliable (h : s.WriteSums) (envelope : Octets) (sequence : ℤ) :
    (s.sendReliable envelope sequence).1.WriteSums := by
  unfold Socket.sendReliable
  split
  · exact h.send envelope
  split
  · unfold Socket.replaceReliable
    dsimp only
    split
    · exact h.close
    split
    · exact h.close
    rename_i previous _ _ _ reliableBudget _
    have hresized : ({ s with
        reliableBudget
        reliable := s.reliable.set sequence (some { previous with units := envelope.bytes.length }) } :
          Socket).WriteSums := h.congr rfl
    have hsent := hresized.send envelope
    split
    · rename_i hsend
      rwa [hsend] at hsent
    rename_i hsend
    rw [hsend] at hsent
    exact hsent.congr rfl
  · unfold Socket.addReliable
    dsimp only
    split
    · exact h.close
    split
    · exact h.close
    rename_i reliableBudget _
    have hbudget : ({ s with reliableBudget } : Socket).WriteSums := h.congr rfl
    have hsent := hbudget.send envelope
    split
    · rename_i hsend
      rw [hsend] at hsent
      exact hsent.congr rfl
    rename_i hsend
    rw [hsend] at hsent
    exact hsent.congr rfl

/-! ### The loops -/

theorem loops_split {loops : List WriteLoop} (hk : loops[k]? = some loop) :
    ∃ before after, loops = before ++ loop :: after ∧ loops.eraseIdx k = before ++ after ∧
      ∀ loop', loops.set k loop' = before ++ loop' :: after := by
  obtain ⟨hlt, hloop⟩ := List.getElem?_eq_some_iff.1 hk
  refine ⟨loops.take k, loops.drop (k + 1), ?_, eraseIdx_eq_take_drop_succ _ _, fun loop' => ?_⟩
  · rw [← hloop, getElem_cons_drop, take_append_drop]
  · rw [set_eq_take_append_cons_drop, if_pos hlt]

theorem pendingBytes_eq (s : Socket) : s.pendingBytes = (s.writes.map List.length).sum +
    ((s.loops.flatMap WriteLoop.frames).map List.length).sum := by
  rw [pendingBytes, beingWritten, map_append, sum_append]

theorem loopHead_sums (hk : s.loops[k]? = some loop)
    (hbytes : s.closed = false → s.writeBytes = (s.writes.map List.length).sum +
      (((s.loops.eraseIdx k).flatMap WriteLoop.frames).map List.length).sum)
    (hlimits : s.closed = false → s.writeBytes ≤ maxConnectionBytes ∧ s.writes.length ≤ maxConnectionWrites)
    (hemptied : s.closed = true → s.writes = [] ∧ s.writeBytes = 0) : (s.loopHead k).WriteSums := by
  obtain ⟨before, after, -, herase, hset⟩ := loops_split hk
  have hended : ({ s with loops := s.loops.eraseIdx k, writing := false } : Socket).WriteSums :=
    ⟨fun hopen => by rw [pendingBytes_eq]; exact hbytes hopen, hlimits, hemptied⟩
  unfold loopHead
  split
  · rename_i frame writes hwrites hopen
    have hsum := hbytes hopen
    obtain ⟨hmax, hcount⟩ := hlimits hopen
    rw [hwrites] at hsum hcount
    refine ⟨fun _ => ?_, fun _ => ⟨hmax, ?_⟩, fun hclosed => ?_⟩
    · dsimp only
      rw [pendingBytes_eq, hsum, hset, herase]
      simp only [flatMap_append, flatMap_cons, WriteLoop.frames, map_append,
        sum_append, map_cons, sum_cons, map_nil, sum_nil]
      omega
    · rw [length_cons] at hcount
      dsimp only
      omega
    · rw [hopen] at hclosed
      cases hclosed
  · split
    · exact hended.close
    · exact hended

theorem WriteSums.split (h : s.WriteSums) (hk : s.loops[k]? = some loop)
    (hopen : s.closed = false) : s.writeBytes = (s.writes.map List.length).sum +
      ((loop.frames.map List.length).sum +
        (((s.loops.eraseIdx k).flatMap WriteLoop.frames).map List.length).sum) := by
  obtain ⟨before, after, hloops, herase, -⟩ := loops_split hk
  rw [h.bytes hopen, pendingBytes_eq, herase, hloops]
  simp only [flatMap_append, flatMap_cons, map_append, sum_append]
  omega

theorem WriteSums.start (h : s.WriteSums) (hk : s.loops[k]? = some .ready) : (s.loopHead k).WriteSums := by
  refine loopHead_sums hk (fun hopen => ?_) h.limits h.emptied
  rw [h.split hk hopen]
  simp [WriteLoop.frames]

theorem WriteSums.flushed (h : s.WriteSums) {frame : Bytes} (hk : s.loops[k]? = some (.busy frame)) :
    (s.flushed k frame).WriteSums := by
  have hsub : s.closed = false → sizeSub s.writeBytes frame.length = s.writeBytes - frame.length ∧
      s.writeBytes - frame.length = (s.writes.map List.length).sum +
        (((s.loops.eraseIdx k).flatMap WriteLoop.frames).map List.length).sum := by
    intro hopen
    have hsum := h.split hk hopen
    simp only [WriteLoop.frames, map_cons, map_nil, sum_cons, sum_nil] at hsum
    exact ⟨sizeSub_of_le (by omega) (h.limits hopen).1, by omega⟩
  refine loopHead_sums hk (fun hopen => ?_) (fun hopen => ?_) (fun hclosed => ?_)
  · dsimp only at hopen ⊢
    rw [if_neg (by simp [hopen]), (hsub hopen).1, (hsub hopen).2]
  · dsimp only at hopen ⊢
    obtain ⟨hmax, hcount⟩ := h.limits hopen
    rw [if_neg (by simp [hopen]), (hsub hopen).1]
    exact ⟨(Nat.sub_le _ _).trans hmax, hcount⟩
  · dsimp only at hclosed ⊢
    rw [if_pos hclosed]
    exact h.emptied hclosed

theorem WriteSums.failed (h : s.WriteSums) {frame : Bytes} (hk : s.loops[k]? = some (.busy frame))
    (writeBudget : Budget) :
    ({ s with loops := s.loops.set k (.failed (some frame)), writeBudget } : Socket).WriteSums := by
  obtain ⟨before, after, hloops, -, hset⟩ := loops_split hk
  refine h.congr ?_
  simp only [beingWritten, hset]
  rw [hloops]
  simp [WriteLoop.frames]

theorem WriteSums.handled (h : s.WriteSums) (loops : List WriteLoop) :
    ({ s with loops } : Socket).close.WriteSums := by
  unfold Socket.close
  split
  · rename_i hclosed
    exact ⟨fun hopen => absurd hclosed (by simp [show s.closed = false from hopen]),
      fun hopen => absurd hclosed (by simp [show s.closed = false from hopen]), fun _ => h.emptied hclosed⟩
  · exact ⟨by simp, by simp, fun _ => ⟨rfl, rfl⟩⟩

theorem ReliableSums.loopHead (h : s.ReliableSums) (k : ℕ) : (s.loopHead k).ReliableSums := by
  unfold Socket.loopHead
  split
  · exact h.congr rfl
  split
  · exact .close (h.congr rfl)
  · exact h.congr rfl

/-! ### Whole runs -/

theorem step_sums (hw : s.WriteSums) (hr : s.ReliableSums) {e : SocketEvent} (h : s.step e = some s') :
    s'.WriteSums ∧ s'.ReliableSums := by
  cases e with
  | send envelope =>
    cases h
    exact ⟨hw.send envelope, hr.send envelope⟩
  | sendReliable envelope sequence =>
    cases h
    exact ⟨hw.sendReliable envelope sequence, hr.sendReliable envelope sequence⟩
  | retry sequence =>
    cases h
    exact ⟨hw.retry sequence, hr.retry sequence⟩
  | acknowledge sequence =>
    cases h
    exact ⟨hw.acknowledge sequence, hr.acknowledge sequence⟩
  | quit response =>
    simp only [step] at h
    split at h
    · cases h
    cases h
    have hw' : ({ s with closeAfterWrite := true } : Socket).WriteSums := hw.congr rfl
    have hr' : ({ s with closeAfterWrite := true } : Socket).ReliableSums := hr.congr rfl
    exact ⟨(hw'.send response).congr rfl, (hr'.send response).congr rfl⟩
  | quitDone =>
    simp only [step] at h
    split at h
    · cases h
      exact ⟨hw.close, hr.close⟩
    · cases h
  | start k =>
    simp only [step] at h
    split at h
    · rename_i hk
      cases h
      exact ⟨hw.start hk, hr.loopHead k⟩
    · cases h
  | written k ok =>
    simp only [step] at h
    split at h
    · rename_i frame hk
      split at h
      · cases h
        refine ⟨hw.flushed hk, ?_⟩
        refine .loopHead ?_ k
        exact hr.congr rfl
      · cases h
        exact ⟨hw.failed hk _, hr.congr rfl⟩
    · cases h
  | handled k =>
    simp only [step] at h
    split at h
    · cases h
      exact ⟨hw.handled _, .close (hr.congr rfl)⟩
    · cases h
  | close =>
    cases h
    exact ⟨hw.close, hr.close⟩
  | budgets writeBudget reliableBudget =>
    cases h
    exact ⟨hw.congr rfl, hr.congr rfl⟩

theorem send_stays (hclosed : s.closed = true) (envelope : Octets) : (s.send envelope).1.closed = true := by
  rcases send_cases s envelope with hsend | ⟨writeBudget, -, hopen, -⟩
  · rw [hsend, closed_close]
  rw [hclosed] at hopen
  cases hopen

theorem loopHead_stays (hclosed : s.closed = true) (k : ℕ) : (s.loopHead k).closed = true := by
  unfold loopHead
  split
  · rename_i hopen
    rw [hclosed] at hopen
    cases hopen
  split
  · exact closed_close _
  · exact hclosed

theorem step_stays (hr : s.ReliableSums) {e : SocketEvent} (h : s.step e = some s')
    (hclosed : s.closed = true) : s'.closed = true := by
  have hnone (sequence : ℤ) : s.reliable.get sequence = none := by
    rw [(hr.emptied hclosed).1]
    rfl
  cases e with
  | send envelope =>
    cases h
    exact send_stays hclosed envelope
  | sendReliable envelope sequence =>
    cases h
    unfold sendReliable
    split
    · exact send_stays hclosed envelope
    rw [hnone]
    simp [addReliable, hclosed]
  | retry sequence =>
    cases h
    simpa [retry, hnone] using hclosed
  | acknowledge sequence =>
    cases h
    simpa [acknowledge, hnone] using hclosed
  | quit response =>
    simp only [step] at h
    split at h
    · cases h
    cases h
    exact send_stays (s := { s with closeAfterWrite := true }) hclosed response
  | quitDone =>
    simp only [step] at h
    split at h
    · cases h
      exact closed_close s
    · cases h
  | start k =>
    simp only [step] at h
    split at h
    · cases h
      exact loopHead_stays hclosed k
    · cases h
  | written k ok =>
    simp only [step] at h
    split at h
    · split at h
      · cases h
        refine loopHead_stays ?_ k
        exact hclosed
      cases h
      exact hclosed
    · cases h
  | handled k =>
    simp only [step] at h
    split at h
    · cases h
      exact closed_close _
    · cases h
  | close =>
    cases h
    exact closed_close s
  | budgets writeBudget reliableBudget =>
    cases h
    exact hclosed

theorem fresh_sums (writeBudget reliableBudget : Budget) :
    (fresh writeBudget reliableBudget).WriteSums ∧ (fresh writeBudget reliableBudget).ReliableSums :=
  ⟨⟨fun _ => rfl, fun _ => ⟨Nat.zero_le _, Nat.zero_le _⟩, by rintro ⟨⟩⟩,
    ⟨fun _ => rfl, fun _ => ⟨Nat.zero_le _, Nat.zero_le _⟩, by rintro _ _ ⟨⟩, by rintro ⟨⟩⟩⟩

end Socket

open Socket in
/-- The buffers of a connection after every run, whatever the budgets of the shard. While it is open the
    two sums are the sizes of what is there, and the units of the kept pushes are theirs; counts and
    sums are within their limits, and what may be subtracted from a sum is never more than it is. A
    connection that is closed has nothing, and stays closed. -/
theorem connection_buffers (writeBudget reliableBudget : Budget) {events : List SocketEvent} {s : Socket}
    (h : events.foldlM step (fresh writeBudget reliableBudget) = some s) :
    (s.closed = false →
      s.writeBytes = ((s.writes ++ s.beingWritten).map List.length).sum ∧
      s.reliableBytes = s.reliable.total (·.envelope.bytes.length) ∧
      s.reliableBytes = s.reliable.total (·.units) ∧
      s.writes.length ≤ 1024 ∧ s.reliable.rows.length ≤ 1024 ∧
      s.writeBytes ≤ 16 * 1024 * 1024 ∧ s.reliableBytes ≤ 16 * 1024 * 1024 ∧
      (∀ frame ∈ s.beingWritten, frame.length ≤ s.writeBytes) ∧
      ∀ sequence entry, s.reliable.get sequence = some entry →
        entry.envelope.bytes.length ≤ s.reliableBytes) ∧
    (s.closed = true → s.writes = [] ∧ s.writeBytes = 0 ∧ s.reliable = ∅ ∧ s.reliableBytes = 0 ∧
      ∀ e s', s.step e = some s' → s'.closed = true) := by
  obtain ⟨hw, hr⟩ : s.WriteSums ∧ s.ReliableSums :=
    run_invariant (P := fun s => s.WriteSums ∧ s.ReliableSums) (fresh_sums writeBudget reliableBudget)
      (fun _ _ _ hs hstep => step_sums hs.1 hs.2 hstep) h
  refine ⟨fun hopen => ?_, fun hclosed => ?_⟩
  · have hsum := hw.bytes hopen
    have hkept := hr.bytes hopen
    obtain ⟨hmax, hcount⟩ := hw.limits hopen
    obtain ⟨hmax', hcount'⟩ := hr.limits hopen
    refine ⟨hsum, hkept, ?_, hcount, hcount', hmax, hmax', fun frame hframe => ?_, fun sequence entry hget => ?_⟩
    · exact hkept.trans (total_congr fun sequence entry hget => (hr.units sequence entry hget).symm)
    · rw [hsum, pendingBytes]
      exact le_sum_of_mem (mem_map.2 ⟨frame, mem_append_right _ hframe, rfl⟩)
    · rw [hkept]
      exact le_total hget (·.envelope.bytes.length)
  · obtain ⟨hwrites, hbytes⟩ := hw.emptied hclosed
    obtain ⟨hreliable, hkept⟩ := hr.emptied hclosed
    exact ⟨hwrites, hbytes, hreliable, hkept, fun e s' hstep => step_stays hr hstep hclosed⟩

namespace Socket

/-- A push is written, replaced by a shorter one, and sent again. -/
def pushing : List SocketEvent := [
  .sendReliable ⟨[1, 2, 3], by decide⟩ 7,
  .start 0,
  .sendReliable ⟨[4, 5], by decide⟩ 7,
  .written 0 true,
  .retry 7]

end Socket

open Socket in
theorem connection_buffers_pushing : ∃ s, pushing.foldlM step (fresh ⟨8, 100⟩ ⟨8, 100⟩) = some s ∧
    s.closed = false ∧ s.reliableBytes = 2 ∧ s.reliable.total (·.units) = 2 ∧
    ((s.writes ++ s.beingWritten).map List.length).sum = 12 := by
  obtain ⟨s, hrun, hs⟩ := (Option.any_eq_true _ _).1
    (show (pushing.foldlM step (fresh ⟨8, 100⟩ ⟨8, 100⟩)).any (fun s => decide (s.closed = false ∧
      s.reliableBytes = 2 ∧ s.writeBytes = 12)) = true by decide +kernel)
  obtain ⟨hopen, hkept, hbytes⟩ := of_decide_eq_true hs
  obtain ⟨hsum, -, hunits, -⟩ := (connection_buffers ⟨8, 100⟩ ⟨8, 100⟩ hrun).1 hopen
  exact ⟨s, hrun, hopen, hkept, hunits ▸ hkept, hsum ▸ hbytes⟩

end Imm
