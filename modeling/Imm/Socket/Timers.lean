import Imm.Socket.Buffers

/-! The timers of the pushes that are kept. Each entry of `reliable` has one: it is armed when the body has been
    sent, and no longer armed when its callback runs; the callback sends the body again and arms it again, or
    gives the entry up. A timer goes with its entry.

        send_reliable ──▶ 1 ──▶ 2 ──▶ 3 ──▶ given up
                          │     │     │   each arrow is an expired timer
                          └─────┴─────┴── acknowledged, replaced or closed

    The connection below is the one of `Socket`; here a retry needs a timer that has expired, and the copies that
    are handed to `send` are written down with their sequence number. -/

namespace Imm

open Steps List Table

structure TimedSocket where
  socket : Socket
  /-- the timers that are armed -/
  armed : ℤ → Bool := fun _ => false
  /-- the bodies that `send_reliable` and `retry` have handed to `send` -/
  handed : List (ℤ × Octets) := []

/-- `send_reliable` gets as far as its `send`. -/
def Socket.offers (s : Socket) (envelope : Octets) (sequence : ℤ) : Bool :=
  let bytes := envelope.bytes.length
  match s.reliable.get sequence with
  | some previous =>
    decide (bytes ≤ sizeSub maxConnectionBytes (sizeSub s.reliableBytes previous.envelope.bytes.length)) &&
      (s.reliableBudget.resize previous.units bytes).isSome
  | none =>
    !s.closed && decide (s.reliable.rows.length < maxConnectionWrites) &&
      decide (bytes ≤ sizeSub maxConnectionBytes s.reliableBytes) && (s.reliableBudget.acquire bytes).isSome

namespace TimedSocket

variable (t : TimedSocket)

/-- Timers go with their entries. -/
def settle (socket : Socket) (armed : ℤ → Bool) (handed : List (ℤ × Octets)) : TimedSocket where
  socket := socket
  armed sequence := armed sequence && (socket.reliable.get sequence).isSome
  handed := handed

/-- `send_reliable` of a positive sequence number. -/
def sendReliable (envelope : Octets) (sequence : ℤ) : TimedSocket :=
  let handed := if t.socket.offers envelope sequence then t.handed ++ [(sequence, envelope)] else t.handed
  match t.socket.sendReliable envelope sequence with
  | (s, true) => settle s (Function.update t.armed sequence true) handed
  | (s, false) => settle s t.armed handed

/-- The callback of a timer. -/
def retry (sequence : ℤ) : TimedSocket :=
  let armed := Function.update t.armed sequence false
  match t.socket.reliable.get sequence with
  | none => settle t.socket armed t.handed
  | some entry =>
    if t.socket.closed then settle t.socket armed t.handed
    else if 3 ≤ entry.attempts then settle (t.socket.acknowledge sequence) armed t.handed
    else
      let again := { entry with attempts := entry.attempts + 1 }
      let handed := t.handed ++ [(sequence, entry.envelope)]
      match ({ t.socket with reliable := t.socket.reliable.set sequence (some again) } : Socket).send
        entry.envelope with
      | (s, true) => settle s (Function.update armed sequence true) handed
      | (s, false) => settle s armed handed

def step : SocketEvent → Option TimedSocket
  | .sendReliable envelope sequence =>
    if 0 < sequence then some (t.sendReliable envelope sequence)
    else some (settle (t.socket.send envelope).1 t.armed t.handed)
  | .retry sequence => if t.armed sequence then some (t.retry sequence) else none
  | e => (t.socket.step e).map fun s => settle s t.armed t.handed

/-- A connection that was accepted just now. -/
def fresh (writeBudget reliableBudget : Budget) : TimedSocket where
  socket := .fresh writeBudget reliableBudget

end TimedSocket

/-! ### What happens to the entries -/

theorem Budget.resize_count {b b' : Budget} {old bytes : ℕ} (h : b.resize old bytes = some b') :
    b'.count = b.count := by
  unfold Budget.resize at h
  split at h
  · split at h <;> cases h
    rfl
  cases h
  rfl

namespace Socket

variable {s s' : Socket} {envelope : Octets} {sequence : ℤ}

theorem send_budget {envelope : Octets} (hsend : s.send envelope = (s', true)) :
    s'.reliableBudget = s.reliableBudget := by
  rcases send_cases s envelope with h | ⟨writeBudget, h, -⟩
  · rw [h] at hsend
    cases hsend
  rw [h] at hsend
  cases hsend
  rfl

theorem sendReliable_true (hsequence : 0 < sequence) (h : s.sendReliable envelope sequence = (s', true)) :
    s'.closed = false ∧ s.offers envelope sequence = true ∧
      s'.reliable = s.reliable.set sequence (some { envelope, units := envelope.bytes.length }) ∧
      ((s.reliable.get sequence).isSome → s'.reliableBudget.count = s.reliableBudget.count) := by
  rw [sendReliable, if_neg (not_le.2 hsequence)] at h
  rcases hget : s.reliable.get sequence with _ | previous
  · simp only [hget, addReliable] at h
    split at h
    · cases h
    rename_i hlimits
    simp only [not_or, Bool.not_eq_true, Nat.not_le, Nat.not_lt] at hlimits
    split at h
    · cases h
    rename_i reliableBudget hbudget
    split at h
    · cases h
    rename_i hsend
    obtain ⟨hopen, hreliable, -⟩ := send_true hsend
    cases h
    refine ⟨hopen, ?_, by rw [hreliable], by simp⟩
    simp [offers, hget, hlimits.1, hlimits.2.1, hlimits.2.2, hbudget]
  · simp only [hget, replaceReliable] at h
    split at h
    · cases h
    rename_i hlimit
    split at h
    · cases h
    rename_i reliableBudget hbudget
    split at h
    · cases h
    rename_i hsend
    obtain ⟨hopen, hreliable, -⟩ := send_true hsend
    have hcount := send_budget hsend
    cases h
    refine ⟨hopen, ?_, by rw [hreliable, set_set_some], fun _ => ?_⟩
    · simp [offers, hget, not_lt.1 hlimit, hbudget]
    · show _ = _
      rw [hcount]
      exact Budget.resize_count hbudget

theorem sendReliable_false (hsequence : 0 < sequence) (h : s.sendReliable envelope sequence = (s', false)) :
    s'.closed = true := by
  rw [sendReliable, if_neg (not_le.2 hsequence)] at h
  rcases hget : s.reliable.get sequence with _ | previous
  · simp only [hget, addReliable] at h
    split at h
    · cases h
      exact closed_close s
    split at h
    · cases h
      exact closed_close s
    split at h
    · rename_i hsend
      cases h
      rw [send_false hsend]
      exact closed_close _
    · cases h
  · simp only [hget, replaceReliable] at h
    split at h
    · cases h
      exact closed_close s
    split at h
    · cases h
      exact closed_close s
    split at h
    · rename_i hsend
      cases h
      rw [send_false hsend]
      exact closed_close _
    · cases h

theorem loopHead_reliable (s : Socket) (k : ℕ) :
    (s.loopHead k).reliable = s.reliable ∨ (s.loopHead k).closed = true := by
  unfold loopHead
  split
  · exact .inl rfl
  split
  · exact .inr (closed_close _)
  · exact .inl rfl

theorem send_reliable_eq (s : Socket) (envelope : Octets) :
    (s.send envelope).1.reliable = s.reliable ∨ (s.send envelope).1.closed = true := by
  rcases send_cases s envelope with h | ⟨writeBudget, h, -⟩
  · rw [h]
    exact .inr (closed_close s)
  rw [h]
  exact .inl rfl

/-- The events that are not about pushes leave the entries alone, or close the connection. -/
theorem step_reliable {e : SocketEvent} (h : s.step e = some s')
    (hsend : ∀ envelope sequence, e = .sendReliable envelope sequence → sequence ≤ 0)
    (hretry : ∀ sequence, e ≠ .retry sequence) (hack : ∀ sequence, e ≠ .acknowledge sequence) :
    s'.reliable = s.reliable ∨ s'.closed = true := by
  cases e with
  | send envelope =>
    cases h
    exact send_reliable_eq s envelope
  | sendReliable envelope sequence =>
    cases h
    rw [sendReliable, if_pos (hsend envelope sequence rfl)]
    exact send_reliable_eq s envelope
  | retry sequence => exact absurd rfl (hretry sequence)
  | acknowledge sequence => exact absurd rfl (hack sequence)
  | quit response =>
    simp only [step] at h
    split at h <;> cases h
    exact send_reliable_eq { s with closeAfterWrite := true } response
  | quitDone =>
    simp only [step] at h
    split at h <;> cases h
    exact .inr (closed_close s)
  | start k =>
    simp only [step] at h
    split at h <;> cases h
    exact loopHead_reliable s k
  | written k ok =>
    simp only [step] at h
    split at h
    · split at h <;> cases h
      · unfold flushed
        exact loopHead_reliable _ k
      · exact .inl rfl
    · cases h
  | handled k =>
    simp only [step] at h
    split at h <;> cases h
    exact .inr (closed_close _)
  | close =>
    cases h
    exact .inr (closed_close s)
  | budgets writeBudget reliableBudget =>
    cases h
    exact .inl rfl

end Socket

/-! ### The connection below -/

namespace TimedSocket

variable {t t' : TimedSocket}

@[simp] theorem settle_socket (s : Socket) (armed : ℤ → Bool) (handed : List (ℤ × Octets)) :
    (settle s armed handed).socket = s := rfl

@[simp] theorem settle_handed (s : Socket) (armed : ℤ → Bool) (handed : List (ℤ × Octets)) :
    (settle s armed handed).handed = handed := rfl

theorem sendReliable_socket (t : TimedSocket) (envelope : Octets) (sequence : ℤ) :
    (t.sendReliable envelope sequence).socket = (t.socket.sendReliable envelope sequence).1 := by
  unfold sendReliable
  dsimp only
  split <;> simp [*]

theorem retry_socket (t : TimedSocket) (sequence : ℤ) : (t.retry sequence).socket = t.socket.retry sequence := by
  rcases hget : t.socket.reliable.get sequence with _ | entry
  · simp [retry, Socket.retry, hget]
  simp only [retry, Socket.retry, hget]
  split
  · rfl
  split
  · rfl
  split
  all_goals
    rename_i hsend
    rw [hsend]
    rfl

variable {e : SocketEvent} {q : ℤ}

theorem step_other (hsend : ∀ envelope q, e ≠ .sendReliable envelope q) (hretry : ∀ q, e ≠ .retry q) :
    t.step e = (t.socket.step e).map fun s => settle s t.armed t.handed := by
  cases e with
  | sendReliable envelope q => exact absurd rfl (hsend envelope q)
  | retry q => exact absurd rfl (hretry q)
  | send | acknowledge | quit | quitDone | start | written | handled | close | budgets => rfl

/-- Without the timers a step is a step of the connection. -/
theorem step_socket (h : t.step e = some t') : t.socket.step e = some t'.socket := by
  cases e with
  | sendReliable envelope sequence =>
    simp only [step] at h
    split at h
    · cases h
      rw [sendReliable_socket]
      rfl
    rename_i hsequence
    cases h
    simp [Socket.step, Socket.sendReliable, not_lt.1 hsequence]
  | retry sequence =>
    simp only [step] at h
    split at h
    · cases h
      rw [retry_socket]
      rfl
    · cases h
  | send | acknowledge | quit | quitDone | start | written | handled | close | budgets =>
    rw [step_other (fun _ _ => by simp) (fun _ => by simp)] at h
    obtain ⟨s, hs, rfl⟩ := Option.map_eq_some_iff.1 h
    exact hs

/-- What a step does with the pushes. -/
inductive Change (t : TimedSocket) : SocketEvent → TimedSocket → Prop
  | kept {e : SocketEvent} {t' : TimedSocket} (hreliable : t'.socket.reliable = t.socket.reliable)
      (harmed : ∀ q, (t.socket.reliable.get q).isSome → t'.armed q = t.armed q) (hhanded : t'.handed = t.handed) :
    Change t e t'
  /-- the connection is closed, which the first or a later copy of a push may have caused -/
  | closed {e : SocketEvent} {t' : TimedSocket} (hclosed : t'.socket.closed = true)
      (hreliable : t'.socket.reliable = ∅)
      (hhanded : t'.handed = t.handed ∨
        (∃ envelope q, e = .sendReliable envelope q ∧ t'.handed = t.handed ++ [(q, envelope)]) ∨
        ∃ q entry, e = .retry q ∧ t.socket.reliable.get q = some entry ∧ entry.attempts < 3 ∧
          t'.handed = t.handed ++ [(q, entry.envelope)]) :
    Change t e t'
  | installed {t' : TimedSocket} {envelope : Octets} {q : ℤ} (hopen : t'.socket.closed = false)
      (hreliable : t'.socket.reliable =
        t.socket.reliable.set q (some { envelope, units := envelope.bytes.length }))
      (hself : t'.armed q = true)
      (harmed : ∀ q', q' ≠ q → (t.socket.reliable.get q').isSome → t'.armed q' = t.armed q')
      (hhanded : t'.handed = t.handed ++ [(q, envelope)])
      (hcount : (t.socket.reliable.get q).isSome → t'.socket.reliableBudget.count = t.socket.reliableBudget.count) :
    Change t (.sendReliable envelope q) t'
  | removed {e : SocketEvent} {t' : TimedSocket} {q : ℤ}
      (hevent : e = .acknowledge q ∨
        e = .retry q ∧ ∃ entry, t.socket.reliable.get q = some entry ∧ 3 ≤ entry.attempts)
      (hreliable : t'.socket.reliable = t.socket.reliable.set q none)
      (harmed : ∀ q', q' ≠ q → (t.socket.reliable.get q').isSome → t'.armed q' = t.armed q')
      (hhanded : t'.handed = t.handed) :
    Change t e t'
  | again {t' : TimedSocket} {q : ℤ} {entry : ReliableEntry} (hget : t.socket.reliable.get q = some entry)
      (hattempts : entry.attempts < 3)
      (hreliable : t'.socket.reliable =
        t.socket.reliable.set q (some { entry with attempts := entry.attempts + 1 }))
      (hself : t'.armed q = true)
      (harmed : ∀ q', q' ≠ q → (t.socket.reliable.get q').isSome → t'.armed q' = t.armed q')
      (hhanded : t'.handed = t.handed ++ [(q, entry.envelope)]) :
    Change t (.retry q) t'

theorem change_settle {s : Socket} (hs : s.ReliableSums)
    (h : s.reliable = t.socket.reliable ∨ s.closed = true) : t.Change e (settle s t.armed t.handed) := by
  rcases h with h | h
  · refine .kept h (fun q hq => ?_) rfl
    simp [settle, h, hq]
  · exact .closed h (hs.emptied h).1 (.inl rfl)

theorem sendReliable_change (ht : t.socket.ReliableSums) (envelope : Octets) (hq : 0 < q) :
    t.Change (.sendReliable envelope q) (t.sendReliable envelope q) := by
  have hsums := ht.sendReliable envelope q
  rcases hsend : t.socket.sendReliable envelope q with ⟨s, ok⟩
  rw [hsend] at hsums
  cases ok with
  | true =>
    obtain ⟨hopen, hoffers, hreliable, hcount⟩ := Socket.sendReliable_true hq hsend
    simp only [sendReliable, hsend, hoffers, if_true]
    refine .installed hopen hreliable ?_ (fun q' hne hq' => ?_) rfl hcount
    · simp [settle, hreliable]
    · simp [settle, hreliable, get_set_ne _ _ hne, hq', hne]
  | false =>
    have hclosed := Socket.sendReliable_false hq hsend
    simp only [sendReliable, hsend]
    refine .closed hclosed (hsums.emptied hclosed).1 ?_
    split
    · exact .inr (.inl ⟨envelope, q, rfl, rfl⟩)
    · exact .inl rfl

theorem sendReliable_open {envelope : Octets} (hq : 0 < q)
    (hopen : (t.sendReliable envelope q).socket.closed = false) :
    (t.sendReliable envelope q).socket.reliable =
        t.socket.reliable.set q (some { envelope, units := envelope.bytes.length }) ∧
      (t.sendReliable envelope q).handed = t.handed ++ [(q, envelope)] ∧
      ((t.socket.reliable.get q).isSome →
        (t.sendReliable envelope q).socket.reliableBudget.count = t.socket.reliableBudget.count) := by
  rw [sendReliable_socket] at hopen ⊢
  rcases hsend : t.socket.sendReliable envelope q with ⟨s, ok⟩
  rw [hsend] at hopen
  cases ok with
  | true =>
    obtain ⟨-, hoffers, hreliable, hcount⟩ := Socket.sendReliable_true hq hsend
    refine ⟨hreliable, ?_, hcount⟩
    simp [sendReliable, hsend, hoffers]
  | false =>
    rw [Socket.sendReliable_false hq hsend] at hopen
    cases hopen

theorem acknowledge_reliable (s : Socket) (q : ℤ) : (s.acknowledge q).reliable = s.reliable.set q none := by
  unfold Socket.acknowledge
  split
  · rename_i hnone
    exact (set_none_of_get hnone).symm
  · rfl

theorem settle_armed_ne {s : Socket} {row : Option ReliableEntry} {armed : ℤ → Bool} {b : Bool}
    (hs : s.reliable = t.socket.reliable.set q row) (handed : List (ℤ × Octets)) {q' : ℤ} (hne : q' ≠ q)
    (hq' : (t.socket.reliable.get q').isSome) :
    (settle s (Function.update armed q b) handed).armed q' = armed q' := by
  simp [settle, hs, get_set_ne _ _ hne, hq', hne]

theorem retry_change (ht : t.socket.ReliableSums) (q : ℤ) : t.Change (.retry q) (t.retry q) := by
  have hsums := ht.retry q
  rw [← retry_socket] at hsums
  rcases hget : t.socket.reliable.get q with _ | entry
  · simp only [retry, hget]
    refine .kept rfl (fun q' hq' => ?_) rfl
    have hne : q' ≠ q := by
      rintro rfl
      simp [hget] at hq'
    simp [settle, hq', hne]
  · have hopen := ht.isOpen hget
    by_cases hthree : 3 ≤ entry.attempts
    · have hreliable := acknowledge_reliable t.socket q
      simp only [retry, hget, hopen, Bool.false_eq_true, if_false, if_pos hthree]
      exact .removed (.inr ⟨rfl, entry, hget, hthree⟩) hreliable
        (fun q' hne hq' => settle_armed_ne hreliable _ hne hq') rfl
    · rcases hsend : ({ t.socket with
        reliable := t.socket.reliable.set q (some { entry with attempts := entry.attempts + 1 }) } : Socket).send
        entry.envelope with ⟨s, ok⟩
      simp only [retry, hget, hopen, Bool.false_eq_true, if_false, if_neg hthree] at hsums ⊢
      rw [← hopen, hsend] at hsums ⊢
      cases ok with
      | true =>
        obtain ⟨-, hreliable, -⟩ := Socket.send_true hsend
        refine .again hget (not_le.1 hthree) hreliable ?_ (fun q' hne hq' => ?_) rfl
        · simp [settle, hreliable]
        · simp [settle, hreliable, get_set_ne _ _ hne, hq', hne]
      | false =>
        have hclosed : s.closed = true := by
          rw [Socket.send_false hsend]
          exact Socket.closed_close _
        exact .closed hclosed (hsums.emptied hclosed).1
          (.inr (.inr ⟨q, entry, rfl, hget, not_le.1 hthree, rfl⟩))

theorem step_change (ht : t.socket.ReliableSums) (hw : t.socket.WriteSums)
    (h : t.step e = some t') : t.Change e t' := by
  have hsums := (Socket.step_sums hw ht (step_socket h)).2
  by_cases hpush : ∃ envelope q, e = .sendReliable envelope q ∧ 0 < q
  · obtain ⟨envelope, q, rfl, hq⟩ := hpush
    simp only [step, if_pos hq] at h
    cases h
    exact sendReliable_change ht envelope hq
  by_cases hretry : ∃ q, e = .retry q
  · obtain ⟨q, rfl⟩ := hretry
    simp only [step] at h
    split at h <;> cases h
    exact retry_change ht q
  by_cases hack : ∃ q, e = .acknowledge q
  · obtain ⟨q, rfl⟩ := hack
    cases h
    refine .removed (.inl rfl) (acknowledge_reliable t.socket q) (fun q' hne hq' => ?_) rfl
    simp [settle, acknowledge_reliable, get_set_ne _ _ hne, hq']
  · have hreliable := Socket.step_reliable (step_socket h)
      (fun envelope q heq => not_lt.1 fun hq => hpush ⟨envelope, q, heq, hq⟩)
      (fun q heq => hretry ⟨q, heq⟩) (fun q heq => hack ⟨q, heq⟩)
    have heq : t' = settle t'.socket t.armed t.handed := by
      by_cases hsend : ∃ envelope q, e = .sendReliable envelope q
      · obtain ⟨envelope, q, rfl⟩ := hsend
        rw [step, if_neg fun hq => hpush ⟨envelope, q, rfl, hq⟩] at h
        cases h
        rfl
      · rw [step_other (fun envelope q heq => hsend ⟨envelope, q, heq⟩) (fun q heq => hretry ⟨q, heq⟩)] at h
        obtain ⟨s, -, rfl⟩ := Option.map_eq_some_iff.1 h
        rfl
    rw [heq]
    exact change_settle hsums hreliable

/-! ### Runs -/

/-- Every entry has an armed timer and has been sent one to three times. -/
structure Ticking (t : TimedSocket) : Prop where
  write : t.socket.WriteSums
  reliable : t.socket.ReliableSums
  armed : ∀ q entry, t.socket.reliable.get q = some entry → t.armed q = true
  attempts : ∀ q entry, t.socket.reliable.get q = some entry → entry.attempts ≤ 3

theorem Ticking.step (h : t.Ticking) (hstep : t.step e = some t') : t'.Ticking := by
  obtain ⟨hwrite, hreliable⟩ := Socket.step_sums h.write h.reliable (step_socket hstep)
  suffices hentries : ∀ q entry, t'.socket.reliable.get q = some entry → t'.armed q = true ∧ entry.attempts ≤ 3 from
    ⟨hwrite, hreliable, fun q entry hq => (hentries q entry hq).1, fun q entry hq => (hentries q entry hq).2⟩
  have hold : ∀ q entry, t.socket.reliable.get q = some entry → t'.armed q = t.armed q →
      t'.armed q = true ∧ entry.attempts ≤ 3 := by
    intro q entry hq harmed
    exact ⟨harmed.trans (h.armed q entry hq), h.attempts q entry hq⟩
  intro q entry hq
  cases step_change h.reliable h.write hstep with
  | kept hsame harmed _ =>
    rw [hsame] at hq
    exact hold q entry hq (harmed q (by simp [hq]))
  | closed _ hempty _ =>
    rw [hempty] at hq
    cases hq
  | @installed _ envelope q₀ _ hset hself harmed _ _ =>
    rw [hset, get_set] at hq
    split at hq
    · rename_i heq
      cases hq
      exact ⟨heq ▸ hself, by simp⟩
    rename_i hne
    exact hold q entry hq (harmed q hne (by simp [hq]))
  | removed _ hset harmed _ =>
    rw [hset, get_set] at hq
    split at hq
    · cases hq
    rename_i hne
    exact hold q entry hq (harmed q hne (by simp [hq]))
  | again hget hattempts hset hself harmed _ =>
    rw [hset, get_set] at hq
    split at hq
    · rename_i heq
      cases hq
      exact ⟨heq ▸ hself, hattempts⟩
    rename_i hne
    exact hold q entry hq (harmed q hne (by simp [hq]))

theorem fresh_ticking (writeBudget reliableBudget : Budget) : (fresh writeBudget reliableBudget).Ticking :=
  ⟨(Socket.fresh_sums writeBudget reliableBudget).1, (Socket.fresh_sums writeBudget reliableBudget).2,
    by rintro _ _ ⟨⟩, by rintro _ _ ⟨⟩⟩

/-- No `send_reliable` of a sequence number. -/
def Without (q : ℤ) (_ : TimedSocket) (e : SocketEvent) : Prop := ∀ envelope, e ≠ .sendReliable envelope q

/-- The copies of a sequence number among those handed to `send`. -/
def copies (q : ℤ) (handed : List (ℤ × Octets)) : List (ℤ × Octets) := handed.filter fun copy => decide (copy.1 = q)

/-- The body that was installed last for a sequence number has been handed to `send` at most three times, and as
    often as its entry says. -/
def Counted (q : ℤ) (envelope : Octets) (before : List (ℤ × Octets)) (t : TimedSocket) : Prop :=
  ∃ n ≤ 3, copies q t.handed = copies q before ++ List.replicate n (q, envelope) ∧
    ∀ entry, t.socket.reliable.get q = some entry → entry.attempts = n ∧ entry.envelope = envelope

theorem copies_append_ne {q' : ℤ} (handed : List (ℤ × Octets)) (envelope : Octets) (hne : q' ≠ q) :
    copies q (handed ++ [(q', envelope)]) = copies q handed := by
  simp [copies, filter_append, hne]

theorem copies_append_self (q : ℤ) (handed : List (ℤ × Octets)) (envelope : Octets) :
    copies q (handed ++ [(q, envelope)]) = copies q handed ++ [(q, envelope)] := by
  simp [copies, filter_append]

theorem Counted.step {envelope : Octets} {before : List (ℤ × Octets)} (h : Counted q envelope before t)
    (hwithout : Without q t e) (hchange : t.Change e t') : Counted q envelope before t' := by
  obtain ⟨n, hn, hcopies, hentry⟩ := h
  cases hchange with
  | kept hsame _ hhanded => exact ⟨n, hn, by rw [hhanded, hcopies], by rwa [hsame]⟩
  | closed _ hempty hhanded =>
    rw [Counted, hempty]
    rcases hhanded with hhanded | ⟨envelope', q', rfl, hhanded⟩ | ⟨q', entry, rfl, hget, hattempts, hhanded⟩
    · exact ⟨n, hn, by rw [hhanded, hcopies], by simp⟩
    · have hne : q' ≠ q := fun heq => hwithout envelope' (heq ▸ rfl)
      exact ⟨n, hn, by rw [hhanded, copies_append_ne _ _ hne, hcopies], by simp⟩
    by_cases hne : q' = q
    · subst hne
      obtain ⟨hn', hsame⟩ := hentry entry hget
      refine ⟨n + 1, by omega, ?_, by simp⟩
      rw [hhanded, copies_append_self, hcopies, hsame, replicate_succ', append_assoc]
    · exact ⟨n, hn, by rw [hhanded, copies_append_ne _ _ hne, hcopies], by simp⟩
  | @installed _ envelope' q' _ hset _ _ hhanded _ =>
    have hne : q' ≠ q := fun heq => hwithout envelope' (heq ▸ rfl)
    refine ⟨n, hn, by rw [hhanded, copies_append_ne _ _ hne, hcopies], fun entry hget => ?_⟩
    rw [hset, get_set_ne _ _ hne.symm] at hget
    exact hentry entry hget
  | removed _ hset _ hhanded =>
    refine ⟨n, hn, by rw [hhanded, hcopies], fun entry hget => ?_⟩
    rw [hset, get_set] at hget
    split at hget
    · cases hget
    · exact hentry entry hget
  | @again _ q' entry hget hattempts hset _ _ hhanded =>
    by_cases hne : q' = q
    · subst hne
      obtain ⟨hn', hsame⟩ := hentry entry hget
      refine ⟨n + 1, by omega, ?_, fun entry' hget' => ?_⟩
      · rw [hhanded, copies_append_self, hcopies, hsame, replicate_succ', append_assoc]
      · rw [hset, get_set_self] at hget'
        cases hget'
        exact ⟨by simp [hn'], hsame⟩
    · refine ⟨n, hn, by rw [hhanded, copies_append_ne _ _ hne, hcopies], fun entry' hget' => ?_⟩
      rw [hset, get_set_ne _ _ (Ne.symm hne)] at hget'
      exact hentry entry' hget'

/-- Nothing is kept for a sequence number, and no copy has been sent since. -/
def Silent (q : ℤ) (before : List (ℤ × Octets)) (t : TimedSocket) : Prop :=
  copies q t.handed = copies q before ∧ t.socket.reliable.get q = none

theorem Silent.step {before : List (ℤ × Octets)} (h : Silent q before t)
    (hwithout : Without q t e) (hchange : t.Change e t') : Silent q before t' := by
  obtain ⟨hcopies, hnone⟩ := h
  have hne : ∀ {q' : ℤ} {entry : ReliableEntry}, t.socket.reliable.get q' = some entry → q' ≠ q := by
    rintro q' entry hget rfl
    rw [hnone] at hget
    cases hget
  cases hchange with
  | kept hsame _ hhanded => exact ⟨by rw [hhanded, hcopies], by rw [hsame, hnone]⟩
  | closed _ hempty hhanded =>
    refine ⟨?_, by rw [hempty]; rfl⟩
    rcases hhanded with hhanded | ⟨envelope', q', rfl, hhanded⟩ | ⟨q', entry, rfl, hget, -, hhanded⟩
    · rw [hhanded, hcopies]
    · have hne' : q' ≠ q := fun heq => hwithout envelope' (heq ▸ rfl)
      rw [hhanded, copies_append_ne _ _ hne', hcopies]
    · rw [hhanded, copies_append_ne _ _ (hne hget), hcopies]
  | @installed _ envelope' q' _ hset _ _ hhanded _ =>
    have hne' : q' ≠ q := fun heq => hwithout envelope' (heq ▸ rfl)
    exact ⟨by rw [hhanded, copies_append_ne _ _ hne', hcopies], by rw [hset, get_set_ne _ _ hne'.symm, hnone]⟩
  | removed _ hset _ hhanded =>
    refine ⟨by rw [hhanded, hcopies], ?_⟩
    rw [hset, get_set]
    split
    · rfl
    · exact hnone
  | again hget _ hset _ _ hhanded =>
    exact ⟨by rw [hhanded, copies_append_ne _ _ (hne hget), hcopies],
      by rw [hset, get_set_ne _ _ (hne hget).symm, hnone]⟩

theorem path_ticking {writeBudget reliableBudget : Budget}
    (h : Path step (fun _ _ => True) (fresh writeBudget reliableBudget) t) : t.Ticking :=
  h.invariant (fresh_ticking writeBudget reliableBudget) fun _ _ _ _ ht _ hstep => ht.step hstep

theorem Ticking.along {ok : TimedSocket → SocketEvent → Prop} {P : TimedSocket → Prop} (ht : t.Ticking)
    (hpath : Path TimedSocket.step ok t t') (hP : P t)
    (hkeep : ∀ u e u', P u → ok u e → u.Change e u' → P u') : P t' := by
  have hboth : t'.Ticking ∧ P t' := by
    refine hpath.invariant (P := fun t => t.Ticking ∧ P t) ⟨ht, hP⟩ ?_
    rintro u e u' - ⟨hu, hPu⟩ hok hstep
    exact ⟨hu.step hstep, hkeep u e u' hPu hok (step_change hu.reliable hu.write hstep)⟩
  exact hboth.2

end TimedSocket

open TimedSocket in
/-- A body is handed to `send` at most three times while it is kept, and its entry says how often; it goes by an
    acknowledgement, after its third copy or with the connection; its timer is armed as long as it is there; an
    acknowledgement ends the copies; and a body sent again under the same number takes the place of the old one. -/
theorem reliable_pushes {writeBudget reliableBudget : Budget} {t : TimedSocket}
    (h : Path TimedSocket.step (fun _ _ => True) (TimedSocket.fresh writeBudget reliableBudget) t) :
    (∀ envelope q t₁ t₂, 0 < q → t.step (.sendReliable envelope q) = some t₁ → t₁.socket.closed = false →
      Path TimedSocket.step (Without q) t₁ t₂ → Counted q envelope t.handed t₂) ∧
    (∀ e t' q entry, t.step e = some t' → t.socket.reliable.get q = some entry → t'.socket.reliable.get q = none →
      e = .acknowledge q ∨ e = .retry q ∧ entry.attempts = 3 ∨ t'.socket.closed = true) ∧
    (∀ q entry, t.socket.reliable.get q = some entry → t.socket.closed = false ∧ t.armed q = true) ∧
    (∀ q t₁ t₂, t.step (.acknowledge q) = some t₁ → Path TimedSocket.step (Without q) t₁ t₂ →
      copies q t₂.handed = copies q t.handed) ∧
    ∀ envelope q t' previous, 0 < q → t.step (.sendReliable envelope q) = some t' →
      t.socket.reliable.get q = some previous → t'.socket.closed = true ∨
      t'.socket.reliable.get q = some { envelope, units := envelope.bytes.length, attempts := 1 } ∧
      (∀ q', q' ≠ q → t'.socket.reliable.get q' = t.socket.reliable.get q') ∧
      t'.socket.reliable.rows.length = t.socket.reliable.rows.length ∧
      t'.socket.reliableBudget.count = t.socket.reliableBudget.count := by
  have ht := path_ticking h
  refine ⟨?_, ?_, fun q entry hget => ⟨ht.reliable.isOpen hget, ht.armed q entry hget⟩, ?_, ?_⟩
  · intro envelope q t₁ t₂ hq hstep hopen hpath
    obtain rfl : t.sendReliable envelope q = t₁ := by simpa [TimedSocket.step, hq] using hstep
    obtain ⟨hset, hhanded, -⟩ := sendReliable_open hq hopen
    refine (ht.step hstep).along hpath ?_ fun u e u' hu hok hchange => hu.step hok hchange
    refine ⟨1, by simp, by rw [hhanded, copies_append_self]; rfl, fun entry hget => ?_⟩
    rw [hset, get_set_self] at hget
    cases hget
    exact ⟨rfl, rfl⟩
  · intro e t' q entry hstep hget hnone
    cases step_change ht.reliable ht.write hstep with
    | kept hsame _ _ =>
      rw [hsame, hget] at hnone
      cases hnone
    | closed hclosed _ _ => exact .inr (.inr hclosed)
    | installed _ hset _ _ _ _ =>
      rw [hset, get_set] at hnone
      split at hnone
      · cases hnone
      rw [hget] at hnone
      cases hnone
    | @removed _ _ q' hevent hset _ _ =>
      rw [hset, get_set] at hnone
      split at hnone
      · rename_i heq
        subst heq
        rcases hevent with rfl | ⟨rfl, entry', hget', hthree⟩
        · exact .inl rfl
        rw [hget] at hget'
        cases hget'
        exact .inr (.inl ⟨rfl, le_antisymm (ht.attempts q entry hget) hthree⟩)
      · rw [hget] at hnone
        cases hnone
    | again _ _ hset _ _ _ =>
      rw [hset, get_set] at hnone
      split at hnone
      · cases hnone
      rw [hget] at hnone
      cases hnone
  · intro q t₁ t₂ hstep hpath
    refine ((ht.step hstep).along (P := Silent q t.handed) hpath ?_ fun u e u' hu hok hchange =>
      hu.step hok hchange).1
    cases hstep
    exact ⟨rfl, by simp [settle, acknowledge_reliable]⟩
  · intro envelope q t' previous hq hstep hget
    obtain rfl : t.sendReliable envelope q = t' := by simpa [TimedSocket.step, hq] using hstep
    by_cases hopen : (t.sendReliable envelope q).socket.closed = false
    · obtain ⟨hset, -, hcount⟩ := sendReliable_open hq hopen
      refine .inr ⟨by rw [hset, get_set_self], fun q' hne => by rw [hset, get_set_ne _ _ hne], ?_,
        hcount (by simp [hget])⟩
      rw [hset, length_set_some, length_set_none hget]
    · exact .inl (by simpa using hopen)

/-- A push that is never acknowledged: its timer expires twice and is armed for the last time. -/
def unheard : List SocketEvent := [.retry 7, .start 0, .retry 7]

open TimedSocket in
theorem reliable_pushes_unheard :
    ∃ t₁ t₂, (TimedSocket.fresh ⟨8, 100⟩ ⟨8, 100⟩).step (.sendReliable ⟨[1, 2, 3], by decide⟩ 7) = some t₁ ∧
      unheard.foldlM TimedSocket.step t₁ = some t₂ ∧ t₂.handed.length = 3 ∧
      Counted 7 ⟨[1, 2, 3], by decide⟩ [] t₂ ∧ t₂.armed 7 = true := by
  obtain ⟨t₁, hstep, t₂, hrun, hopen, hlength, hkept⟩ :
      ∃ t₁, (TimedSocket.fresh ⟨8, 100⟩ ⟨8, 100⟩).step (.sendReliable ⟨[1, 2, 3], by decide⟩ 7) = some t₁ ∧
        ∃ t₂, unheard.foldlM TimedSocket.step t₁ = some t₂ ∧ t₁.socket.closed = false ∧ t₂.handed.length = 3 ∧
          (t₂.socket.reliable.get 7).isSome = true :=
    ⟨_, rfl, _, rfl, rfl, rfl, rfl⟩
  have hpath : Path TimedSocket.step (Without 7) t₁ t₂ :=
    Path.here.run (by simp [unheard, Without]) hrun
  obtain ⟨entry, hentry⟩ := Option.isSome_iff_exists.1 hkept
  have hall : Path TimedSocket.step (fun _ _ => True) (TimedSocket.fresh ⟨8, 100⟩ ⟨8, 100⟩) t₂ :=
    (Path.here.next trivial hstep).trans (hpath.mono fun _ _ _ => trivial)
  exact ⟨t₁, t₂, hstep, hrun, hlength, (reliable_pushes .here).1 _ 7 t₁ t₂ (by decide) hstep hopen hpath,
    ((reliable_pushes hall).2.2.1 7 entry hentry).2⟩

end Imm
