import Imm.Reactor.Stories
import Mathlib.Data.List.Count
import Mathlib.Data.List.Perm.Basic

/-! The coroutines that are outstanding, and what `drain_local_grpc` and `close_grpc_engine` can rely on.
    `active_io` is raised where a coroutine is scheduled and lowered where it ends, in other functions and on
    every way out; a cancelled connect counts until its coroutine has ended. So nothing is outstanding when
    the counter is zero, and a table without entries does not say as much. -/

namespace Imm.EventEngine

open Steps List Option

/-- A descriptor is opened for every `Connect`, and the endpoint of one that succeeds can be made. -/
def Sound (_ : Reactor) : Event → Prop
  | .connect _ fd => fd = true
  | .resume _ attached => attached = true
  | _ => True

theorem Sound.attaches {r : Reactor} {e : Event} (h : Sound r e) : Reactor.Attaches e := by
  cases e with
  | resume => exact h
  | _ => trivial

namespace Reactor

variable {r r' : Reactor} {e : Event} {op op' : Operation}

/-- What is known of an operation that runs. -/
def Open (r : Reactor) : Operation → Prop
  | .connect h => ∃ p, r.pending h = some p ∧ p.stage ≠ .finished
  | .read endpoint => (r.endpoints endpoint).reading = true
  | .write endpoint => (r.endpoints endpoint).writing = true
  | .accept listener _ => (r.listeners listener).started = true
  | .lookup number _ => number < r.madeLookups

/-- For connects, reads and writes that is all there is to know. -/
def Tracked : Operation → Prop
  | .connect _ | .read _ | .write _ => True
  | _ => False

/-- A loop of this listener. -/
def accepts (listener : ℕ) : Operation → Bool
  | .accept l _ => decide (l = listener)
  | _ => false

/-- The counter counts the operations that run, each of them once, and every listener counts its loops. -/
structure Counted (r : Reactor) : Prop where
  count : r.observed.activeIo = r.io.length
  active : ∀ l, (r.listeners l).active = r.io.countP (accepts l)
  nodup : r.io.Nodup
  opened : ∀ op ∈ r.io, r.Open op
  tracked : ∀ op, Tracked op → r.Open op → op ∈ r.io

theorem fresh_counted : ({} : Reactor).Counted where
  count := rfl
  active _ := rfl
  nodup := nodup_nil
  opened := by simp
  tracked := by
    rintro (h | n | n | ⟨l, s⟩ | ⟨n, e⟩) htracked hopen
    · obtain ⟨p, hp, -⟩ := hopen
      cases hp
    · cases hopen
    · cases hopen
    · cases htracked
    · cases htracked

/-! ### Operations begin and end -/

theorem Counted.keep (h : r.Counted) (hcount : r'.observed.activeIo = r.observed.activeIo) (hio : r'.io = r.io)
    (hactive : ∀ l, (r'.listeners l).active = (r.listeners l).active)
    (hopen : ∀ op, r.Open op → r'.Open op) (hback : ∀ op, Tracked op → r'.Open op → r.Open op) :
    r'.Counted where
  count := by rw [hcount, hio, h.count]
  active l := by rw [hactive, hio, h.active]
  nodup := by rw [hio]; exact h.nodup
  opened op hop := hopen op (h.opened op (hio ▸ hop))
  tracked op ht ho := hio ▸ h.tracked op ht (hback op ht ho)

theorem Counted.begins (h : r.Counted) (hnew : op ∉ r.io)
    (hcount : r'.observed.activeIo = r.observed.activeIo + 1) (hio : r'.io = r.io ++ [op])
    (hactive : ∀ l, (r'.listeners l).active = (r.listeners l).active + if accepts l op then 1 else 0)
    (hself : r'.Open op) (hopen : ∀ op', op' ≠ op → r.Open op' → r'.Open op')
    (hback : ∀ op', Tracked op' → op' ≠ op → r'.Open op' → r.Open op') : r'.Counted where
  count := by rw [hcount, hio, h.count, length_append, length_singleton]
  active l := by rw [hactive, hio, h.active, countP_append, countP_singleton]
  nodup := by
    rw [hio]
    exact nodup_append.2 ⟨h.nodup, by simp, fun a ha b hb => by
      rw [mem_singleton.1 hb]
      exact fun hab => hnew (hab ▸ ha)⟩
  opened op' hop' := by
    rw [hio] at hop'
    rcases mem_append.1 hop' with hold | hself'
    · exact hopen op' (fun heq => hnew (heq ▸ hold)) (h.opened op' hold)
    · rwa [mem_singleton.1 hself']
  tracked op' ht ho := by
    rw [hio]
    by_cases heq : op' = op
    · exact mem_append_right _ (mem_singleton.2 heq)
    · exact mem_append_left _ (h.tracked op' ht (hback op' ht heq ho))

theorem Counted.ends (h : r.Counted) (hop : op ∈ r.io)
    (hcount : r'.observed.activeIo = r.observed.activeIo - 1) (hio : r'.io = r.io.erase op)
    (hactive : ∀ l, (r'.listeners l).active = (r.listeners l).active - if accepts l op then 1 else 0)
    (hself : Tracked op → ¬ r'.Open op) (hopen : ∀ op', op' ≠ op → r.Open op' → r'.Open op')
    (hback : ∀ op', Tracked op' → op' ≠ op → r'.Open op' → r.Open op') : r'.Counted where
  count := by rw [hcount, hio, h.count, length_erase_of_mem hop]
  active l := by simp [hactive, hio, h.active, countP_erase, hop]
  nodup := by rw [hio]; exact h.nodup.erase op
  opened op' hop' := by
    obtain ⟨hne, hmem⟩ := h.nodup.mem_erase_iff.1 (hio ▸ hop')
    exact hopen op' hne (h.opened op' hmem)
  tracked op' ht ho := by
    have hne : op' ≠ op := fun heq => hself (heq ▸ ht) (heq ▸ ho)
    rw [hio]
    exact h.nodup.mem_erase_iff.2 ⟨hne, h.tracked op' ht (hback op' ht hne ho)⟩

/-! ### The events -/

theorem open_congr (hpending : r'.pending = r.pending) (hendpoints : r'.endpoints = r.endpoints)
    (hlisteners : r'.listeners = r.listeners) (hlookups : r'.madeLookups = r.madeLookups) (op : Operation) :
    r'.Open op ↔ r.Open op := by
  cases op <;> simp only [Open, hpending, hendpoints, hlisteners, hlookups]

theorem Counted.same (h : r.Counted) (hsame : (r'.observed.activeIo, r'.io, r'.pending, r'.endpoints, r'.listeners,
    r'.madeLookups) = (r.observed.activeIo, r.io, r.pending, r.endpoints, r.listeners, r.madeLookups)) :
    r'.Counted := by
  obtain ⟨hcount, hio, hpending, hendpoints, hlisteners, hlookups⟩ := by simpa using hsame
  have hopen := open_congr hpending hendpoints hlisteners hlookups
  exact h.keep hcount hio (fun _ => by rw [hlisteners]) (fun op => (hopen op).2) fun op _ => (hopen op).1

variable {p : PendingConnection} {l : ℕ} {s : ListenerState} {ok : Bool}

theorem open_setPending {h : Handle} (hne : op ≠ .connect h) :
    (r.setPending h p).Open op ↔ r.Open op := by
  cases op with
  | connect k =>
    have hk : k ≠ h := fun hk => hne (congrArg Operation.connect hk)
    simp only [Open, pending_setPending_ne hk]
  | _ => exact .rfl

theorem open_setPending_self {h : Handle} :
    (r.setPending h p).Open (.connect h) ↔ p.stage ≠ .finished := by
  simp [Open, pending_setPending_self]

theorem Counted.setPending (hr : r.Counted) {h : Handle} (hp : r.pending h = some p)
    (p' : PendingConnection) (hstage : p'.stage = .finished ↔ p.stage = .finished) :
    (r.setPending h p').Counted := by
  have hopen : ∀ op, (r.setPending h p').Open op ↔ r.Open op := by
    intro op
    by_cases hop : op = .connect h
    · subst hop
      rw [open_setPending_self, Ne, hstage]
      simp [Open, hp]
    · exact open_setPending hop
  exact hr.keep rfl rfl (fun _ => rfl) (fun op => (hopen op).2) fun op _ => (hopen op).1

theorem Counted.tell (hr : r.Counted) (effect : Effect) : (r.tell effect).Counted :=
  hr.same rfl

theorem open_setEndpoint {n : ℕ} {s : EndpointState}
    (hread : op = .read n → s.reading = (r.endpoints n).reading)
    (hwrite : op = .write n → s.writing = (r.endpoints n).writing) :
    (r.setEndpoint n s).Open op ↔ r.Open op := by
  cases op with
  | read k =>
    by_cases hk : k = n
    · subst hk
      simp [Open, Reactor.setEndpoint, hread rfl]
    · simp [Open, Reactor.setEndpoint, hk]
  | write k =>
    by_cases hk : k = n
    · subst hk
      simp [Open, Reactor.setEndpoint, hwrite rfl]
    · simp [Open, Reactor.setEndpoint, hk]
  | _ => exact .rfl

theorem open_reading {n : ℕ} (reading : Bool) (hne : op ≠ .read n) :
    (r.setEndpoint n { r.endpoints n with reading }).Open op ↔ r.Open op :=
  open_setEndpoint (fun heq => absurd heq hne) fun _ => rfl

theorem open_writing {n : ℕ} (writing : Bool) (hne : op ≠ .write n) :
    (r.setEndpoint n { r.endpoints n with writing }).Open op ↔ r.Open op :=
  open_setEndpoint (fun _ => rfl) fun heq => absurd heq hne

theorem open_setListener
    (h : (r.listeners l).started = true → s.started = true) : r.Open op → (r.setListener l s).Open op := by
  cases op with
  | accept k socket =>
    by_cases hk : k = l
    · subst hk
      simpa [Open, Reactor.setListener] using h
    · simp [Open, Reactor.setListener, hk]
  | _ => exact id

theorem active_setListener (h : s.active = (r.listeners l).active) (k : ℕ) :
    ((r.setListener l s).listeners k).active = (r.listeners k).active := by
  by_cases hk : k = l
  · subst hk
    simp [Reactor.setListener, h]
  · simp [Reactor.setListener, hk]

theorem tracked_setListener (ht : Tracked op) :
    (r.setListener l s).Open op → r.Open op := by
  cases op with
  | accept | lookup => cases ht
  | _ => exact id

theorem Counted.setListener (hr : r.Counted) (hactive : s.active = (r.listeners l).active)
    (h : (r.listeners l).started = true → s.started = true) : (r.setListener l s).Counted :=
  hr.keep rfl rfl (active_setListener hactive) (fun _ => open_setListener h) fun _ => tracked_setListener

theorem Counted.completeListener (hr : r.Counted) (l : ℕ) : (r.completeListener l).Counted := by
  unfold Reactor.completeListener
  dsimp only
  split
  · have hset : (r.setListener l { r.listeners l with shutdown := false }).Counted := hr.setListener rfl id
    exact hset.same rfl
  · exact hr

variable {h : Handle} {n : ℕ}

theorem Counted.connect (hr : r.Counted) (hissued : r.Issued) (engine : ℕ) :
    (r.connect engine true).Counted := by
  have hnone : r.pending ⟨engine, (r.engines engine).nextId + 1⟩ = none :=
    congrArg View.pending (hissued ⟨engine, (r.engines engine).nextId + 1⟩ (Nat.lt_succ_self _)).1
  refine hr.begins (fun hmem => ?_) rfl rfl (fun _ => rfl) ?_ ?_ ?_
  · obtain ⟨p, hp, -⟩ := hr.opened _ hmem
    cases hp.symm.trans hnone
  · exact open_setPending_self.2 (by simp)
  · exact fun op hne hopen => (open_setPending hne).2 hopen
  · exact fun op _ hne hopen => (open_setPending hne).1 hopen

theorem Counted.start (hr : r.Counted) (hstep : r.start h = some r') : r'.Counted := by
  obtain ⟨p, hp, hstage, rfl⟩ := start_eq hstep
  exact hr.setPending hp _ (by simp [hstage])

theorem Counted.complete (hr : r.Counted) (hstep : r.complete h ok = some r') : r'.Counted := by
  obtain ⟨p, hp, hstage, rfl⟩ := complete_eq hstep
  exact hr.setPending hp _ (by simp [hstage])

theorem Counted.timeout (hr : r.Counted) (hstep : r.timeout h = some r') : r'.Counted := by
  obtain ⟨p, hp, -, rfl⟩ := timeout_eq hstep
  exact (hr.setPending hp { p with timeout := false, expired := true } .rfl).tell _

/-- The entry is gone; the coroutine counts as before. -/
theorem Counted.cancelConnect (hr : r.Counted) (hstep : r.cancelConnect h = some r') : r'.Counted := by
  rcases cancelConnect_eq hstep with ⟨p, hp, -, rfl⟩ | rfl
  · have hunlist : (r.unlist h).Counted := hr.same rfl
    refine (hunlist.setPending hp { p with cancelled := true, callback := false, timeout := false } ?_).tell _
    exact .rfl
  · exact hr.tell _

/-- However the coroutine ends, it is counted no more. -/
theorem Counted.ended (hr : r.Counted) (hp : r.pending h = some p)
    (hstage : p.stage ≠ .finished) (p' : PendingConnection) (hfinished : p'.stage = .finished) :
    (r.ended h p').Counted := by
  have hmem : .connect h ∈ r.io := hr.tracked _ trivial ⟨p, hp, hstage⟩
  refine hr.ends hmem rfl rfl (fun _ => rfl) (fun _ hopen => ?_) ?_ ?_
  · exact open_setPending_self.1 hopen hfinished
  · exact fun op hne hopen => (open_setPending hne).2 hopen
  · exact fun op _ hne hopen => (open_setPending hne).1 hopen

theorem Counted.resume (hr : r.Counted) {attached : Bool} (hstep : r.resume h attached = some r') :
    r'.Counted := by
  obtain ⟨p, status, hp, hstage, hresumes⟩ := resume_resumes hstep
  have hended : ∀ p' : PendingConnection, p'.stage = .finished → (r.ended h p').Counted :=
    hr.ended hp (by simp [hstage])
  cases hresumes with
  | cancelled => exact hended _ rfl
  | fails => exact (hended _ rfl).tell _
  | attaches => exact (hended (spent p) rfl).same rfl
  | throws => exact hended _ rfl

theorem Counted.read (hr : r.Counted) (hstep : r.read n = some r') : r'.Counted := by
  obtain ⟨⟨-, hidle⟩, ⟨⟩⟩ := ite_none_right_eq_some.1 hstep
  refine hr.begins (fun hmem => ?_) rfl rfl (fun _ => rfl) ?_ ?_ ?_
  · cases hidle.symm.trans (hr.opened _ hmem)
  · simp [Open, Reactor.setEndpoint]
  · exact fun op hne hopen => (open_reading true hne).2 hopen
  · exact fun op _ hne hopen => (open_reading true hne).1 hopen

theorem Counted.write (hr : r.Counted) (hstep : r.write n = some r') : r'.Counted := by
  obtain ⟨⟨-, hidle⟩, ⟨⟩⟩ := ite_none_right_eq_some.1 hstep
  refine hr.begins (fun hmem => ?_) rfl rfl (fun _ => rfl) ?_ ?_ ?_
  · cases hidle.symm.trans (hr.opened _ hmem)
  · simp [Open, Reactor.setEndpoint]
  · exact fun op hne hopen => (open_writing true hne).2 hopen
  · exact fun op _ hne hopen => (open_writing true hne).1 hopen

theorem Counted.readEnds (hr : r.Counted) (hstep : r.readEnds n ok = some r') : r'.Counted := by
  obtain ⟨hmem, ⟨⟩⟩ := ite_none_right_eq_some.1 hstep
  refine hr.ends hmem rfl rfl (fun _ => rfl) (fun _ => ?_) ?_ ?_
  · simp [Open, Reactor.setEndpoint, Reactor.tell]
  · exact fun op hne hopen => (open_reading false hne).2 hopen
  · exact fun op _ hne hopen => (open_reading false hne).1 hopen

theorem Counted.writeEnds (hr : r.Counted) (hstep : r.writeEnds n ok = some r') : r'.Counted := by
  obtain ⟨hmem, ⟨⟩⟩ := ite_none_right_eq_some.1 hstep
  refine hr.ends hmem rfl rfl (fun _ => rfl) (fun _ => ?_) ?_ ?_
  · simp [Open, Reactor.setEndpoint, Reactor.tell]
  · exact fun op hne hopen => (open_writing false hne).2 hopen
  · exact fun op _ hne hopen => (open_writing false hne).1 hopen

theorem Counted.destroyEndpoint (hr : r.Counted) (hstep : r.destroyEndpoint n = some r') : r'.Counted := by
  obtain ⟨-, ⟨⟩⟩ := ite_none_right_eq_some.1 hstep
  have hopen : ∀ op, (r.setEndpoint n { r.endpoints n with closing := true }).Open op ↔ r.Open op :=
    fun op => open_setEndpoint (fun _ => rfl) fun _ => rfl
  exact hr.keep rfl rfl (fun _ => rfl) (fun op => (hopen op).2) fun op _ => (hopen op).1

/-! ### Listeners and lookups -/

theorem Counted.serve (hr : r.Counted) {s : ℕ} (hstarted : (r.listeners l).started = true)
    (hnew : .accept l s ∉ r.io) : (r.serve l s).Counted := by
  refine hr.begins hnew rfl rfl (fun k => ?_) ?_ (fun op _ => ?_) fun op ht _ => ?_
  · by_cases hk : k = l
    · subst hk
      simp [Reactor.serve, Reactor.setListener, accepts]
    · simp [Reactor.serve, Reactor.setListener, accepts, hk, Ne.symm hk, Reactor.begin]
  · simpa [Open, Reactor.serve, Reactor.setListener] using hstarted
  · exact open_setListener id
  · exact tracked_setListener ht

theorem Counted.serves (hr : r.Counted) {sockets : List ℕ} (hsockets : sockets.Nodup)
    (hstarted : (r.listeners l).started = true) (hnew : ∀ s ∈ sockets, .accept l s ∉ r.io) :
    (sockets.foldl (fun r s => r.serve l s) r).Counted := by
  induction sockets generalizing r with
  | nil => exact hr
  | cons s sockets ih =>
    obtain ⟨hs, hsockets⟩ := nodup_cons.1 hsockets
    refine ih (hr.serve hstarted (hnew s mem_cons_self)) hsockets ?_ fun s' hs' hmem => ?_
    · simpa [Reactor.serve, Reactor.setListener] using hstarted
    · rcases mem_append.1 hmem with hold | hself
      · exact hnew s' (mem_cons_of_mem _ hs') hold
      cases mem_singleton.1 hself
      exact hs hs'

theorem Counted.startListener (hr : r.Counted) (hstep : r.startListener n = some r') : r'.Counted := by
  obtain ⟨⟨-, hidle⟩, ⟨⟩⟩ := ite_none_right_eq_some.1 hstep
  refine .serves (hr.setListener ?_ fun _ => ?_) nodup_range ?_ fun s _ hmem => ?_
  · rfl
  · rfl
  · simp [Reactor.setListener]
  · cases hidle.symm.trans (hr.opened _ hmem)

/-- A loop ends, and its listener has not looked yet whether it was the last one. -/
def exited (r : Reactor) (l s : ℕ) (status : Status) : Reactor :=
  (r.finish (.accept l s)).setListener l { r.listeners l with active := (r.listeners l).active - 1, status }

theorem Counted.exited (hr : r.Counted) {s : ℕ} (hmem : .accept l s ∈ r.io) (status : Status) :
    (r.exited l s status).Counted := by
  refine hr.ends hmem rfl rfl (fun k => ?_) (fun ht => ?_) (fun op _ => ?_) fun op ht _ => ?_
  · by_cases hk : k = l
    · subst hk
      simp [Reactor.exited, Reactor.setListener, accepts]
    · simp [Reactor.exited, Reactor.setListener, accepts, hk, Ne.symm hk, Reactor.finish]
  · cases ht
  · exact open_setListener id
  · exact tracked_setListener ht

theorem Counted.acceptEnds (hr : r.Counted) {s : ℕ} (hmem : .accept l s ∈ r.io) (status : Status) :
    (r.acceptEnds l s status).Counted :=
  (hr.exited hmem status).completeListener l

theorem Counted.accept (hr : r.Counted) {s : ℕ} {incoming : Incoming}
    (hstep : r.accept l s incoming = some r') : r'.Counted := by
  obtain ⟨hmem, ⟨status, rfl⟩ | rfl⟩ := accept_eq hstep
  · exact hr.acceptEnds hmem status
  · exact hr.same rfl

theorem Counted.lookupHostname (hr : r.Counted) {engine : ℕ} (hstep : r.lookupHostname engine = some r') :
    r'.Counted := by
  obtain ⟨-, ⟨⟩⟩ := ite_none_right_eq_some.1 hstep
  refine hr.begins (fun hmem => ?_) rfl rfl (fun _ => rfl) ?_ (fun op _ hopen => ?_) fun op ht _ => ?_
  · exact Nat.lt_irrefl _ (hr.opened _ hmem)
  · exact Nat.lt_succ_self _
  · cases op with
    | lookup => exact Nat.lt_succ_of_lt hopen
    | _ => exact hopen
  · cases op with
    | accept | lookup => cases ht
    | _ => exact id

theorem Counted.lookupEnds (hr : r.Counted) {engine : ℕ}
    (hstep : r.lookupEnds n engine ok = some r') : r'.Counted := by
  obtain ⟨hmem, ⟨⟩⟩ := ite_none_right_eq_some.1 hstep
  exact hr.ends hmem rfl rfl (fun _ => rfl) (fun ht => by cases ht) (fun _ _ => id) fun _ _ _ => id

/-! ### Runs -/

theorem Counted.step (hr : r.Counted) (hissued : r.Issued) (he : Sound r e) (hstep : r.step e = some r') :
    r'.Counted := by
  cases e with
  | run | runAfter | createListener | getDnsResolver =>
    cases hstep
    exact hr.same rfl
  | taskDone | fire | destroyResolver =>
    obtain ⟨-, ⟨⟩⟩ := ite_none_right_eq_some.1 hstep
    exact hr.same rfl
  | drainLocalGrpc | closeGrpcEngine =>
    obtain ⟨-, ⟨⟩⟩ := ite_none_left_eq_some.1 hstep
    exact hr.same rfl
  | cancel h =>
    cases hstep
    rcases cancel_eq r h with ⟨-, hcancel⟩ | ⟨-, hcancel⟩
    · exact hcancel ▸ hr.same rfl
    · exact hcancel ▸ hr.tell _
  | connect engine fd =>
    obtain rfl := he
    cases hstep
    exact hr.connect hissued engine
  | start => exact hr.start hstep
  | complete => exact hr.complete hstep
  | timeout => exact hr.timeout hstep
  | resume => exact hr.resume hstep
  | cancelConnect => exact hr.cancelConnect hstep
  | read => exact hr.read hstep
  | readEnds => exact hr.readEnds hstep
  | write => exact hr.write hstep
  | writeEnds => exact hr.writeEnds hstep
  | destroyEndpoint => exact hr.destroyEndpoint hstep
  | bind =>
    obtain ⟨-, ⟨⟩⟩ := ite_none_right_eq_some.1 hstep
    exact hr.setListener rfl id
  | startListener => exact hr.startListener hstep
  | accept => exact hr.accept hstep
  | destroyListener =>
    obtain ⟨-, ⟨⟩⟩ := ite_none_right_eq_some.1 hstep
    refine .completeListener (hr.setListener ?_ ?_) _
    · rfl
    · exact id
  | lookupHostname => exact hr.lookupHostname hstep
  | lookupEnds => exact hr.lookupEnds hstep

end Reactor

end Imm.EventEngine
