import Imm.Reactor.Engine
import Imm.Schemes.Paths
import Mathlib.Tactic.Common

/-! What can be told about one handle. Seen from a handle the reactor is a small machine: a `Connect` goes
    from stage to stage, may time out, may be cancelled, and in the end its callback is told or not; a
    `RunAfter` is armed, and fires or is cancelled. Every event of the reactor is a step of that machine or
    passes the handle by, so what holds of the machine holds of every handle in every run. -/

namespace Imm.EventEngine

open Steps List Option

/-! ### Connections -/

/-- What the log says about a `Connect`. -/
inductive Fact where
  | timedOut
  /-- `CancelConnect` returned true -/
  | cancelled
  | connected (result : Except Status ℕ)
  deriving DecidableEq

def Effect.fact (h : Handle) : Effect → Option Fact
  | .connected h' result => if h' = h then some (.connected result) else none
  | .cancelConnect h' true => if h' = h then some .cancelled else none
  | .timedOut h' => if h' = h then some .timedOut else none
  | _ => none

/-- What concerns one `Connect`: the object, whether the table has an entry for it, and its story. -/
structure View where
  pending : Option PendingConnection
  listed : Bool
  story : List Fact
  deriving DecidableEq

namespace View

/-- Before the `Connect`. -/
def blank : View := ⟨none, false, []⟩

/-- What the coroutine tells the callback, if all goes well. -/
def outcome (expired : Bool) (status : Status) (endpoint : ℕ) : Except Status ℕ :=
  if expired then .error .deadlineExceeded else if status ≠ .ok then .error status else .ok endpoint

/-- The steps of a connection. -/
inductive Moves : View → View → Prop
  | connects : Moves blank ⟨some {}, true, []⟩
  | starts {p : PendingConnection} {listed : Bool} {story : List Fact} (hstage : p.stage = .scheduled) :
      Moves ⟨some p, listed, story⟩ ⟨some { p with stage := .connecting }, listed, story⟩
  | completes {p : PendingConnection} {listed : Bool} {story : List Fact} (hstage : p.stage = .connecting)
      (ok : Bool) : Moves ⟨some p, listed, story⟩
        ⟨some { p with stage := .ready (if ok then .ok else .unavailable) }, listed, story⟩
  | timesOut {p : PendingConnection} {listed : Bool} {story : List Fact} (harmed : p.timeout = true) :
      Moves ⟨some p, listed, story⟩
        ⟨some { p with timeout := false, expired := true }, listed, story ++ [.timedOut]⟩
  | cancels {p : PendingConnection} {story : List Fact} :
      Moves ⟨some p, true, story⟩
        ⟨some { p with cancelled := true, callback := false, timeout := false }, false, story ++ [.cancelled]⟩
  | endsCancelled {p : PendingConnection} {listed : Bool} {story : List Fact} {status : Status}
      (hstage : p.stage = .ready status) (hcancelled : p.cancelled = true) :
      Moves ⟨some p, listed, story⟩ ⟨some { p with timeout := false, stage := .finished }, false, story⟩
  | ends {p : PendingConnection} {listed : Bool} {story : List Fact} {status : Status} (endpoint : ℕ)
      (hstage : p.stage = .ready status) (hcancelled : p.cancelled = false) :
      Moves ⟨some p, listed, story⟩
        ⟨some { p with timeout := false, stage := .finished, callback := false }, false,
          story ++ [.connected (outcome p.expired status endpoint)]⟩

/-- The story of a connection: the timeout, if it fired, and then how it was ended, if it was. -/
def Tells (p : PendingConnection) (story : List Fact) : Prop :=
  let early := if p.expired then [Fact.timedOut] else []
  if p.cancelled then story = early ++ [.cancelled]
  else if p.stage = .finished then
    ∃ result, story = early ++ [.connected result] ∧ (result = .error .deadlineExceeded ↔ p.expired = true)
  else story = early

/-- The table has an entry as long as nothing has ended the connection, and until then the callback is
    there; the timer is armed no longer than that. A status is one `fd.connect` ends with. -/
structure Consistent (v : View) : Prop where
  blank : v.pending = none → v = .blank
  listed : ∀ p, v.pending = some p → (v.listed = true ↔ p.cancelled = false ∧ p.stage ≠ .finished)
  callback : ∀ p, v.pending = some p → v.listed = true → p.callback = true
  timeout : ∀ p, v.pending = some p → p.timeout = true → v.listed = true ∧ p.expired = false
  status : ∀ p, v.pending = some p → p.stage ≠ .ready .deadlineExceeded
  tells : ∀ p, v.pending = some p → Tells p v.story

theorem blank_consistent : blank.Consistent := ⟨fun _ => rfl, by simp [blank], by simp [blank], by simp [blank],
  by simp [blank], by simp [blank]⟩

variable {v v' : View}

theorem consistent_some {p : PendingConnection} {listed : Bool} {story : List Fact}
    (hlisted : listed = true ↔ p.cancelled = false ∧ p.stage ≠ .finished)
    (hcallback : listed = true → p.callback = true)
    (htimeout : p.timeout = true → listed = true ∧ p.expired = false)
    (hstatus : p.stage ≠ .ready .deadlineExceeded) (htells : Tells p story) :
    (⟨some p, listed, story⟩ : View).Consistent where
  blank := by simp
  listed := by rintro p ⟨⟩; exact hlisted
  callback := by rintro p ⟨⟩; exact hcallback
  timeout := by rintro p ⟨⟩; exact htimeout
  status := by rintro p ⟨⟩; exact hstatus
  tells := by rintro p ⟨⟩; exact htells

theorem Moves.consistent (h : v.Moves v') (hv : v.Consistent) : v'.Consistent := by
  cases h with
  | connects => exact consistent_some (by simp) (by simp) (by simp) (by simp) (by simp [Tells])
  | @starts p listed story hstage =>
    obtain ⟨-, hlisted, hcallback, htimeout, -, htells⟩ := hv
    refine consistent_some ?_ (hcallback p rfl) (htimeout p rfl) (by simp) ?_
    · simpa [hstage] using hlisted
    · simpa [Tells, hstage] using htells
  | @completes p listed story hstage ok =>
    obtain ⟨-, hlisted, hcallback, htimeout, -, htells⟩ := hv
    refine consistent_some ?_ (hcallback p rfl) (htimeout p rfl) (by cases ok <;> simp) ?_
    · simpa [hstage] using hlisted
    · simpa [Tells, hstage] using htells
  | @timesOut p listed story harmed =>
    obtain ⟨-, hlisted, hcallback, htimeout, hstatus, htells⟩ := hv
    obtain ⟨rfl, hexpired⟩ := htimeout p rfl harmed
    obtain ⟨hcancelled, hstage⟩ := (hlisted p rfl).1 rfl
    have htells := htells p rfl
    refine consistent_some (hlisted p rfl) (hcallback p rfl) (by simp) (hstatus p rfl) ?_
    simp only [Tells, hexpired, hcancelled, hstage, Bool.false_eq_true, if_false] at htells
    simp [Tells, hcancelled, hstage, htells]
  | @cancels p story =>
    obtain ⟨-, hlisted, -, -, hstatus, htells⟩ := hv
    obtain ⟨hcancelled, hstage⟩ := (hlisted p rfl).1 rfl
    have htells := htells p rfl
    refine consistent_some (by simp) (by simp) (by simp) (hstatus p rfl) ?_
    simp only [Tells, hcancelled, hstage, Bool.false_eq_true, if_false] at htells
    simp [Tells, htells]
  | @endsCancelled p listed story status hstage hcancelled =>
    obtain ⟨-, -, -, -, -, htells⟩ := hv
    refine consistent_some (by simp) (by simp) (by simp) (by simp) ?_
    simpa [Tells, hcancelled] using htells
  | @ends p listed story status endpoint hstage hcancelled =>
    obtain ⟨-, -, -, -, hstatus, htells⟩ := hv
    have hstatus := hstatus p rfl
    have htells := htells p rfl
    refine consistent_some (by simp) (by simp) (by simp) (by simp) ?_
    simp only [Tells, hcancelled, hstage, Bool.false_eq_true, if_false, reduceCtorEq] at htells
    simp only [Tells, hcancelled, Bool.false_eq_true, if_false, if_true]
    refine ⟨_, congrArg (· ++ _) htells, ?_⟩
    unfold outcome
    cases p.expired with
    | true => simp
    | false =>
      have hne : status ≠ .deadlineExceeded := fun h => hstatus (h ▸ hstage)
      by_cases hok : status = .ok <;> simp [hok, hne]

end View

/-! ### Timers -/

/-- What the log says about a `RunAfter`. -/
inductive TimerFact where
  | fired
  /-- `Cancel` returned true -/
  | cancelled
  deriving DecidableEq

def Effect.timerFact (h : Handle) : Effect → Option TimerFact
  | .fired h' => if h' = h then some .fired else none
  | .cancel h' true => if h' = h then some .cancelled else none
  | _ => none

structure TimerView where
  listed : Bool
  story : List TimerFact
  deriving DecidableEq

namespace TimerView

def blank : TimerView := ⟨false, []⟩

inductive Moves : TimerView → TimerView → Prop
  | arms : Moves blank ⟨true, []⟩
  | fires {story : List TimerFact} : Moves ⟨true, story⟩ ⟨false, story ++ [.fired]⟩
  | cancels {story : List TimerFact} : Moves ⟨true, story⟩ ⟨false, story ++ [.cancelled]⟩

/-- Nothing has happened to a timer in the table, and once at most does something happen to it. -/
structure Consistent (v : TimerView) : Prop where
  listed : v.listed = true → v.story = []
  once : v.story.length ≤ 1

theorem blank_consistent : blank.Consistent := ⟨by simp [blank], by simp [blank]⟩

theorem Moves.consistent {v v' : TimerView} (h : v.Moves v') (hv : v.Consistent) : v'.Consistent := by
  cases h with
  | arms => exact ⟨fun _ => rfl, by simp⟩
  | @fires story =>
    have hstory : story = [] := hv.listed rfl
    exact ⟨by simp, by simp [hstory]⟩
  | @cancels story =>
    have hstory : story = [] := hv.listed rfl
    exact ⟨by simp, by simp [hstory]⟩

theorem Moves.grows {v v' : TimerView} (h : v.Moves v') : v.story <+: v'.story := by
  cases h with
  | arms => exact nil_prefix
  | fires | cancels => exact prefix_append _ _

end TimerView

/-! ### The reactor, seen from a handle -/

namespace Reactor

variable (r : Reactor) {r' : Reactor} {e : Event}

def story (h : Handle) : List Fact := r.log.filterMap (Effect.fact h)

def timerStory (h : Handle) : List TimerFact := r.log.filterMap (Effect.timerFact h)

def view (h : Handle) : View := ⟨r.pending h, decide (h.key ∈ (r.engines h.engine).connections), r.story h⟩

def timerView (h : Handle) : TimerView := ⟨decide (h.key ∈ (r.engines h.engine).timers), r.timerStory h⟩

variable {r}

theorem story_tell (effect : Effect) (h : Handle) :
    (r.tell effect).story h = r.story h ++ (effect.fact h).toList := by
  simp only [story, tell, filterMap_append]
  cases hfact : effect.fact h <;> simp [hfact]

theorem timerStory_tell (effect : Effect) (h : Handle) :
    (r.tell effect).timerStory h = r.timerStory h ++ (effect.timerFact h).toList := by
  simp only [timerStory, tell, filterMap_append]
  cases hfact : effect.timerFact h <;> simp [hfact]

/-- Nothing that concerns connections or timers has changed. -/
structure Aside (r r' : Reactor) : Prop where
  nextId : ∀ engine, (r'.engines engine).nextId = (r.engines engine).nextId
  view : ∀ h, r'.view h = r.view h
  timerView : ∀ h, r'.timerView h = r.timerView h

theorem Aside.refl (r : Reactor) : r.Aside r := ⟨fun _ => rfl, fun _ => rfl, fun _ => rfl⟩

theorem Aside.trans {r'' : Reactor} (h : r.Aside r') (h' : r'.Aside r'') : r.Aside r'' where
  nextId engine := (h'.nextId engine).trans (h.nextId engine)
  view k := (h'.view k).trans (h.view k)
  timerView k := (h'.timerView k).trans (h.timerView k)

theorem Aside.tables (hpending : r'.pending = r.pending) (hlog : r'.log = r.log)
    (hnextId : ∀ n, (r'.engines n).nextId = (r.engines n).nextId)
    (hconnections : ∀ n, (r'.engines n).connections = (r.engines n).connections)
    (htimers : ∀ n, (r'.engines n).timers = (r.engines n).timers) : r.Aside r' where
  nextId := hnextId
  view _ := by simp only [Reactor.view, story, hconnections, hpending, hlog]
  timerView _ := by simp only [Reactor.timerView, timerStory, htimers, hlog]

/-- The counters, the endpoints, the listeners and the coroutines that run are aside. -/
theorem Aside.same (h : (r'.engines, r'.pending, r'.log) = (r.engines, r.pending, r.log)) : r.Aside r' := by
  obtain ⟨hengines, hpending, hlog⟩ := by simpa using h
  exact .tables hpending hlog (by simp [hengines]) (by simp [hengines]) (by simp [hengines])

/-- So is what other callbacks are told. -/
theorem Aside.tell {effect : Effect} (h : r.Aside r') (hfact : ∀ k, effect.fact k = none)
    (htimer : ∀ k, effect.timerFact k = none) : r.Aside (r'.tell effect) where
  nextId engine := h.nextId engine
  view k := by
    have hstory := story_tell (r := r') effect k
    rw [hfact, toList_none, append_nil] at hstory
    rw [← h.view k]
    simp only [Reactor.view, hstory]
    rfl
  timerView k := by
    have hstory := timerStory_tell (r := r') effect k
    rw [htimer, toList_none, append_nil] at hstory
    rw [← h.timerView k]
    simp only [Reactor.timerView, hstory]
    rfl

theorem Aside.completeListener (h : r.Aside r') (listener : ℕ) : r.Aside (r'.completeListener listener) := by
  unfold Reactor.completeListener
  dsimp only
  split
  · have hset : r.Aside (r'.setListener listener { r'.listeners listener with shutdown := false }) :=
      h.trans (.same rfl)
    refine .trans (hset.tell ?_ ?_) (.same rfl)
    · exact fun _ => rfl
    · exact fun _ => rfl
  · exact h

theorem acceptEnds_aside (listener socket : ℕ) (status : Status) :
    r.Aside (r.acceptEnds listener socket status) := by
  refine .completeListener ?_ listener
  exact .same rfl

theorem Aside.serve (h : r.Aside r') (sockets : List ℕ) (listener : ℕ) :
    r.Aside (sockets.foldl (fun r socket => r.serve listener socket) r') := by
  induction sockets generalizing r' with
  | nil => exact h
  | cons socket sockets ih =>
    refine ih (h.trans ?_)
    exact .same rfl

end Reactor

/-- The events that do not concern connections and timers. -/
def Event.aside : Event → Bool
  | .runAfter _ | .fire _ | .cancel _ | .connect _ _ | .start _ | .complete _ _ | .timeout _ | .resume _ _
  | .cancelConnect _ => false
  | _ => true

namespace Reactor

variable {r r' : Reactor} {e : Event}

/-- A turn of the loop is its last one, or somebody is accepted. -/
theorem accept_eq {l s : ℕ} {incoming : Incoming} (hstep : r.accept l s incoming = some r') :
    .accept l s ∈ r.io ∧
      ((∃ status, r' = r.acceptEnds l s status) ∨ r' = r.attach.tell (.accepted l r.madeEndpoints)) := by
  obtain ⟨hmem, hstep⟩ := ite_none_right_eq_some.1 hstep
  refine ⟨hmem, ?_⟩
  split at hstep
  · cases hstep
    exact .inl ⟨_, rfl⟩
  split at hstep
  · cases hstep
    exact .inr rfl
  cases hstep
  exact .inl ⟨_, rfl⟩

theorem step_aside (he : e.aside = true) (hstep : r.step e = some r') : r.Aside r' := by
  cases e with
  | runAfter | fire | cancel | connect | start | complete | timeout | resume | cancelConnect => cases he
  | run | createListener | getDnsResolver =>
    cases hstep
    exact .same rfl
  | taskDone | read | write | destroyEndpoint | bind | destroyResolver | lookupHostname =>
    obtain ⟨-, ⟨⟩⟩ := ite_none_right_eq_some.1 hstep
    exact .same rfl
  | readEnds | writeEnds | lookupEnds =>
    obtain ⟨-, ⟨⟩⟩ := ite_none_right_eq_some.1 hstep
    exact .tell (.same rfl) (fun _ => rfl) fun _ => rfl
  | startListener listener =>
    obtain ⟨-, ⟨⟩⟩ := ite_none_right_eq_some.1 hstep
    refine .serve ?_ _ listener
    exact .same rfl
  | destroyListener listener =>
    obtain ⟨-, ⟨⟩⟩ := ite_none_right_eq_some.1 hstep
    refine .completeListener ?_ listener
    exact .same rfl
  | accept listener socket incoming =>
    obtain ⟨-, ⟨status, rfl⟩ | rfl⟩ := accept_eq hstep
    · exact acceptEnds_aside listener socket status
    · exact .tell (.same rfl) (fun _ => rfl) fun _ => rfl
  | closeGrpcEngine engine =>
    obtain ⟨-, ⟨⟩⟩ := ite_none_left_eq_some.1 hstep
    refine .tables rfl rfl ?_ ?_ ?_ <;>
    · intro n
      by_cases hn : n = engine
      · subst hn
        simp [setEngine]
      · simp [setEngine, hn]
  | drainLocalGrpc =>
    obtain ⟨-, ⟨⟩⟩ := ite_none_left_eq_some.1 hstep
    exact .same rfl

/-! ### The events that concern a handle -/

/-- Keys that were not given out yet belong to nothing. -/
def Issued (r : Reactor) : Prop :=
  ∀ h, (r.engines h.engine).nextId < h.key → r.view h = .blank ∧ r.timerView h = .blank

/-- What an event does to every handle: nothing, or a step of its connection or its timer. -/
structure Moves (r r' : Reactor) : Prop where
  nextId : ∀ engine, (r.engines engine).nextId ≤ (r'.engines engine).nextId
  view : ∀ h, r'.view h = r.view h ∨
    h.key ≤ (r'.engines h.engine).nextId ∧ (r.view h).Moves (r'.view h)
  timerView : ∀ h, r'.timerView h = r.timerView h ∨
    h.key ≤ (r'.engines h.engine).nextId ∧ (r.timerView h).Moves (r'.timerView h)

theorem Aside.moves (h : r.Aside r') : r.Moves r' where
  nextId engine := Nat.le_of_eq (h.nextId engine).symm
  view k := .inl (h.view k)
  timerView k := .inl (h.timerView k)

variable {h k : Handle} {p : PendingConnection}

theorem Issued.key_le (hr : r.Issued) (hp : r.pending h = some p) : h.key ≤ (r.engines h.engine).nextId := by
  by_contra hlt
  have hblank := congrArg View.pending (hr h (Nat.lt_of_not_le hlt)).1
  simp [view, hp, View.blank] at hblank

theorem Issued.timer_le (hr : r.Issued) (hlisted : h.key ∈ (r.engines h.engine).timers) :
    h.key ≤ (r.engines h.engine).nextId := by
  by_contra hlt
  have hblank := congrArg TimerView.listed (hr h (Nat.lt_of_not_le hlt)).2
  simp [timerView, hlisted, TimerView.blank] at hblank

/-! The view of a handle after the parts of which the events are made. -/

theorem pending_setPending_self (p : PendingConnection) : (r.setPending h p).pending h = some p := by
  simp [setPending]

theorem pending_setPending_ne (hk : k ≠ h) (p : PendingConnection) :
    (r.setPending h p).pending k = r.pending k := by
  simp [setPending, hk]

theorem view_setPending_self (p : PendingConnection) :
    (r.setPending h p).view h = ⟨some p, (r.view h).listed, (r.view h).story⟩ :=
  congrArg (View.mk · (r.view h).listed (r.view h).story) (pending_setPending_self p)

theorem view_setPending_ne (hk : k ≠ h) (p : PendingConnection) : (r.setPending h p).view k = r.view k :=
  congrArg (View.mk · (r.view k).listed (r.view k).story) (pending_setPending_ne hk p)

theorem timerView_setPending (p : PendingConnection) : (r.setPending h p).timerView k = r.timerView k := rfl

theorem view_tell (effect : Effect) :
    (r.tell effect).view k =
      ⟨(r.view k).pending, (r.view k).listed, (r.view k).story ++ (effect.fact k).toList⟩ := by
  rw [view, story_tell]
  rfl

theorem timerView_tell (effect : Effect) : (r.tell effect).timerView k =
    ⟨(r.timerView k).listed, (r.timerView k).story ++ (effect.timerFact k).toList⟩ := by
  rw [timerView, timerStory_tell]
  rfl

theorem view_setEngine {engine : ℕ} {e : Engine}
    (h : k.engine = engine → (k.key ∈ e.connections ↔ k.key ∈ (r.engines engine).connections)) :
    (r.setEngine engine e).view k = r.view k := by
  by_cases hk : k.engine = engine
  · subst hk
    simp [view, setEngine, story, h rfl]
  · simp [view, setEngine, story, hk]

theorem timerView_setEngine {engine : ℕ} {e : Engine}
    (h : k.engine = engine → (k.key ∈ e.timers ↔ k.key ∈ (r.engines engine).timers)) :
    (r.setEngine engine e).timerView k = r.timerView k := by
  by_cases hk : k.engine = engine
  · subst hk
    simp [timerView, setEngine, timerStory, h rfl]
  · simp [timerView, setEngine, timerStory, hk]

theorem nextId_setEngine {engine : ℕ} {e : Engine} (h : e.nextId = (r.engines engine).nextId) (n : ℕ) :
    ((r.setEngine engine e).engines n).nextId = (r.engines n).nextId := by
  by_cases hn : n = engine
  · subst hn
    simp [setEngine, h]
  · simp [setEngine, hn]

/-- The entry of a connection is taken from the table. -/
def unlist (r : Reactor) (h : Handle) : Reactor :=
  r.setEngine h.engine { r.engines h.engine with
    connections := (r.engines h.engine).connections.filter (· ≠ h.key) }

theorem view_unlist_self : (r.unlist h).view h = ⟨(r.view h).pending, false, (r.view h).story⟩ := by
  simp [view, unlist, setEngine, story]

theorem view_unlist_ne (hk : k ≠ h) : (r.unlist h).view k = r.view k := by
  refine view_setEngine fun hengine => ?_
  have hkey : k.key ≠ h.key := fun hkey => hk (by cases k; cases h; simp_all)
  simp [hkey]

theorem nextId_unlist (n : ℕ) : ((r.unlist h).engines n).nextId = (r.engines n).nextId := by
  refine nextId_setEngine ?_ n
  rfl

theorem timerView_unlist : (r.unlist h).timerView k = r.timerView k := timerView_setEngine fun _ => .rfl

theorem Moves.connection (hkey : h.key ≤ (r.engines h.engine).nextId)
    (hnextId : ∀ n, (r'.engines n).nextId = (r.engines n).nextId) (hothers : ∀ k, k ≠ h → r'.view k = r.view k)
    (htimers : ∀ k, r'.timerView k = r.timerView k) (hmoves : (r.view h).Moves (r'.view h)) : r.Moves r' where
  nextId n := Nat.le_of_eq (hnextId n).symm
  view k := by
    by_cases hk : k = h
    · subst hk
      exact .inr ⟨by rwa [hnextId], hmoves⟩
    · exact .inl (hothers k hk)
  timerView k := .inl (htimers k)

theorem start_eq (hstep : r.start h = some r') :
    ∃ p, r.pending h = some p ∧ p.stage = .scheduled ∧ r' = r.setPending h { p with stage := .connecting } := by
  unfold start at hstep
  split at hstep
  · cases hstep
  rename_i p hp
  obtain ⟨hstage, ⟨⟩⟩ := ite_none_right_eq_some.1 hstep
  exact ⟨p, hp, hstage, rfl⟩

theorem complete_eq {ok : Bool} (hstep : r.complete h ok = some r') :
    ∃ p, r.pending h = some p ∧ p.stage = .connecting ∧
      r' = r.setPending h { p with stage := .ready (if ok then .ok else .unavailable) } := by
  unfold complete at hstep
  split at hstep
  · cases hstep
  rename_i p hp
  obtain ⟨hstage, ⟨⟩⟩ := ite_none_right_eq_some.1 hstep
  exact ⟨p, hp, hstage, rfl⟩

theorem timeout_eq (hstep : r.timeout h = some r') :
    ∃ p, r.pending h = some p ∧ p.timeout = true ∧
      r' = (r.setPending h { p with timeout := false, expired := true }).tell (.timedOut h) := by
  unfold timeout at hstep
  split at hstep
  · cases hstep
  rename_i p hp
  obtain ⟨harmed, ⟨⟩⟩ := ite_none_right_eq_some.1 hstep
  exact ⟨p, hp, harmed, rfl⟩

theorem cancelConnect_eq (hstep : r.cancelConnect h = some r') :
    (∃ p, r.pending h = some p ∧ h.key ∈ (r.engines h.engine).connections ∧
      r' = ((r.unlist h).setPending h { p with cancelled := true, callback := false, timeout := false }).tell
        (.cancelConnect h true)) ∨
      r' = r.tell (.cancelConnect h false) := by
  unfold cancelConnect at hstep
  dsimp only at hstep
  split at hstep
  · rename_i hlisted
    split at hstep
    · cases hstep
    rename_i p hp
    cases hstep
    exact .inl ⟨p, hp, hlisted, rfl⟩
  · cases hstep
    exact .inr rfl

theorem start_moves (hr : r.Issued) (hstep : r.start h = some r') : r.Moves r' := by
  obtain ⟨p, hp, hstage, rfl⟩ := start_eq hstep
  refine .connection (hr.key_le hp) (fun _ => rfl) (fun k hk => view_setPending_ne hk _) (fun _ => rfl) ?_
  rw [view_setPending_self, view, hp]
  exact .starts hstage

theorem complete_moves (hr : r.Issued) {ok : Bool} (hstep : r.complete h ok = some r') : r.Moves r' := by
  obtain ⟨p, hp, hstage, rfl⟩ := complete_eq hstep
  refine .connection (hr.key_le hp) (fun _ => rfl) (fun k hk => view_setPending_ne hk _) (fun _ => rfl) ?_
  rw [view_setPending_self, view, hp]
  exact .completes hstage ok

theorem timeout_moves (hr : r.Issued) (hstep : r.timeout h = some r') : r.Moves r' := by
  obtain ⟨p, hp, harmed, rfl⟩ := timeout_eq hstep
  refine .connection (hr.key_le hp) (fun _ => rfl) (fun k hk => ?_) (fun k => ?_) ?_
  · rw [view_tell, view_setPending_ne hk]
    simp [Effect.fact, Ne.symm hk]
  · rw [timerView_tell, timerView_setPending]
    simp [Effect.timerFact]
  · rw [view_tell, view_setPending_self, view, hp]
    simpa [Effect.fact] using View.Moves.timesOut harmed

theorem cancelConnect_moves (hr : r.Issued) (hstep : r.cancelConnect h = some r') : r.Moves r' := by
  rcases cancelConnect_eq hstep with ⟨p, hp, hlisted, rfl⟩ | rfl
  · refine .connection (hr.key_le hp) nextId_unlist (fun k hk => ?_) (fun k => ?_) ?_
    · rw [view_tell, view_setPending_ne hk, view_unlist_ne hk]
      simp [Effect.fact, Ne.symm hk]
    · rw [timerView_tell, timerView_setPending, timerView_unlist]
      simp [Effect.timerFact]
    · have hview : r.view h = ⟨some p, true, r.story h⟩ := by simp [view, hp, hlisted]
      rw [view_tell, view_setPending_self, view_unlist_self, hview]
      simpa [Effect.fact] using View.Moves.cancels
  · exact (Aside.tell (.refl r) (fun _ => rfl) fun _ => rfl).moves

/-- What the coroutine does first when it is resumed, and the object it leaves. -/
def ended (r : Reactor) (h : Handle) (p : PendingConnection) : Reactor :=
  ((r.finish (.connect h)).unlist h).setPending h p

theorem view_ended (p : PendingConnection) : (r.ended h p).view h = ⟨some p, false, r.story h⟩ := by
  rw [ended, view_setPending_self, view_unlist_self]
  rfl

theorem view_ended_ne (hk : k ≠ h) (p : PendingConnection) : (r.ended h p).view k = r.view k := by
  rw [ended, view_setPending_ne hk, view_unlist_ne hk]
  rfl

theorem timerView_ended (p : PendingConnection) : (r.ended h p).timerView k = r.timerView k := by
  rw [ended, timerView_setPending, timerView_unlist]
  rfl

theorem nextId_ended (p : PendingConnection) (n : ℕ) :
    ((r.ended h p).engines n).nextId = (r.engines n).nextId :=
  nextId_unlist n

/-- The object when the coroutine has taken the callback. -/
def spent (p : PendingConnection) : PendingConnection :=
  { p with timeout := false, stage := .finished, callback := false }

theorem ended_moves (hr : r.Issued) (hp : r.pending h = some p) {status : Status}
    (hstage : p.stage = .ready status) (hcancelled : p.cancelled = false) (endpoint : ℕ)
    (haside : (r.ended h (spent p)).Aside r') :
    r.Moves (r'.tell (.connected h (View.outcome p.expired status endpoint))) := by
  refine .connection (hr.key_le hp) (fun n => ?_) (fun k hk => ?_) (fun k => ?_) ?_
  · exact (haside.nextId n).trans (nextId_ended _ n)
  · rw [view_tell, haside.view, view_ended_ne hk]
    simp [Effect.fact, Ne.symm hk]
  · rw [timerView_tell, haside.timerView, timerView_ended]
    simp [Effect.timerFact]
  · have hview : r.view h = ⟨some p, (r.view h).listed, r.story h⟩ := by rw [view, hp]
    rw [view_tell, haside.view, view_ended, hview]
    simpa [Effect.fact, spent] using View.Moves.ends endpoint hstage hcancelled

/-- What the coroutine does when it is resumed. -/
inductive Resumes (r : Reactor) (h : Handle) (p : PendingConnection) (status : Status) : Bool → Reactor → Prop
  | cancelled (attached : Bool) (hcancelled : p.cancelled = true) :
      Resumes r h p status attached (r.ended h { p with timeout := false, stage := .finished })
  | fails (attached : Bool) (hcancelled : p.cancelled = false) {error : Status}
      (houtcome : ∀ endpoint, View.outcome p.expired status endpoint = .error error) :
      Resumes r h p status attached ((r.ended h (spent p)).tell (.connected h (.error error)))
  | attaches (hcancelled : p.cancelled = false)
      (houtcome : ∀ endpoint, View.outcome p.expired status endpoint = .ok endpoint) :
      Resumes r h p status true ((r.ended h (spent p)).attach.tell (.connected h (.ok r.madeEndpoints)))
  | throws (hcancelled : p.cancelled = false) : Resumes r h p status false (r.ended h (spent p))

theorem resume_resumes {attached : Bool} (hstep : r.resume h attached = some r') :
    ∃ p status, r.pending h = some p ∧ p.stage = .ready status ∧ r.Resumes h p status attached r' := by
  unfold resume at hstep
  split at hstep
  · cases hstep
  rename_i p hp
  split at hstep
  · rename_i status hstage
    refine ⟨p, status, hp, hstage, ?_⟩
    dsimp only at hstep
    split at hstep
    · rename_i hcancelled
      cases hstep
      exact .cancelled attached hcancelled
    rename_i hcancelled
    have hcancelled : p.cancelled = false := by simpa using hcancelled
    split at hstep
    · cases hstep
    split at hstep
    · rename_i hexpired
      cases hstep
      exact .fails attached hcancelled fun _ => if_pos hexpired
    rename_i hexpired
    split at hstep
    · rename_i hstatus
      cases hstep
      exact .fails attached hcancelled fun _ => (if_neg hexpired).trans (if_pos hstatus)
    rename_i hstatus
    cases attached with
    | true =>
      cases hstep
      exact .attaches hcancelled fun _ => (if_neg hexpired).trans (if_neg hstatus)
    | false =>
      cases hstep
      exact .throws hcancelled
  · cases hstep

/-- The callback is told what came of it, unless the connection was cancelled. -/
theorem resume_moves (hr : r.Issued) (hstep : r.resume h true = some r') : r.Moves r' := by
  obtain ⟨p, status, hp, hstage, hresumes⟩ := resume_resumes hstep
  cases hresumes with
  | cancelled _ hcancelled =>
    refine .connection (hr.key_le hp) (nextId_ended _) (fun k hk => view_ended_ne hk _)
      (fun k => timerView_ended _) ?_
    rw [view_ended, view, hp]
    exact .endsCancelled hstage hcancelled
  | fails _ hcancelled houtcome =>
    have hmoves := ended_moves hr hp hstage hcancelled 0 (.refl _)
    rwa [houtcome] at hmoves
  | attaches hcancelled houtcome =>
    have hattach : (r.ended h (spent p)).Aside (r.ended h (spent p)).attach := .same rfl
    have hmoves := ended_moves hr hp hstage hcancelled r.madeEndpoints hattach
    rwa [houtcome] at hmoves

/-- `Connect` gives out the next key. Without a descriptor nobody will ever ask for it. -/
theorem connect_moves (hr : r.Issued) (engine : ℕ) (fd : Bool) : r.Moves (r.connect engine fd) := by
  let h : Handle := ⟨engine, (r.engines engine).nextId + 1⟩
  obtain ⟨hview, htimer⟩ := hr h (Nat.lt_succ_self _)
  have hnextId : ∀ n, (r.engines n).nextId ≤ ((r.connect engine fd).engines n).nextId := by
    intro n
    by_cases hn : n = engine
    · subst hn
      cases fd <;> simp [connect, setEngine, begin, setPending, run]
    · cases fd <;> simp [connect, setEngine, begin, setPending, run, hn]
  have htimers : ∀ k, (r.connect engine fd).timerView k = r.timerView k := by
    intro k
    by_cases hk : k.engine = engine
    · subst hk
      cases fd <;> simp [connect, setEngine, begin, setPending, run, timerView, timerStory]
    · cases fd <;> simp [connect, setEngine, begin, setPending, run, timerView, timerStory, hk]
  cases fd with
  | false =>
    refine ⟨hnextId, fun k => .inl ?_, fun k => .inl (htimers k)⟩
    by_cases hk : k.engine = engine
    · subst hk
      simp [connect, setEngine, view, story]
    · simp [connect, setEngine, view, story, hk]
  | true =>
    refine ⟨hnextId, fun k => ?_, fun k => .inl (htimers k)⟩
    by_cases hk : k = h
    · subst hk
      refine .inr ⟨by simp [connect, setEngine, begin, setPending, run, h], ?_⟩
      rw [hview]
      have hstory : r.story h = [] := congrArg View.story hview
      have hnew : (r.connect engine true).view h = ⟨some {}, true, r.story h⟩ := by
        simp [connect, setEngine, begin, setPending, run, view, story, h]
      rw [hnew, hstory]
      exact .connects
    · left
      by_cases hengine : k.engine = engine
      · subst hengine
        have hkey : k.key ≠ (r.engines k.engine).nextId + 1 := fun hkey => hk (by cases k; simp_all [h])
        simp [connect, setEngine, begin, setPending, run, view, story, hkey, hk, h]
      · simp [connect, setEngine, begin, setPending, run, view, story, hengine, hk, h]

theorem runAfter_moves (hr : r.Issued) (engine : ℕ) : r.Moves (r.runAfter engine) := by
  let h : Handle := ⟨engine, (r.engines engine).nextId + 1⟩
  obtain ⟨-, htimer⟩ := hr h (Nat.lt_succ_self _)
  refine ⟨fun n => ?_, fun k => .inl ?_, fun k => ?_⟩
  · by_cases hn : n = engine
    · subst hn
      simp [runAfter, setEngine]
    · simp [runAfter, setEngine, hn]
  · exact view_setEngine (r := r) fun _ => by simp
  · by_cases hk : k = h
    · subst hk
      have hstory : r.timerStory h = [] := congrArg TimerView.story htimer
      have hnew : (r.runAfter engine).timerView h = ⟨true, r.timerStory h⟩ := by
        simp [runAfter, setEngine, timerView, timerStory, h]
      refine .inr ⟨by simp [runAfter, setEngine, h], ?_⟩
      rw [htimer, hnew, hstory]
      exact .arms
    · refine .inl (timerView_setEngine fun hengine => ?_)
      subst hengine
      have hkey : k.key ≠ (r.engines k.engine).nextId + 1 := fun hkey => hk (by cases k; simp_all [h])
      simp [hkey]

/-- A timer is taken from the table. -/
def disarm (r : Reactor) (h : Handle) : Reactor :=
  r.setEngine h.engine { r.engines h.engine with timers := (r.engines h.engine).timers.filter (· ≠ h.key) }

theorem disarm_moves (hr : r.Issued) (hlisted : h.key ∈ (r.engines h.engine).timers) {effect : Effect}
    (hfact : ∀ k, effect.fact k = none) (hother : ∀ k, k ≠ h → effect.timerFact k = none)
    (hself : effect.timerFact h = some .fired ∨ effect.timerFact h = some .cancelled) :
    r.Moves ((r.disarm h).tell effect) where
  nextId n := by
    refine Nat.le_of_eq (nextId_setEngine ?_ n).symm
    rfl
  view k := by
    have hsame : (r.disarm h).view k = r.view k := by
      refine view_setEngine fun _ => ?_
      rfl
    left
    rw [view_tell, hfact, toList_none, append_nil, hsame]
  timerView k := by
    by_cases hk : k = h
    · subst hk
      refine .inr ⟨?_, ?_⟩
      · have hnextId : (((r.disarm k).tell effect).engines k.engine).nextId = (r.engines k.engine).nextId := by
          refine nextId_setEngine ?_ k.engine
          rfl
        rw [hnextId]
        exact hr.timer_le hlisted
      · have hbefore : r.timerView k = ⟨true, r.timerStory k⟩ := by simp [timerView, hlisted]
        have hafter : (r.disarm k).timerView k = ⟨false, r.timerStory k⟩ := by
          simp [timerView, disarm, setEngine, timerStory]
        rw [timerView_tell, hafter, hbefore]
        rcases hself with hself | hself
        · rw [hself]
          exact .fires
        rw [hself]
        exact .cancels
    · left
      rw [timerView_tell, hother k hk, toList_none, append_nil]
      refine timerView_setEngine fun hengine => ?_
      have hkey : k.key ≠ h.key := fun hkey => hk (by cases k; cases h; simp_all)
      simp [hkey]

theorem fire_moves (hr : r.Issued) (hstep : r.fire h = some r') : r.Moves r' := by
  obtain ⟨hlisted, ⟨⟩⟩ := ite_none_right_eq_some.1 hstep
  exact disarm_moves hr hlisted (fun _ => rfl) (fun k hk => by simp [Effect.timerFact, Ne.symm hk])
    (.inl (by simp [Effect.timerFact]))

theorem cancel_eq (r : Reactor) (h : Handle) :
    h.key ∈ (r.engines h.engine).timers ∧ r.cancel h = (r.disarm h).tell (.cancel h true) ∨
      h.key ∉ (r.engines h.engine).timers ∧ r.cancel h = r.tell (.cancel h false) := by
  by_cases hlisted : h.key ∈ (r.engines h.engine).timers
  · exact .inl ⟨hlisted, if_pos hlisted⟩
  · exact .inr ⟨hlisted, if_neg hlisted⟩

theorem cancel_moves (hr : r.Issued) : r.Moves (r.cancel h) := by
  rcases cancel_eq r h with ⟨hlisted, hcancel⟩ | ⟨-, hcancel⟩
  · rw [hcancel]
    exact disarm_moves hr hlisted (fun _ => rfl) (fun k hk => by simp [Effect.timerFact, Ne.symm hk])
      (.inr (by simp [Effect.timerFact]))
  rw [hcancel]
  exact (Aside.tell (.refl r) (fun _ => rfl) fun _ => rfl).moves

/-! ### Runs -/

/-- The constructor of the endpoint of a `Connect` does not throw. -/
def Attaches : Event → Prop
  | .resume _ attached => attached = true
  | _ => True

theorem step_moves (hr : r.Issued) (he : Attaches e) (hstep : r.step e = some r') : r.Moves r' := by
  cases haside : e.aside with
  | true => exact (step_aside haside hstep).moves
  | false =>
    cases e with
    | runAfter engine =>
      cases hstep
      exact runAfter_moves hr engine
    | fire h => exact fire_moves hr hstep
    | cancel h =>
      cases hstep
      exact cancel_moves hr
    | connect engine fd =>
      cases hstep
      exact connect_moves hr engine fd
    | start h => exact start_moves hr hstep
    | complete h ok => exact complete_moves hr hstep
    | timeout h => exact timeout_moves hr hstep
    | resume h attached =>
      obtain rfl := he
      exact resume_moves hr hstep
    | cancelConnect h => exact cancelConnect_moves hr hstep
    | _ => cases haside

theorem Moves.issued (h : r.Moves r') (hr : r.Issued) : r'.Issued := by
  intro k hk
  obtain ⟨hview, htimer⟩ := hr k (Nat.lt_of_le_of_lt (h.nextId k.engine) hk)
  refine ⟨?_, ?_⟩
  · rcases h.view k with hsame | ⟨hle, -⟩
    · rw [hsame, hview]
    · omega
  · rcases h.timerView k with hsame | ⟨hle, -⟩
    · rw [hsame, htimer]
    · omega

/-- Everything that is known about a handle in a run. -/
structure Told (r : Reactor) : Prop where
  issued : r.Issued
  view : ∀ h, (r.view h).Consistent
  timerView : ∀ h, (r.timerView h).Consistent

theorem fresh_told : ({} : Reactor).Told where
  issued _ _ := ⟨rfl, rfl⟩
  view _ := View.blank_consistent
  timerView _ := TimerView.blank_consistent

theorem Told.step (h : r.Told) (he : Attaches e) (hstep : r.step e = some r') : r'.Told := by
  have hmoves := step_moves h.issued he hstep
  refine ⟨hmoves.issued h.issued, fun k => ?_, fun k => ?_⟩
  · rcases hmoves.view k with hsame | ⟨-, hmove⟩
    · rw [hsame]
      exact h.view k
    · exact hmove.consistent (h.view k)
  · rcases hmoves.timerView k with hsame | ⟨-, hmove⟩
    · rw [hsame]
      exact h.timerView k
    · exact hmove.consistent (h.timerView k)

end Reactor

end Imm.EventEngine
