import Imm.Reactor.Drain

/-! What callers of the event engine can rely on, in every run: a callback is told once or its cancellation
    was accepted, never both and never neither; and `drain_local_grpc` and `close_grpc_engine` return when
    there is nobody left to be told. -/

namespace Imm.EventEngine

open Steps List

def Fact.isConnected : Fact → Bool
  | .connected _ => true
  | _ => false

namespace View.Tells

variable {p : PendingConnection} {story : List Fact}

theorem cases (h : Tells p story) : ∃ early : List Fact, (early = [] ∨ early = [.timedOut]) ∧
    (story = early ++ [.cancelled] ∨ story = early ∧ (p.cancelled = false ∧ p.stage ≠ .finished) ∨
      p.stage = .finished ∧ ∃ result, story = early ++ [.connected result] ∧
        (result = .error .deadlineExceeded ↔ early = [.timedOut])) := by
  refine ⟨if p.expired then [.timedOut] else [], by split <;> simp, ?_⟩
  unfold Tells at h
  dsimp only at h
  split at h
  · exact .inl h
  rename_i hcancelled
  split at h
  · rename_i hstage
    obtain ⟨result, hstory, hresult⟩ := h
    exact .inr (.inr ⟨hstage, result, hstory, by rw [hresult]; split <;> simp_all⟩)
  rename_i hstage
  exact .inr (.inl ⟨h, by simpa using hcancelled, hstage⟩)

/-- The callback runs once, when the coroutine ends, unless `CancelConnect` returned true. -/
theorem count_connected (h : Tells p story) :
    story.countP Fact.isConnected = if p.stage = .finished ∧ .cancelled ∉ story then 1 else 0 := by
  obtain ⟨early, hearly, rfl | ⟨rfl, -, hstage⟩ | ⟨hstage, result, rfl, -⟩⟩ := h.cases
  · rcases hearly with rfl | rfl <;> simp [Fact.isConnected]
  · rcases hearly with rfl | rfl <;> simp [Fact.isConnected, hstage]
  · rcases hearly with rfl | rfl <;> simp [Fact.isConnected, hstage]

theorem count_cancelled (h : Tells p story) : story.count .cancelled ≤ 1 := by
  obtain ⟨early, hearly, rfl | ⟨rfl, -⟩ | ⟨-, result, rfl, -⟩⟩ := h.cases
  · rcases hearly with rfl | rfl <;> simp
  · rcases hearly with rfl | rfl <;> simp
  · rcases hearly with rfl | rfl <;> simp

/-- The callback is told of a deadline if the timeout fired before, and only then. -/
theorem deadline (h : Tells p story) {early late : List Fact} {result : Except Status ℕ}
    (hstory : story = early ++ .connected result :: late) :
    result = .error .deadlineExceeded ↔ .timedOut ∈ early := by
  have hmem : .connected result ∈ story := by simp [hstory]
  obtain ⟨early', hearly, rfl | ⟨rfl, -⟩ | ⟨-, result', rfl, hresult⟩⟩ := h.cases
  · rcases hearly with rfl | rfl <;> simp at hmem
  · rcases hearly with rfl | rfl <;> simp at hmem
  obtain rfl : result = result' := by rcases hearly with rfl | rfl <;> simpa using hmem
  have hsame : early' = early := by
    rcases hearly with rfl | rfl
    · rcases early with _ | ⟨f, early⟩
      · rfl
      · simp at hstory
    rcases early with _ | ⟨f, _ | ⟨g, early⟩⟩
    · simp at hstory
    · simp_all
    · simp at hstory
  rw [hresult, ← hsame]
  rcases hearly with rfl | rfl <;> simp

end View.Tells

namespace Reactor

variable {r r' : Reactor} {h : Handle} {p : PendingConnection}

theorem run_holds (hrun : Path step Sound {} r) : r.Told ∧ r.Counted := by
  refine hrun.invariant (P := fun r => r.Told ∧ r.Counted) ⟨fresh_told, fresh_counted⟩ ?_
  rintro r e r' - ⟨htold, hcounted⟩ he hstep
  exact ⟨htold.step he.attaches hstep, hcounted.step htold.issued he hstep⟩

theorem Told.goes_on (hr : r.Told) (hp : r.pending h = some p) (hstage : p.stage ≠ .finished) :
    ∃ e ∈ [Event.start h, .complete h true, .resume h true], (r.step e).isSome := by
  have hlisted := (hr.view h).listed p hp
  have hcallback := (hr.view h).callback p hp
  cases hs : p.stage with
  | scheduled => exact ⟨.start h, by simp, by simp [Reactor.step, Reactor.start, hp, hs]⟩
  | connecting => exact ⟨.complete h true, by simp, by simp [Reactor.step, Reactor.complete, hp, hs]⟩
  | ready status =>
    refine ⟨.resume h true, by simp, ?_⟩
    cases hcancelled : p.cancelled with
    | true => simp [Reactor.step, Reactor.resume, hp, hs, hcancelled]
    | false =>
      have hcallback := hcallback (hlisted.2 ⟨hcancelled, hstage⟩)
      simp only [Reactor.step, Reactor.resume, hp, hs, hcancelled, hcallback, Bool.not_true, Bool.false_eq_true,
        if_false, if_true]
      split
      · rfl
      · split <;> rfl
  | finished => exact absurd hs hstage

/-! ### Timers -/

theorem timerStory_grows (hr : r.Told) (hrun : Path step Sound r r') : r.timerStory h <+: r'.timerStory h := by
  refine (hrun.invariant (P := fun r' => r'.Told ∧ r.timerStory h <+: r'.timerStory h)
    ⟨hr, prefix_refl _⟩ ?_).2
  rintro r' e r'' - ⟨htold, hgrows⟩ he hstep
  refine ⟨htold.step he.attaches hstep, hgrows.trans ?_⟩
  rcases (step_moves htold.issued he.attaches hstep).timerView h with hsame | ⟨-, hmove⟩
  · have hsame : r''.timerStory h = r'.timerStory h := congrArg TimerView.story hsame
    exact hsame ▸ prefix_refl _
  · exact hmove.grows

/-- `Cancel` returns true where the timer could have fired. -/
theorem cancel_true_iff : (r.cancel h).log = r.log ++ [.cancel h true] ↔ (r.fire h).isSome := by
  unfold cancel fire
  by_cases hlisted : h.key ∈ (r.engines h.engine).timers
  · simp [hlisted, tell, setEngine]
  · simp [hlisted, tell]

theorem cancel_false (hfire : ¬ (r.fire h).isSome) : r.cancel h = r.tell (.cancel h false) := by
  unfold fire at hfire
  unfold cancel
  by_cases hlisted : h.key ∈ (r.engines h.engine).timers
  · simp [hlisted] at hfire
  · simp [hlisted]

theorem run_told (hr : r.Told) (hrun : Path step Sound r r') : r'.Told :=
  hrun.invariant hr fun _ _ _ _ h he => h.step he.attaches

theorem Told.never_fires (hr : r.Told) (hcancelled : .cancelled ∈ r.timerStory h)
    (hrun : Path Reactor.step Sound r r') : .fired ∉ r'.timerStory h := by
  have honce : (r'.timerStory h).length ≤ 1 := ((run_told hr hrun).timerView h).once
  have hmem : .cancelled ∈ r'.timerStory h := (timerStory_grows hr hrun).subset hcancelled
  intro hfired
  generalize r'.timerStory h = story at honce hmem hfired
  rcases story with _ | ⟨fact, _ | ⟨fact', rest⟩⟩
  · cases hmem
  · cases (mem_singleton.1 hmem).trans (mem_singleton.1 hfired).symm
  · simp at honce

/-! ### Runs -/

theorem Told.story_nil (hr : r.Told) (hp : r.pending h = none) : r.story h = [] :=
  congrArg View.story ((hr.view h).blank hp)

theorem Counted.mem_io (hr : r.Counted) {op : Operation} (ht : Tracked op) : op ∈ r.io ↔ r.Open op :=
  ⟨hr.opened op, hr.tracked op ht⟩

theorem Counted.drained (hr : r.Counted) (hstep : r.drainLocalGrpc = some r')
    (hreturned : r'.draining = .returned) : r'.io = [] := by
  obtain ⟨hwaiting, ⟨⟩⟩ := Option.ite_none_left_eq_some.1 hstep
  by_cases hdrained : r.Drained
  · exact eq_nil_of_length_eq_zero (hr.count.symm.trans hdrained.1)
  · simp [hdrained] at hreturned

/-- Wherever descriptors can be opened and endpoints be made: the callback of a `Connect` runs once, when its
    coroutine ends, unless `CancelConnect` returned true, which it does once at most; it is told of a deadline
    if the timeout fired before; the coroutine is never stuck. A timer fires once at most, and `Cancel`
    returns true if it keeps it from that. `active_io` counts what runs, cancelled or not, and so nothing does
    when `drain_local_grpc` returns. -/
theorem engine_completions (hrun : Path Reactor.step Sound {} r) :
    (∀ h, r.pending h = none → r.story h = []) ∧
    (∀ h p, r.pending h = some p →
      (r.story h).countP Fact.isConnected = (if p.stage = .finished ∧ .cancelled ∉ r.story h then 1 else 0) ∧
      (r.story h).count .cancelled ≤ 1 ∧
      (∀ early result late, r.story h = early ++ .connected result :: late →
        (result = .error .deadlineExceeded ↔ .timedOut ∈ early)) ∧
      (p.stage ≠ .finished → ∃ e ∈ [Event.start h, .complete h true, .resume h true], (r.step e).isSome)) ∧
    (∀ h, (r.timerStory h).count .fired ≤ 1 ∧
      ((r.cancel h).log = r.log ++ [.cancel h true] ↔
        (r.fire h).isSome ∧ ∀ r', Path Reactor.step Sound (r.cancel h) r' → .fired ∉ r'.timerStory h) ∧
      ((r.cancel h).log ≠ r.log ++ [.cancel h true] → r.cancel h = r.tell (.cancel h false))) ∧
    (r.observed.activeIo = r.io.length ∧ r.io.Nodup ∧
      (∀ h, .connect h ∈ r.io ↔ ∃ p, r.pending h = some p ∧ p.stage ≠ .finished) ∧
      (∀ n, .read n ∈ r.io ↔ (r.endpoints n).reading = true) ∧
      (∀ n, .write n ∈ r.io ↔ (r.endpoints n).writing = true) ∧
      (∀ l, (r.listeners l).active = r.io.countP (accepts l))) ∧
    (∀ r', r.drainLocalGrpc = some r' → r'.draining = .returned → r'.io = []) := by
  obtain ⟨htold, hcounted⟩ := run_holds hrun
  refine ⟨fun h => htold.story_nil, fun h p hp => ?_, fun h => ?_, ?_, fun r' => hcounted.drained⟩
  · have htells := (htold.view h).tells p hp
    exact ⟨htells.count_connected, htells.count_cancelled, fun _ _ _ => htells.deadline, htold.goes_on hp⟩
  · refine ⟨Nat.le_trans count_le_length (htold.timerView h).once, ?_, fun hfalse => ?_⟩
    · rw [cancel_true_iff]
      refine ⟨fun hfire => ⟨hfire, fun r' hrun' => ?_⟩, And.left⟩
      have hcancel : (r.cancel h).Told := htold.step (e := .cancel h) trivial rfl
      refine hcancel.never_fires ?_ hrun'
      have hlog := cancel_true_iff.2 hfire
      simp [timerStory, hlog, Effect.timerFact]
    · exact cancel_false fun hfire => hfalse (cancel_true_iff.2 hfire)
  · exact ⟨hcounted.count, hcounted.nodup, fun h => hcounted.mem_io trivial, fun n => hcounted.mem_io trivial,
      fun n => hcounted.mem_io trivial, hcounted.active⟩

/-- Three connections: the first is cancelled while its coroutine runs, the second times out, the third gets
    its endpoint and reads from it; of two timers one fires and one is cancelled. -/
def busy : List Event :=
  [.connect 0 true, .connect 0 true, .connect 0 true, .start ⟨0, 1⟩, .start ⟨0, 2⟩, .start ⟨0, 3⟩,
    .runAfter 0, .runAfter 0, .cancelConnect ⟨0, 1⟩, .cancelConnect ⟨0, 1⟩, .timeout ⟨0, 2⟩,
    .complete ⟨0, 2⟩ true, .resume ⟨0, 2⟩ true, .complete ⟨0, 3⟩ true, .resume ⟨0, 3⟩ true, .read 0,
    .fire ⟨0, 4⟩, .cancel ⟨0, 5⟩, .cancel ⟨0, 4⟩]

/-- The cancelled connection is still counted. -/
theorem engine_completions_busy : ∃ r, Path Reactor.step Sound {} r ∧
    r.story ⟨0, 1⟩ = [.cancelled] ∧ r.story ⟨0, 2⟩ = [.timedOut, .connected (.error .deadlineExceeded)] ∧
    r.story ⟨0, 3⟩ = [.connected (.ok 0)] ∧ r.timerStory ⟨0, 4⟩ = [.fired] ∧
    r.timerStory ⟨0, 5⟩ = [.cancelled] ∧ r.io = [.connect ⟨0, 1⟩, .read 0] ∧
    r.observed.activeIo = r.io.length := by
  obtain ⟨r, hr⟩ : ∃ r, busy.foldlM Reactor.step {} = some r := ⟨_, rfl⟩
  have hrun : Path Reactor.step Sound {} r := Path.here.run (by simp [busy, Sound]) hr
  have hcompletions := engine_completions hrun
  cases hr
  exact ⟨_, hrun, by decide, by decide, by decide, by decide, by decide, by decide, hcompletions.2.2.2.1.1⟩

/-- What may go wrong. The peer resets a connection before the coroutine is resumed, and the constructor of
    its endpoint throws: the coroutine has ended, and nobody was told. And a `Connect` that cannot open a
    descriptor has raised `active_io` already, so that `drain_local_grpc` waits for nothing. -/
theorem engine_completions_lost :
    (∃ r, [Event.connect 0 true, .start ⟨0, 1⟩, .complete ⟨0, 1⟩ true, .resume ⟨0, 1⟩ false].foldlM
        Reactor.step {} = some r ∧
      (r.pending ⟨0, 1⟩).map (·.stage) = some .finished ∧ r.story ⟨0, 1⟩ = []) ∧
    ∃ r, [Event.connect 0 false].foldlM Reactor.step {} = some r ∧ r.observed.activeIo = 1 ∧ r.io = [] ∧
      r.drainLocalGrpc.map (·.draining) = some .polling :=
  ⟨⟨_, rfl, by decide, by decide⟩, _, rfl, by decide, by decide, by decide⟩

/-! ### `close_grpc_engine` -/

/-- A connection without an entry in the table has nothing more to tell. -/
theorem moves_silent {v v' : View} (hmove : v.Moves v') (hv : v.Consistent) (hlisted : v.listed = false)
    (hp : v.pending.isSome) : v'.listed = false ∧ v'.pending.isSome ∧ v'.story = v.story := by
  cases hmove with
  | connects => cases hp
  | starts | completes => exact ⟨hlisted, rfl, rfl⟩
  | endsCancelled => exact ⟨rfl, rfl, rfl⟩
  | timesOut harmed => cases hlisted.symm.trans (hv.timeout _ rfl harmed).1
  | cancels => cases hlisted
  | ends _ hstage hopen => cases hlisted.symm.trans ((hv.listed _ rfl).2 ⟨hopen, by simp [hstage]⟩)

theorem Told.stays_silent (hr : r.Told) (hlisted : (r.view h).listed = false) (hp : (r.pending h).isSome)
    (hrun : Path Reactor.step Sound r r') : r'.story h = r.story h := by
  refine (hrun.invariant (P := fun r' => r'.Told ∧ (r'.view h).listed = false ∧
    (r'.view h).pending.isSome ∧ (r'.view h).story = r.story h) ⟨hr, hlisted, hp, rfl⟩ ?_).2.2.2
  rintro r' e r'' - ⟨htold, hlisted, hp, hstory⟩ he hstep
  refine ⟨htold.step he.attaches hstep, ?_⟩
  rcases (step_moves htold.issued he.attaches hstep).view h with hsame | ⟨-, hmove⟩
  · rw [hsame]
    exact ⟨hlisted, hp, hstory⟩
  obtain ⟨hlisted', hp', hsame⟩ := moves_silent hmove (htold.view h) hlisted hp
  exact ⟨hlisted', hp', hsame.trans hstory⟩

/-- When it returns, the callback of each connection of the engine has run or been cancelled, and does not run
    any more. A coroutine may still run: that is left to `drain_local_grpc`. -/
theorem closed_engine_silent (hrun : Path Reactor.step Sound {} r) {engine : ℕ}
    (hstep : r.closeGrpcEngine engine = some r') (hreturned : (r'.engines engine).closing = .returned)
    (hengine : h.engine = engine) (hp : r'.pending h = some p) :
    (r'.story h).countP Fact.isConnected + (r'.story h).count .cancelled = 1 ∧
      ∀ r'', Path Reactor.step Sound r' r'' → r''.story h = r'.story h := by
  have hr : r'.Told := (run_holds hrun).1.step (e := .closeGrpcEngine engine) trivial hstep
  have hempty : (r'.engines h.engine).connections = [] := by
    obtain ⟨-, ⟨⟩⟩ := Option.ite_none_left_eq_some.1 hstep
    by_contra hsome
    simp_all [setEngine, Engine.pendingCount]
  have hunlisted : (r'.view h).listed = false := by simp [Reactor.view, hempty]
  refine ⟨?_, fun r'' => hr.stays_silent hunlisted (by rw [hp]; rfl)⟩
  obtain ⟨early, hearly, hstory | ⟨-, hopen⟩ | ⟨-, result, hstory, -⟩⟩ := ((hr.view h).tells p hp).cases
  · change r'.story h = _ at hstory
    rcases hearly with rfl | rfl <;> simp [hstory, Fact.isConnected]
  · cases hunlisted.symm.trans (((hr.view h).listed p hp).2 hopen)
  change r'.story h = _ at hstory
  rcases hearly with rfl | rfl <;> simp [hstory, Fact.isConnected]

/-- Closed over a cancelled connection whose coroutine still runs, and goes on to its end. -/
theorem closed_engine_silent_cancelled : ∃ r r' r'', Path Reactor.step Sound {} r ∧
    r.closeGrpcEngine 0 = some r' ∧ r'.io = [.connect ⟨0, 1⟩] ∧
    [Event.complete ⟨0, 1⟩ true, .resume ⟨0, 1⟩ true].foldlM Reactor.step r' = some r'' ∧
    r''.story ⟨0, 1⟩ = r'.story ⟨0, 1⟩ := by
  obtain ⟨r, hr⟩ : ∃ r, [Event.connect 0 true, .start ⟨0, 1⟩, .cancelConnect ⟨0, 1⟩].foldlM
    Reactor.step {} = some r := ⟨_, rfl⟩
  have hrun : Path Reactor.step Sound {} r := Path.here.run (by simp [Sound]) hr
  cases hr
  refine ⟨_, _, _, hrun, rfl, by decide, rfl, (closed_engine_silent hrun rfl rfl rfl rfl).2 _ ?_⟩
  exact Path.here.run (by simp [Sound])
    (rfl : [Event.complete ⟨0, 1⟩ true, .resume ⟨0, 1⟩ true].foldlM Reactor.step _ = some _)

end Reactor

end Imm.EventEngine
