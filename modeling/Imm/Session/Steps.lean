import Imm.Session.Connections

/-! What a step can do, to a connection and to Redis: once for all that is proved of runs. -/

namespace Imm

open Remote Option

/-- The stages in which a connection neither waits for a bind nor goes on from one. -/
def Stage.Settled : Stage → Prop
  | .binding _ _ | .closingPrevious _ _ | .closedPrevious _ => False
  | _ => True

/-- The stages right after a bind. -/
def Stage.Past : Stage → Prop
  | .closingPrevious _ _ | .closedPrevious _ => True
  | _ => False

/-- `c'` has the place and the lease of `c`, and is closed if `c` is. -/
structure Connection.Keeps (c c' : Connection) : Prop where
  inst : c'.inst = c.inst
  shardId : c'.shardId = c.shardId
  uid : c'.uid = c.uid
  lease : c'.lease = c.lease
  closed : c.closed = true → c'.closed = true
  stage : c'.stage = c.stage ∨ c'.stage.Settled

/-- The steps of a connection: what it sends, and how it comes by its lease. -/
inductive Connection.Moves (id : String) (calls : List RedisCall) (c : Connection) :
    Connection → Option RedisCommand → Prop
  | idle {c' : Connection} (hkeeps : c.Keeps c') : Moves id calls c c' none
  | refreshes {c' : Connection} (hkeeps : c.Keeps c') (hheld : c.uid ≠ 0 ∨ c.stage.Past) :
      Moves id calls c c' (some (.refreshSession c.uid c.lease))
  | clears {c' : Connection} (hkeeps : c.Keeps c') (hheld : c.uid ≠ 0) :
      Moves id calls c c' (some (.clearSession c.uid c.lease))
  | binds {login : LoginRequest} (hstage : c.stage = .registering login) :
      Moves id calls c { c with stage := .binding login calls.length }
        (some (.bindSession login.uid (c.route id login.deviceId)))
  | bound {login : LoginRequest} {call generation now : ℕ} {previous : Option SessionLease}
      (hstage : c.stage = .binding login call)
      (hreply : replyTo calls call = some (.bound generation previous)) :
      Moves id calls c
        { c with
          uid := login.uid, lease := { c.route id login.deviceId with generation }, lastRefresh := now
          stage := .afterBind login previous } none

/-- The stages that ask `validate_token`, `prepare_profile` or `register_device`. -/
def Stage.Checking : Stage → Prop
  | .validating _ | .preparing _ | .registering _ => True
  | _ => False

/-- The stages in which the read loop may get an exception. -/
def Stage.Calling : Stage → Prop
  | .validating _ | .preparing _ | .registering _ | .binding _ _ | .refreshing _ _ => True
  | _ => False

/-- The stages after which the read loop looks whether the connection has been closed. -/
def Stage.Looking : Stage → Prop
  | .validating _ | .preparing _ | .registering _ | .closedPrevious _ | .refreshing _ _ => True
  | _ => False

/-- What goes on beside the read loop: refreshes for forwarded commands, and closing. -/
structure Connection.Tends (c c' : Connection) (command : Option RedisCommand) : Prop where
  keeps : c.Keeps c'
  stage : c'.stage = c.stage
  answers : c'.answers = c.answers
  sends : command = none ∨ command = some (.refreshSession c.uid c.lease) ∧ c.uid ≠ 0

/-- The arrows of `Connection.step`. -/
inductive Connection.Goes (id : String) (calls : List RedisCall) (c : Connection) :
    ConnectionEvent → Connection → Option RedisCommand → Prop
  | tends {e : ConnectionEvent} {c' : Connection} {command : Option RedisCommand} (h : c.Tends c' command) :
      Goes id calls c e c' command
  | refused {login : LoginRequest} {error : ErrorCodes} (hstage : c.stage = .reading) :
      Goes id calls c (.request login) (c.answer (.refused error)) none
  | asks {login : LoginRequest} (hstage : c.stage = .reading) (hvalid : login.validate = .Success) :
      Goes id calls c (.request login) { c with stage := .validating login } none
  | denied {error : ErrorCodes} (hstage : c.stage.Checking) :
      Goes id calls c (.checked false) (c.answer (.refused error)) none
  | closedMeanwhile {e : ConnectionEvent} (hstage : c.stage.Looking) :
      Goes id calls c e { c with stage := .reading } none
  | again {login : LoginRequest} (hstage : c.stage = .validating login) :
      Goes id calls c (.checked true) (c.answer (.loggedIn login.uid)) none
  | validated {login : LoginRequest} (hstage : c.stage = .validating login) (huid : c.uid = 0) :
      Goes id calls c (.checked true) { c with stage := .preparing login } none
  | prepared {login : LoginRequest} (hstage : c.stage = .preparing login) :
      Goes id calls c (.checked true) { c with stage := .registering login } none
  | registered {login : LoginRequest} (hstage : c.stage = .registering login) :
      Goes id calls c (.checked true) { c with stage := .binding login calls.length }
        (some (.bindSession login.uid (c.route id login.deviceId)))
  | bound {login : LoginRequest} {call generation now : ℕ} {previous : Option SessionLease}
      (hstage : c.stage = .binding login call)
      (hreply : replyTo calls call = some (.bound generation previous)) :
      Goes id calls c (.resume now)
        { c with
          uid := login.uid, lease := { c.route id login.deviceId with generation }, lastRefresh := now
          stage := .afterBind login previous } none
  | refreshes {login : LoginRequest} {now : ℕ} (hstage : c.stage = .closedPrevious login) :
      Goes id calls c (.resume now) { c with stage := .refreshing login calls.length }
        (some (.refreshSession c.uid c.lease))
  | lost {login : LoginRequest} {call now : ℕ} (hstage : c.stage = .refreshing login call) :
      Goes id calls c (.resume now) { c with closed := true, stage := .reading } none
  | logged {login : LoginRequest} {call now : ℕ} (hstage : c.stage = .refreshing login call) :
      Goes id calls c (.resume now) (c.answer (.loggedIn login.uid)) none
  | interrupted {overloaded : Bool} {error : ErrorCodes} (hstage : c.stage.Calling) :
      Goes id calls c (.fault overloaded) (c.answer (.refused error)) none
  | finishes (hstage : c.stage = .reading) :
      Goes id calls c .finish { c with closed := true, stage := .draining } none
  | clears (hstage : c.stage = .draining) (hheld : c.uid ≠ 0) :
      Goes id calls c .drain { c with stage := .clearing calls.length } (some (.clearSession c.uid c.lease))
  | ends {e : ConnectionEvent} (hstage : c.stage = .draining ∨ ∃ call, c.stage = .clearing call) :
      Goes id calls c e { c with stage := .ended } none

namespace Connection

section step

variable {id : String} {calls : List RedisCall} {c c' : Connection} {e : ConnectionEvent}
  {command : Option RedisCommand}

theorem checked_goes {ok : Bool} (h : c.step id calls (.checked ok) = some (c', command)) :
    c.Goes id calls (.checked ok) c' command := by
  simp only [step] at h
  cases ok with
  | false =>
    split at h
    case _ hstage | _ hstage | _ hstage =>
      cases h
      exact .denied (hstage ▸ trivial)
    · cases h
  | true =>
    simp only [Bool.not_true, Bool.false_eq_true, if_false] at h
    split at h
    · rename_i login hstage
      split at h
      · cases h
        exact .closedMeanwhile (hstage ▸ trivial)
      split at h
      · rename_i huid
        cases h
        exact .validated hstage huid
      cases h
      exact .again hstage
    · rename_i login hstage
      split at h
      · cases h
        exact .closedMeanwhile (hstage ▸ trivial)
      cases h
      exact .prepared hstage
    · rename_i login hstage
      split at h
      · cases h
        exact .closedMeanwhile (hstage ▸ trivial)
      cases h
      exact .registered hstage
    · cases h

theorem resume_goes {now : ℕ} (h : c.step id calls (.resume now) = some (c', command)) :
    c.Goes id calls (.resume now) c' command := by
  simp only [step] at h
  split at h
  · rename_i login call hstage
    split at h
    · rename_i generation previous hreply
      cases h
      exact .bound hstage hreply
    · cases h
  · rename_i login hstage
    split at h
    · cases h
      exact .closedMeanwhile (hstage ▸ trivial)
    cases h
    exact .refreshes hstage
  · rename_i login call hstage
    split at h
    · split at h
      · cases h
        exact .lost hstage
      split at h
      · cases h
        exact .closedMeanwhile (hstage ▸ trivial)
      cases h
      exact .logged hstage
    · cases h
  · rename_i call hstage
    split at h
    · cases h
      exact .ends (.inr ⟨call, hstage⟩)
    · cases h
  · cases h

theorem step_goes (h : c.step id calls e = some (c', command)) : c.Goes id calls e c' command := by
  cases e with
  | request login =>
    simp only [step] at h
    split at h
    · rename_i hstage
      split at h
      · cases h
        exact .refused hstage
      rename_i hvalid
      split at h
      · cases h
        exact .refused hstage
      cases h
      exact .asks hstage (not_not.1 hvalid)
    · cases h
  | checked ok => exact checked_goes h
  | resume now => exact resume_goes h
  | fault overloaded =>
    simp only [step] at h
    split at h
    case _ hstage | _ hstage | _ hstage | _ hstage | _ hstage =>
      cases h
      exact .interrupted (hstage ▸ trivial)
    · rename_i call hstage
      cases h
      exact .ends (.inr ⟨call, hstage⟩)
    · cases h
  | refresh now =>
    simp only [step] at h
    split at h
    · cases h
      exact .tends ⟨⟨rfl, rfl, rfl, rfl, fun h => h, .inl rfl⟩, rfl, rfl, .inl rfl⟩
    rename_i hneeded
    cases h
    exact .tends ⟨⟨rfl, rfl, rfl, rfl, fun h => h, .inl rfl⟩, rfl, rfl,
      .inr ⟨rfl, fun huid => hneeded (.inl huid)⟩⟩
  | refreshed call now =>
    simp only [step] at h
    split at h
    · split at h
      · split at h <;> cases h <;>
          exact .tends ⟨⟨rfl, rfl, rfl, rfl, fun h => by simp [h], .inl rfl⟩, rfl, rfl, .inl rfl⟩
      · cases h
    · cases h
  | unrefreshed call =>
    simp only [step] at h
    split at h <;> cases h
    exact .tends ⟨⟨rfl, rfl, rfl, rfl, fun h => h, .inl rfl⟩, rfl, rfl, .inl rfl⟩
  | close =>
    cases h
    exact .tends ⟨⟨rfl, rfl, rfl, rfl, fun _ => rfl, .inl rfl⟩, rfl, rfl, .inl rfl⟩
  | finish =>
    simp only [step] at h
    split at h
    · rename_i hstage
      cases h
      exact .finishes hstage
    · cases h
  | drain =>
    simp only [step] at h
    split at h
    · rename_i hstage
      split at h
      · cases h
      split at h
      · rename_i hbound
        cases h
        exact .clears hstage hbound.1.ne'
      cases h
      exact .ends (.inl hstage)
    · cases h

theorem step_moves (h : c.step id calls e = some (c', command)) : c.Moves id calls c' command := by
  cases step_goes h with
  | tends htends =>
    rcases htends.sends with rfl | ⟨rfl, huid⟩
    · exact .idle htends.keeps
    · exact .refreshes htends.keeps (.inl huid)
  | registered hstage => exact .binds hstage
  | bound hstage hreply => exact .bound hstage hreply
  | refreshes hstage =>
    exact .refreshes ⟨rfl, rfl, rfl, rfl, fun h => h, .inr trivial⟩ (.inr (hstage ▸ trivial))
  | clears _ hheld => exact .clears ⟨rfl, rfl, rfl, rfl, fun h => h, .inr trivial⟩ hheld
  | lost | finishes => exact .idle ⟨rfl, rfl, rfl, rfl, fun _ => rfl, .inr trivial⟩
  | _ => exact .idle ⟨rfl, rfl, rfl, rfl, fun h => h, .inr trivial⟩

theorem step_waiting (h : c.step id calls e = some (c', command)) :
    (∀ login previous, c.stage = .closingPrevious login previous → c'.stage = c.stage) ∧
    ∀ login n, c.stage = .binding login n → c'.stage = c.stage ∨ (∃ overloaded, e = .fault overloaded) ∨
      ∃ generation previous, replyTo calls n = some (.bound generation previous) ∧
        c'.stage = .afterBind login previous := by
  have hgoes := step_goes h
  refine ⟨fun login previous hwaits => ?_, fun login n hwaits => ?_⟩
  · cases hgoes with
    | tends htends => exact htends.stage
    | _ => simp_all [Stage.Checking, Stage.Looking, Stage.Calling]
  · cases hgoes with
    | tends htends => exact .inl htends.stage
    | interrupted => exact .inr (.inl ⟨_, rfl⟩)
    | bound hstage hreply =>
      cases hwaits.symm.trans hstage
      exact .inr (.inr ⟨_, _, hreply, rfl⟩)
    | _ => simp_all [Stage.Checking, Stage.Looking]

end step

end Connection

namespace Sessions

variable {shards : Instance → ℕ} {s s' : Sessions} {ev : SessionEvent} {id : String} {c' : Connection}

@[simp] theorem redis_sent (w : Caller) (command : Option RedisCommand) :
    (s.sent w command).redis = s.redis := by cases command <;> rfl

@[simp] theorem connections_sent (w : Caller) (command : Option RedisCommand) :
    (s.sent w command).connections = s.connections := by cases command <;> rfl

theorem calls_sent (w : Caller) (command : Option RedisCommand) :
    (s.sent w command).calls = s.calls ∨
      ∃ cmd, command = some cmd ∧ (s.sent w command).calls = send s.calls w cmd := by
  cases command with
  | none => exact .inl rfl
  | some command => exact .inr ⟨command, rfl, rfl⟩

theorem get_put (id' : String) (c : Connection) :
    (s.put id c).connections.get id' = if id' = id then some c else s.connections.get id' :=
  Table.get_set _ _ _ _

theorem closePrevious_rest (inst : Instance) (previous : SessionLease) :
    (s.closePrevious shards inst previous).redis = s.redis ∧
      (s.closePrevious shards inst previous).calls = s.calls := by
  unfold closePrevious closeConnection
  split
  · exact ⟨rfl, rfl⟩
  split
  · exact ⟨rfl, rfl⟩
  split
  · split <;> exact ⟨rfl, rfl⟩
  · exact ⟨rfl, rfl⟩

theorem closePrevious_connection {inst : Instance} {previous : SessionLease}
    (h : (s.closePrevious shards inst previous).connections.get id = some c') :
    ∃ c, s.connections.get id = some c ∧
      (c' = c ∨ c' = { c with closed := true } ∧ previous.connectionId = id) := by
  unfold closePrevious closeConnection at h
  split at h
  · exact ⟨c', h, .inl rfl⟩
  split at h
  · exact ⟨c', h, .inl rfl⟩
  split at h
  · rename_i c hc
    split at h
    · rw [get_put] at h
      split at h
      · rename_i hid
        exact ⟨c, hid ▸ hc, .inr ⟨(Option.some.inj h).symm, hid.symm⟩⟩
      · exact ⟨c', h, .inl rfl⟩
    · exact ⟨c', h, .inl rfl⟩
  · exact ⟨c', h, .inl rfl⟩

/-- Who sends what: connections as they move, and lookups. -/
inductive Sends (s : Sessions) : Caller → RedisCommand → Prop
  | connection {id : String} {c c' : Connection} {command : RedisCommand}
      (hc : s.connections.get id = some c) (hmoves : c.Moves id s.calls c' (some command)) :
      Sends s (.connection id) command
  | members {uid : ℤ} : Sends s .message (.members uid)
  | get {uid : ℤ} {deviceId : String} : Sends s .message (.get uid deviceId)
  | remove {uid : ℤ} {deviceId : String} : Sends s .message (.remove uid deviceId)

theorem sends_next {q q' : Lookup} {calls : List RedisCall} {todo : List String} {command : RedisCommand}
    (h : q.next calls todo = (q', some command)) : s.Sends .message command := by
  cases todo with
  | nil => simp [Lookup.next] at h
  | cons deviceId todo =>
    cases h
    exact .get

theorem sends_lookup {q q' : Lookup} {calls : List RedisCall} {command : RedisCommand}
    (h : q.step calls = some (q', some command)) : s.Sends .message command := by
  unfold Lookup.step at h
  split at h
  · split at h
    · exact sends_next (Option.some.inj h)
    · cases h
  · split at h
    · simp only at h
      split at h
      · cases h
        exact .remove
      · exact sends_next (Option.some.inj h)
    · cases h
  · split at h
    · exact sends_next (Option.some.inj h)
    · cases h
  · cases h
  · cases h

/-- What a step does to Redis: nothing, though a command may be sent; or time passes; or a command
    that was sent is carried out. -/
theorem step_redis (h : s.step shards ev = some s') :
    (s'.redis = s.redis ∧ (s'.calls = s.calls ∨
      ∃ w command, s'.calls = send s.calls w command ∧ s.Sends w command)) ∨
    (∃ ms, s' = { s with redis := s.redis.elapse ms }) ∨
    ∃ n w command, ev = .execute n ∧ s.calls[n]? = some ⟨w, command, none⟩ ∧ s' = { s with
        redis := (s.redis.execute command).2, calls := answer s.calls n (s.redis.execute command).1 } := by
  have sends : ∀ {t : Sessions} (w command), t.redis = s.redis → t.calls = s.calls →
      (∀ cmd, command = some cmd → s.Sends w cmd) →
      ((t.sent w command).redis = s.redis ∧ ((t.sent w command).calls = s.calls ∨
        ∃ w' cmd, (t.sent w command).calls = send s.calls w' cmd ∧ s.Sends w' cmd)) := by
    intro t w command hredis hcalls hsends
    rw [redis_sent, hredis, ← hcalls]
    rcases t.calls_sent w command with hsame | ⟨cmd, hcmd, hsend⟩
    · exact ⟨rfl, .inl hsame⟩
    · exact ⟨rfl, .inr ⟨w, cmd, hsend, hsends cmd hcmd⟩⟩
  cases ev with
  | accept id inst shardId =>
    simp only [step] at h
    split at h
    · cases h
      exact .inl ⟨rfl, .inl rfl⟩
    · cases h
  | connection id e =>
    obtain ⟨c, hc, h⟩ := bind_eq_some_iff.1 h
    obtain ⟨⟨c', command⟩, hstep, rfl⟩ := map_eq_some_iff.1 h
    refine .inl (sends _ _ rfl rfl ?_)
    rintro cmd rfl
    exact .connection hc (Connection.step_moves hstep)
  | closePrevious id =>
    obtain ⟨c, -, h⟩ := bind_eq_some_iff.1 h
    split at h
    · cases h
      exact .inl ⟨(closePrevious_rest _ _).1, .inl (closePrevious_rest _ _).2⟩
    · cases h
  | execute n =>
    obtain ⟨⟨w, command, reply⟩, hn, h⟩ := bind_eq_some_iff.1 h
    cases reply with
    | none =>
      cases h
      exact .inr (.inr ⟨n, w, command, rfl, hn, rfl⟩)
    | some reply => cases h
  | elapse ms =>
    cases h
    exact .inr (.inl ⟨ms, rfl⟩)
  | lookup uid =>
    cases h
    refine .inl (sends _ _ rfl rfl ?_)
    rintro cmd ⟨⟩
    exact .members
  | lookupResume i =>
    obtain ⟨q, -, h⟩ := bind_eq_some_iff.1 h
    obtain ⟨⟨q', command⟩, hstep, rfl⟩ := map_eq_some_iff.1 h
    refine .inl (sends _ _ rfl rfl ?_)
    rintro cmd rfl
    exact sends_lookup hstep
  | lookupFault i =>
    obtain ⟨q, -, h⟩ := bind_eq_some_iff.1 h
    split at h
    · cases h
    · cases h
    cases h
    exact .inl ⟨rfl, .inl rfl⟩

theorem step_execute {n : ℕ} {w : Caller} {command : RedisCommand}
    (hn : s.calls[n]? = some ⟨w, command, none⟩) (h : s.step shards (.execute n) = some s') :
    s' = { s with
      redis := (s.redis.execute command).2, calls := answer s.calls n (s.redis.execute command).1 } := by
  rw [step, hn] at h
  exact (Option.some.inj h).symm

/-- What a step does to a connection. -/
inductive Changes (s : Sessions) (ev : SessionEvent) (s' : Sessions) (id : String) (c : Connection) :
    Connection → Prop
  | same : Changes s ev s' id c c
  | moved {c' : Connection} {e : ConnectionEvent} {command : Option RedisCommand}
      (hev : ev = .connection id e) (hstep : c.step id s.calls e = some (c', command))
      (hcalls : s'.calls = (s.sent (.connection id) command).calls) : Changes s ev s' id c c'
  | closed {id₁ : String} {c₁ : Connection} {login : LoginRequest} {previous : SessionLease}
      (hev : ev = .closePrevious id₁) (hc₁ : s.connections.get id₁ = some c₁)
      (hstage : c₁.stage = .closingPrevious login previous) (hid : previous.connectionId = id) :
      Changes s ev s' id c { c with closed := true }
  | passed {login : LoginRequest} {previous : SessionLease} {closed : Bool} (hev : ev = .closePrevious id)
      (hstage : c.stage = .closingPrevious login previous) (hclosed : c.closed = true → closed = true)
      (hself : closed = c.closed ∨ previous.connectionId = id) :
      Changes s ev s' id c { c with stage := .closedPrevious login, closed }

theorem step_connection (h : s.step shards ev = some s') (hc' : s'.connections.get id = some c') :
    (s.connections.get id = none ∧ ∃ inst shardId, shardId < shards inst ∧ c' = { inst, shardId }) ∨
    ∃ c, s.connections.get id = some c ∧ s.Changes ev s' id c c' := by
  cases ev with
  | accept id₁ inst shardId =>
    simp only [step] at h
    split at h
    · rename_i hnew
      cases h
      rw [get_put] at hc'
      split at hc'
      · rename_i hid
        cases hc'
        exact .inl ⟨hid ▸ hnew.2.1, inst, shardId, hnew.2.2, rfl⟩
      · exact .inr ⟨c', hc', .same⟩
    · cases h
  | connection id₁ e =>
    obtain ⟨c, hc, h⟩ := bind_eq_some_iff.1 h
    obtain ⟨⟨c₁, command⟩, hstep, rfl⟩ := map_eq_some_iff.1 h
    rw [connections_sent, get_put] at hc'
    split at hc'
    · rename_i hid
      cases hc'
      subst hid
      exact .inr ⟨c, hc, .moved rfl hstep (by cases command <;> rfl)⟩
    · exact .inr ⟨c', hc', .same⟩
  | closePrevious id₁ =>
    obtain ⟨c, hc, h⟩ := bind_eq_some_iff.1 h
    split at h
    · rename_i login previous hstage
      cases h
      obtain ⟨c₁, hc₁, hor⟩ := closePrevious_connection hc'
      rw [get_put] at hc₁
      split at hc₁
      · rename_i hid
        cases hc₁
        subst hid
        refine .inr ⟨c, hc, ?_⟩
        rcases hor with rfl | ⟨rfl, hself⟩
        · exact .passed rfl hstage (fun h => h) (.inl rfl)
        · exact .passed rfl hstage (fun _ => rfl) (.inr hself)
      · refine .inr ⟨c₁, hc₁, ?_⟩
        rcases hor with rfl | ⟨rfl, hother⟩
        · exact .same
        · exact .closed rfl hc hstage hother
    · cases h
  | execute n =>
    obtain ⟨call, -, h⟩ := bind_eq_some_iff.1 h
    split at h
    · cases h
      exact .inr ⟨c', hc', .same⟩
    · cases h
  | elapse ms =>
    cases h
    exact .inr ⟨c', hc', .same⟩
  | lookup uid =>
    cases h
    exact .inr ⟨c', hc', .same⟩
  | lookupResume i =>
    obtain ⟨q, -, h⟩ := bind_eq_some_iff.1 h
    obtain ⟨⟨q', command⟩, -, rfl⟩ := map_eq_some_iff.1 h
    rw [connections_sent] at hc'
    exact .inr ⟨c', hc', .same⟩
  | lookupFault i =>
    obtain ⟨q, -, h⟩ := bind_eq_some_iff.1 h
    split at h
    · cases h
    · cases h
    cases h
    exact .inr ⟨c', hc', .same⟩

theorem isSome_put {id' : String} (c : Connection) (h : (s.connections.get id).isSome) :
    ((s.put id' c).connections.get id).isSome := by
  rw [get_put]
  split
  · rfl
  · exact h

theorem isSome_closePrevious {inst : Instance} {previous : SessionLease} (h : (s.connections.get id).isSome) :
    ((s.closePrevious shards inst previous).connections.get id).isSome := by
  unfold closePrevious closeConnection
  split
  · exact h
  split
  · exact h
  split
  · split
    · exact isSome_put _ h
    · exact h
  · exact h

/-- Connections stay; what they become is one of the changes. -/
theorem step_persists (h : s.step shards ev = some s') {c : Connection} (hc : s.connections.get id = some c) :
    ∃ c', s'.connections.get id = some c' ∧ s.Changes ev s' id c c' := by
  have hsome : (s.connections.get id).isSome := by rw [hc]; rfl
  have hsome' : (s'.connections.get id).isSome := by
    cases ev with
    | accept id₁ inst shardId =>
      simp only [step] at h
      split at h
      · cases h
        exact isSome_put _ hsome
      · cases h
    | connection id₁ e =>
      obtain ⟨c₁, -, h⟩ := bind_eq_some_iff.1 h
      obtain ⟨⟨c₂, command⟩, -, rfl⟩ := map_eq_some_iff.1 h
      rw [connections_sent]
      exact isSome_put _ hsome
    | closePrevious id₁ =>
      obtain ⟨c₁, -, h⟩ := bind_eq_some_iff.1 h
      split at h
      · cases h
        exact isSome_closePrevious (isSome_put _ hsome)
      · cases h
    | execute n =>
      obtain ⟨call, -, h⟩ := bind_eq_some_iff.1 h
      split at h <;> cases h
      exact hsome
    | elapse ms =>
      cases h
      exact hsome
    | lookup uid =>
      cases h
      exact hsome
    | lookupResume i =>
      obtain ⟨q, -, h⟩ := bind_eq_some_iff.1 h
      obtain ⟨⟨q', command⟩, -, rfl⟩ := map_eq_some_iff.1 h
      rw [connections_sent]
      exact hsome
    | lookupFault i =>
      obtain ⟨q, -, h⟩ := bind_eq_some_iff.1 h
      split at h <;> cases h
      exact hsome
  obtain ⟨c', hc'⟩ := isSome_iff_exists.1 hsome'
  refine ⟨c', hc', ?_⟩
  rcases step_connection h hc' with ⟨hnone, -⟩ | ⟨c₁, hc₁, hchanges⟩
  · cases hnone.symm.trans hc
  cases hc₁.symm.trans hc
  exact hchanges

theorem Changes.place {c c' : Connection} (h : s.Changes ev s' id c c') :
    c'.inst = c.inst ∧ c'.shardId = c.shardId ∧ (c.closed = true → c'.closed = true) := by
  cases h with
  | same => exact ⟨rfl, rfl, fun h => h⟩
  | closed => exact ⟨rfl, rfl, fun _ => rfl⟩
  | passed _ _ hclosed _ => exact ⟨rfl, rfl, hclosed⟩
  | moved _ hstep _ =>
    cases Connection.step_moves hstep with
    | idle hkeeps => exact ⟨hkeeps.inst, hkeeps.shardId, hkeeps.closed⟩
    | refreshes hkeeps _ => exact ⟨hkeeps.inst, hkeeps.shardId, hkeeps.closed⟩
    | clears hkeeps _ => exact ⟨hkeeps.inst, hkeeps.shardId, hkeeps.closed⟩
    | binds _ => exact ⟨rfl, rfl, fun h => h⟩
    | bound _ _ => exact ⟨rfl, rfl, fun h => h⟩

end Sessions

end Imm
