import Imm.Session.Exclusive
import Imm.Session.Logins

/-! A login that fails and is tried again on the same connection. The lease is in Redis before the
    connection is bound, and the connection is bound before the login makes sure of the lease; so an
    exception at the bind may leave a lease that names the connection itself, which the next login then
    closes, and one at the refresh leaves a bound connection. -/

namespace Imm

open Remote Steps List Option

/-- The connection has the identity that the login asked for. -/
def Connection.Bound (c : Connection) (login : LoginRequest) : Prop :=
  c.uid = login.uid ∧ c.lease.deviceId = login.deviceId

namespace Sessions

variable {shards : Instance → ℕ} {s s' : Sessions} {ev : SessionEvent} {id : String} {c c' : Connection}

/-- A bind that fails has no effect, and none later; the refresh of a login does not fail. -/
def FailsCleanly (s : Sessions) : SessionEvent → Prop
  | .connection id (.fault _) => ∀ c ∈ s.connections.get id,
    (∀ login n, c.stage = .binding login n → replyTo s.calls n = none) ∧
      ∀ login n, c.stage ≠ .refreshing login n
  | .execute n => ∀ w uid route, s.calls[n]? = some ⟨w, .bindSession uid route, none⟩ →
    ∃ id c login, s.connections.get id = some c ∧ c.stage = .binding login n
  | _ => True

/-- A connection that a lease in Redis may name: it is bound, or it is about to be. -/
def Holds (s : Sessions) (id : String) : Prop :=
  ∃ c, s.connections.get id = some c ∧
    (c.uid ≠ 0 ∨ ∃ login n, c.stage = .binding login n ∧ (replyTo s.calls n).isSome)

structure Clean (s : Sessions) : Prop where
  wired : Wired s
  fits : ∀ id c, s.connections.get id = some c → c.Fits
  leases : ∀ k l, s.redis.lease k = some l → s.Holds l.connectionId
  /-- no bind finds a lease of the connection it is for -/
  previous : ∀ id c login l, s.connections.get id = some c → c.Replied s.calls login (some l) →
    l.connectionId ≠ id

theorem replyTo_answered {calls : List RedisCall} {n : ℕ} {call : RedisCall} (hn : calls[n]? = some call)
    (r : RedisReply) : replyTo (answer calls n r) n = some r := by
  simp [replyTo, answer, hn]

theorem fits_step (h : ∀ id c, s.connections.get id = some c → c.Fits) (hstep : s.step shards ev = some s') :
    ∀ id c, s'.connections.get id = some c → c.Fits := by
  intro id c' hc'
  rcases step_connection hstep hc' with ⟨-, inst, shardId, -, rfl⟩ | ⟨c, hc, hchanges⟩
  · trivial
  have hfits := h id c hc
  cases hchanges with
  | same => exact hfits
  | closed => exact hfits
  | passed _ hstage _ _ =>
    rw [Connection.Fits, hstage] at hfits
    exact hfits
  | moved _ hmove _ => exact hfits.advance (Connection.step_advances hmove)

theorem Holds.step (h : s.Holds id) (hfits : ∀ id c, s.connections.get id = some c → c.Fits)
    (hok : s.FailsCleanly ev) (hstep : s.step shards ev = some s') : s'.Holds id := by
  obtain ⟨c, hc, hholds⟩ := h
  obtain ⟨c', hc', hchanges⟩ := step_persists hstep hc
  have replied : ∀ {n}, (replyTo s.calls n).isSome → (replyTo s'.calls n).isSome := by
    intro n hn
    obtain ⟨r, hr⟩ := isSome_iff_exists.1 hn
    obtain ⟨w, command, hdone⟩ := replyTo_iff.1 hr
    rw [replyTo_iff.2 ⟨w, command, hdone.grows (step_grows hstep)⟩]
    rfl
  refine ⟨c', hc', ?_⟩
  cases hchanges with
  | same | closed =>
    refine hholds.imp_right ?_
    rintro ⟨login, n, hstage, hn⟩
    exact ⟨login, n, hstage, replied hn⟩
  | passed _ hstage' _ _ =>
    refine .inl (hholds.resolve_right ?_)
    rintro ⟨login, n, hstage, -⟩
    cases hstage'.symm.trans hstage
  | @moved _ e command hev hmove _ =>
    rcases hholds with huid | ⟨login, n, hstage, hn⟩
    · exact .inl ((hfits id c hc).bound_once (Connection.step_advances hmove) huid |>.1 ▸ huid)
    rcases (Connection.step_waiting hmove).2 login n hstage with hsame | ⟨overloaded, rfl⟩ |
      ⟨generation, previous, -, hafter⟩
    · exact .inr ⟨login, n, hsame.trans hstage, replied hn⟩
    · -- an exception at a bind that has been carried out
      subst hev
      rw [(hok c hc).1 login n hstage] at hn
      cases hn
    · have hfits' := fits_step hfits hstep id c' hc'
      rw [Connection.Fits, hafter] at hfits'
      cases previous <;> exact .inl hfits'

variable {login : LoginRequest}

theorem Clean.previous_step (h : s.Clean) (hstep : s.step shards ev = some s')
    (hc' : s'.connections.get id = some c') {l : SessionLease}
    (hreplied : c'.Replied s'.calls login (some l)) : l.connectionId ≠ id := by
  obtain ⟨n, generation, hstage', hreply⟩ := hreplied
  rcases step_connection hstep hc' with ⟨-, inst, shardId, -, rfl⟩ | ⟨c, hc, hchanges⟩
  · cases hstage'
  have hstage : c.stage = .binding login n := by
    have kept : c.Keeps c' → c.stage = .binding login n := fun hkeeps => by
      rcases hkeeps.stage with hsame | hsettled
      · exact hsame.symm.trans hstage'
      rw [hstage'] at hsettled
      cases hsettled
    cases hchanges with
    | same | closed => exact hstage'
    | passed => cases hstage'
    | moved hev hmove hcalls =>
      cases Connection.step_moves hmove with
      | idle hkeeps | refreshes hkeeps | clears hkeeps => exact kept hkeeps
      | binds =>
        cases hstage'
        simp [hcalls, Sessions.sent, send, replyTo] at hreply
      | @bound _ _ _ _ previous => cases previous <;> cases hstage'
  rcases replyTo_step hstep hreply with hold | rfl
  · exact h.previous id c login l hc ⟨n, generation, hstage, hold⟩
  -- the bind is carried out now, and its connection holds no lease
  obtain ⟨r, hn⟩ := h.wired.binding id c login n hc hstage
  obtain rfl : r = none := by
    cases r with
    | none => rfl
    | some r => simp [step, hn] at hstep
  rw [step_execute hn hstep, replyTo_answered hn] at hreply
  have hlease : s.redis.lease (login.uid, login.deviceId) = some l :=
    (RedisReply.bound.inj (Option.some.inj hreply)).2
  rintro rfl
  obtain ⟨c₁, hc₁, hholds⟩ := h.leases _ _ hlease
  obtain rfl := Option.some.inj (hc₁.symm.trans hc)
  have hfits := h.fits _ c₁ hc
  rw [Connection.Fits, hstage] at hfits
  rcases hholds with hbound | ⟨login', n', hbinding, hreplied⟩
  · exact hbound hfits.2
  cases hstage.symm.trans hbinding
  simp [replyTo, hn] at hreplied

theorem Clean.step (h : s.Clean) (hok : s.FailsCleanly ev) (hstep : s.step shards ev = some s') :
    s'.Clean where
  wired := h.wired.step hstep
  fits := fits_step h.fits hstep
  previous _ _ _ _ hc' hreplied := h.previous_step hstep hc' hreplied
  leases k l hl := by
    rcases step_redis hstep with ⟨hredis, -⟩ | ⟨ms, rfl⟩ | ⟨n, w, command, rfl, hn, rfl⟩
    · rw [hredis] at hl
      exact (h.leases k l hl).step h.fits hok hstep
    · rcases (Redis.lease_elapse : (s.redis.elapse ms).lease k = _ ∨ _) with hsame | hnone
      · exact (h.leases k l (hsame.symm.trans hl)).step h.fits hok hstep
      · cases hnone.symm.trans hl
    have old : s.redis.lease k = some l → _ := fun hl => (h.leases k l hl).step h.fits hok hstep
    by_cases hbind : ∃ uid route, command = .bindSession uid route
    · obtain ⟨uid, route, rfl⟩ := hbind
      have hspec := (Redis.bindSession_spec uid route s.redis).2.1 k
      have hl := hspec.symm.trans hl
      split at hl
      · -- the login that waits for this bind is the one the lease names
        cases hl
        obtain ⟨id, c, login, hc, hstage⟩ := hok w uid route hn
        obtain ⟨r, hr⟩ := h.wired.binding id c login n hc hstage
        obtain ⟨rfl, ⟨rfl, rfl⟩, rfl⟩ : w = .connection id ∧
            (uid = login.uid ∧ route = c.route id login.deviceId) ∧ none = r := by
          simpa using hn.symm.trans hr
        refine ⟨c, hc, .inr ⟨login, n, hstage, ?_⟩⟩
        simp [replyTo, answer, hn]
      · exact old hl
    · rcases (Redis.execute_other fun uid route h => hbind ⟨uid, route, h⟩).1 k with
        hsame | hnone
      · exact old (hsame.symm.trans hl)
      · cases hnone.symm.trans hl

theorem run_clean (h : Path (step shards) FailsCleanly {} s) : s.Clean :=
  h.invariant ⟨⟨by simp, by simp, by simp⟩, by simp, by simp [Redis.lease], by simp⟩
    fun _ _ _ _ hs hok hstep => hs.step hok hstep

/-! ### A login that nothing disturbs -/

/-- The steps of the login of `id` succeed, and nobody closes the connection: not its client, not a refresh that
    finds the lease gone, and not a login of the same device on another connection. -/
def Spares (id : String) (s : Sessions) : SessionEvent → Prop
  | .connection id' e => id' = id →
    match e with
    | .checked ok => ok = true
    | .resume _ => ∀ c login n, s.connections.get id = some c → c.stage = .refreshing login n →
        replyTo s.calls n = some (.integer 1)
    | .refreshed call _ => replyTo s.calls call = some (.integer 1)
    | .refresh _ | .unrefreshed _ | .drain => True
    | .request _ | .fault _ | .close | .finish => False
  | .closePrevious id' => id' ≠ id → ∀ c login previous, s.connections.get id' = some c →
    c.stage = .closingPrevious login previous → previous.connectionId ≠ id
  | _ => True

/-- How far the login has come; `old` are the answers before it. -/
structure LoggingIn (id : String) (login : LoginRequest) (old : List LoginAnswer) (c : Connection) : Prop where
  opened : c.closed = false
  stage : match c.stage with
    | .validating l | .preparing l | .registering l | .binding l _ => l = login ∧ c.uid = 0 ∧ c.answers = old
    | .closingPrevious l previous => l = login ∧ c.Bound login ∧ c.answers = old ∧ previous.connectionId ≠ id
    | .closedPrevious l | .refreshing l _ => l = login ∧ c.Bound login ∧ c.answers = old
    | .reading => c.Bound login ∧ c.answers = old ++ [.loggedIn login.uid]
    | _ => False

theorem LoggingIn.move {old : List LoginAnswer} (h : LoggingIn id login old c)
    {e : ConnectionEvent} {command : Option RedisCommand} (hstep : c.step id s.calls e = some (c', command))
    (hc : s.connections.get id = some c) (hok : s.Spares id (.connection id e))
    (hprevious : ∀ login l, c.Replied s.calls login (some l) → l.connectionId ≠ id) :
    LoggingIn id login old c' := by
  obtain ⟨hopen, hstage⟩ := h
  have hok := hok rfl
  cases e with
  | request | fault | close | finish => exact hok.elim
  | refresh now =>
    simp only [Connection.step] at hstep
    split at hstep <;> cases hstep <;> exact ⟨hopen, hstage⟩
  | refreshed call now =>
    simp only [Connection.step, show replyTo s.calls call = _ from hok] at hstep
    split at hstep <;> cases hstep
    exact ⟨hopen, hstage⟩
  | unrefreshed call =>
    simp only [Connection.step] at hstep
    split at hstep <;> cases hstep
    exact ⟨hopen, hstage⟩
  | drain =>
    simp only [Connection.step] at hstep
    split at hstep
    · rename_i hdraining
      rw [hdraining] at hstage
      exact hstage.elim
    · cases hstep
  | checked ok =>
    obtain rfl := hok
    simp only [Connection.step, hopen, Bool.not_true, Bool.false_eq_true, if_false] at hstep
    split at hstep
    · rename_i l hst
      rw [hst] at hstage
      rw [if_pos hstage.2.1] at hstep
      cases hstep
      exact ⟨rfl, hstage⟩
    case _ l hst | _ l hst =>
      rw [hst] at hstage
      cases hstep
      exact ⟨rfl, hstage⟩
    · cases hstep
  | resume now =>
    simp only [Connection.step] at hstep
    split at hstep
    · rename_i l call hst
      rw [hst] at hstage
      obtain ⟨rfl, -, hanswers⟩ := hstage
      split at hstep
      · rename_i generation previous hreply
        cases hstep
        refine ⟨hopen, ?_⟩
        cases previous with
        | none => exact ⟨rfl, ⟨rfl, rfl⟩, hanswers⟩
        | some previous => exact ⟨rfl, ⟨rfl, rfl⟩, hanswers, hprevious l previous ⟨call, generation, hst, hreply⟩⟩
      · cases hstep
    · rename_i l hst
      rw [hst] at hstage
      rw [if_neg (by simp [hopen])] at hstep
      cases hstep
      exact ⟨hopen, hstage⟩
    · rename_i l call hst
      rw [hst] at hstage
      obtain ⟨rfl, hbound, rfl⟩ := hstage
      simp only [hok c l call hc hst, hopen, ne_eq, not_true_eq_false, if_false, Bool.false_eq_true] at hstep
      cases hstep
      exact ⟨hopen, hbound, rfl⟩
    · rename_i call hst
      rw [hst] at hstage
      exact hstage.elim
    · cases hstep

/-- Whatever the others do, the login goes on. -/
theorem LoggingIn.step {old : List LoginAnswer} (h : LoggingIn id login old c) (hclean : s.Clean)
    (hc : s.connections.get id = some c) (hok : s.Spares id ev) (hstep : s.step shards ev = some s') :
    ∃ c', s'.connections.get id = some c' ∧ LoggingIn id login old c' := by
  obtain ⟨c', hc', hchanges⟩ := step_persists hstep hc
  refine ⟨c', hc', ?_⟩
  have hown : ∀ {l previous}, c.stage = .closingPrevious l previous → previous.connectionId ≠ id := fun hst => by
    have := h.stage
    rw [hst] at this
    exact this.2.2.2
  cases hchanges with
  | same => exact h
  | moved hev hmove _ =>
    subst hev
    exact h.move hmove hc hok fun login l => hclean.previous id c login l hc
  | @closed id₁ c₁ _ _ hev hc₁ hst hid =>
    subst hev
    by_cases hself : id₁ = id
    · subst hself
      cases hc₁.symm.trans hc
      exact absurd hid (hown hst)
    · exact absurd hid (hok hself c₁ _ _ hc₁ hst)
  | passed _ hst _ hself =>
    obtain rfl := hself.resolve_right (hown hst)
    have hstage := h.stage
    rw [hst] at hstage
    exact ⟨h.opened, hstage.1, hstage.2.1, hstage.2.2.1⟩

theorem moved (shards : Instance → ℕ) (hc : s.connections.get id = some c) {e : ConnectionEvent}
    {command : Option RedisCommand}
    (h : c.step id s.calls e = some (c', command)) : ∃ s', s.step shards (.connection id e) = some s' ∧
      s'.connections.get id = some c' ∧ s'.redis = s.redis ∧
      s'.calls = (s.sent (.connection id) command).calls := by
  refine ⟨(s.put id c').sent (.connection id) command, ?_, ?_, ?_, ?_⟩
  · rw [step, hc, bind_some, h, map_some]
  · rw [connections_sent, get_put, if_pos rfl]
  · rw [redis_sent]
    rfl
  · cases command <;> rfl

theorem login_undisturbed (h : s.Clean) (hc : s.connections.get id = some c) (hstage : c.stage = .reading)
    (huid : c.uid = 0) (hopen : c.closed = false) (hvalid : login.validate = .Success)
    {s₁ : Sessions} (hbegin : s.step shards (.connection id (.request login)) = some s₁)
    (hpath : Path (step shards) (fun s ev => s.FailsCleanly ev ∧ s.Spares id ev) s₁ s') :
    ∃ c', s'.connections.get id = some c' ∧ c'.closed = false ∧
      (c'.stage = .reading → c'.Bound login ∧ c'.answers = c.answers ++ [.loggedIn login.uid]) := by
  obtain ⟨s₂, hmoved, hc₁, -⟩ := moved shards hc
    (show c.step id s.calls (.request login) = some ({ c with stage := .validating login }, none) by
      simp [Connection.step, hstage, hvalid, huid])
  cases hbegin.symm.trans hmoved
  have hfirst : LoggingIn id login c.answers { c with stage := .validating login } := ⟨hopen, rfl, huid, rfl⟩
  have hok : s.FailsCleanly (.connection id (.request login)) := trivial
  obtain ⟨-, c', hc', hlogin⟩ := hpath.invariant
    (P := fun s => s.Clean ∧ ∃ c', s.connections.get id = some c' ∧ LoggingIn id login c.answers c')
    ⟨h.step hok hbegin, _, hc₁, hfirst⟩ fun s ev s' _ hs hok hstep => by
      obtain ⟨hs, c', hc', hlogin⟩ := hs
      exact ⟨hs.step hok.1 hstep, hlogin.step hs hc' hok.2 hstep⟩
  refine ⟨c', hc', hlogin.opened, fun hreading => ?_⟩
  have := hlogin.stage
  rwa [hreading] at this

/-! ### A login without faults -/

/-- The events of a login all of whose steps succeed; `call` is the number of its bind. -/
def wholeLogin (id : String) (login : LoginRequest) (call : ℕ) (previous : Bool) (now : ℕ) :
    List SessionEvent :=
  [.connection id (.request login), .connection id (.checked true), .connection id (.checked true),
    .connection id (.checked true), .execute call, .connection id (.resume now)] ++
  (if previous then [.closePrevious id] else []) ++
  [.connection id (.resume now), .execute (call + 1), .connection id (.resume now)]

variable (shards)

theorem executed {n : ℕ} {w : Caller} {command : RedisCommand} (hn : s.calls[n]? = some ⟨w, command, none⟩) :
    ∃ s', s.step shards (.execute n) = some s' ∧ s'.connections = s.connections ∧
      s'.redis = (s.redis.execute command).2 ∧ s'.calls = answer s.calls n (s.redis.execute command).1 :=
  ⟨{ s with redis := (s.redis.execute command).2, calls := answer s.calls n (s.redis.execute command).1 },
    by rw [step, hn]; rfl, rfl, rfl, rfl⟩

theorem closed_other (hc : s.connections.get id = some c) {previous : SessionLease}
    (hstage : c.stage = .closingPrevious login previous) (hother : previous.connectionId ≠ id) :
    ∃ s', s.step shards (.closePrevious id) = some s' ∧
      s'.connections.get id = some { c with stage := .closedPrevious login } ∧ s'.redis = s.redis ∧
      s'.calls = s.calls := by
  refine ⟨(s.put id { c with stage := .closedPrevious login }).closePrevious shards c.inst previous, ?_, ?_,
    (closePrevious_rest _ _).1, (closePrevious_rest _ _).2⟩
  · simp only [step, hc, bind_some, hstage]
  have hput : (s.put id { c with stage := .closedPrevious login }).connections.get id =
      some { c with stage := .closedPrevious login } := by rw [get_put, if_pos rfl]
  unfold closePrevious closeConnection
  split
  · exact hput
  split
  · exact hput
  split
  · split
    · rw [get_put, if_neg (Ne.symm hother)]
      exact hput
    · exact hput
  · exact hput

/-- The first half of a login, up to the reply to its bind. -/
theorem login_binds (hc : s.connections.get id = some c) (hstage : c.stage = .reading) (huid : c.uid = 0)
    (hopen : c.closed = false) (hvalid : login.validate = .Success) (now : ℕ) :
    ∃ s', [SessionEvent.connection id (.request login), .connection id (.checked true),
        .connection id (.checked true), .connection id (.checked true), .execute s.calls.length,
        .connection id (.resume now)].foldlM (step shards) s = some s' ∧
      s'.connections.get id = some { c with
        uid := login.uid, lastRefresh := now
        lease := { c.route id login.deviceId with generation := s.redis.next (login.uid, login.deviceId) }
        stage := .afterBind login (s.redis.lease (login.uid, login.deviceId)) } ∧
      s'.redis.lease (login.uid, login.deviceId) =
        some { c.route id login.deviceId with generation := s.redis.next (login.uid, login.deviceId) } ∧
      s'.calls.length = s.calls.length + 1 := by
  obtain ⟨s₁, h₁, hc₁, hr₁, hcalls₁⟩ := moved shards hc
    (show c.step id s.calls (.request login) = some ({ c with stage := .validating login }, none) by
      simp [Connection.step, hstage, hvalid, huid])
  obtain ⟨s₂, h₂, hc₂, hr₂, hcalls₂⟩ := moved shards (e := .checked true) hc₁
    (show _ = some ({ c with stage := .preparing login }, none) by simp [Connection.step, hopen, huid])
  obtain ⟨s₃, h₃, hc₃, hr₃, hcalls₃⟩ := moved shards (e := .checked true) hc₂
    (show _ = some ({ c with stage := .registering login }, none) by simp [Connection.step, hopen])
  obtain ⟨s₄, h₄, hc₄, hr₄, hcalls₄⟩ := moved shards (e := .checked true) hc₃
    (show _ = some ({ c with stage := .binding login s₃.calls.length },
      some (.bindSession login.uid (c.route id login.deviceId))) by simp [Connection.step, hopen, Connection.route])
  have hcalls : s₃.calls = s.calls := hcalls₃.trans (hcalls₂.trans hcalls₁)
  have hredis : s₄.redis = s.redis := hr₄.trans (hr₃.trans (hr₂.trans hr₁))
  have hcalls₄ : s₄.calls = send s.calls (.connection id)
      (.bindSession login.uid (c.route id login.deviceId)) := by rw [hcalls₄, ← hcalls]; rfl
  have hn : s₄.calls[s.calls.length]? = some ⟨.connection id,
      .bindSession login.uid (c.route id login.deviceId), none⟩ := by simp [hcalls₄, send]
  obtain ⟨s₅, h₅, hconns₅, hr₅, hcalls₅⟩ := executed shards hn
  obtain ⟨hbound, hlease, -⟩ := Redis.bindSession_spec login.uid (c.route id login.deviceId) s.redis
  have hreply : replyTo s₅.calls s.calls.length = some (.bound (s.redis.next (login.uid, login.deviceId))
      (s.redis.lease (login.uid, login.deviceId))) := by
    rw [hcalls₅, replyTo_answered hn, hredis]
    exact congrArg some hbound
  obtain ⟨s₆, h₆, hc₆, hr₆, hcalls₆⟩ := moved shards (e := .resume now)
    ((congrArg (Table.get · id) hconns₅).trans hc₄) (show _ = some (_, none) by
      simp only [Connection.step, hcalls, hreply]; rfl)
  refine ⟨s₆, ?_, hc₆, ?_, ?_⟩
  · simp only [foldlM_cons, foldlM_nil, h₁, h₂, h₃, h₄, h₅, h₆, bind_eq_bind, bind_some]
    rfl
  · rw [hr₆, hr₅, hredis]
    exact (hlease (login.uid, login.deviceId)).trans (if_pos rfl)
  · rw [hcalls₆, show (s₅.sent _ none).calls = s₅.calls from rfl, hcalls₅, hcalls₄]
    simp [answer, send]

/-- The second half: the lease is there, so the login ends well. -/
theorem login_refreshes (hc : s.connections.get id = some c) (hstage : c.stage = .closedPrevious login)
    (hopen : c.closed = false) (hlease : s.redis.lease (c.uid, c.lease.deviceId) = some c.lease) (now : ℕ) :
    ∃ s', [SessionEvent.connection id (.resume now), .execute s.calls.length,
        .connection id (.resume now)].foldlM (step shards) s = some s' ∧
      s'.connections.get id = some (c.answer (.loggedIn login.uid)) := by
  obtain ⟨s₁, h₁, hc₁, hr₁, hcalls₁⟩ := moved shards hc
    (show c.step id s.calls (.resume now) = some ({ c with stage := .refreshing login s.calls.length },
      some (.refreshSession c.uid c.lease)) by simp [Connection.step, hstage, hopen])
  have hn : s₁.calls[s.calls.length]? = some ⟨.connection id, .refreshSession c.uid c.lease, none⟩ := by
    simp [hcalls₁, sent, send]
  obtain ⟨s₂, h₂, hconns₂, hr₂, hcalls₂⟩ := executed shards hn
  have hreply : replyTo s₂.calls s.calls.length = some (.integer 1) := by
    rw [hcalls₂, replyTo_answered hn, hr₁]
    simp [Redis.execute, Redis.refreshSession, hlease]
  obtain ⟨s₃, h₃, hc₃, -, -⟩ := moved shards (e := .resume now)
    ((congrArg (Table.get · id) hconns₂).trans hc₁) (show _ = some (c.answer (.loggedIn login.uid), none) by
      simp [Connection.step, hreply, hopen, Connection.answer])
  refine ⟨s₃, ?_, hc₃⟩
  simp only [foldlM_cons, foldlM_nil, h₁, h₂, h₃, bind_eq_bind, bind_some]
  rfl

/-- Between the two the old connection is closed, which is not this one. -/
theorem login_succeeds (h : s.Clean) (hc : s.connections.get id = some c) (hstage : c.stage = .reading)
    (huid : c.uid = 0) (hopen : c.closed = false) (hvalid : login.validate = .Success) (now : ℕ) :
    ∃ s' c', (wholeLogin id login s.calls.length (s.redis.lease (login.uid, login.deviceId)).isSome now).foldlM
        (step shards) s = some s' ∧ s'.connections.get id = some c' ∧ c'.closed = false ∧ c'.Bound login ∧
      c'.lease.generation ≠ 0 ∧ c'.answers = c.answers ++ [.loggedIn login.uid] := by
  obtain ⟨s₁, hrun₁, hc₁, hlease₁, hlen₁⟩ := login_binds shards hc hstage huid hopen hvalid now
  cases hprevious : s.redis.lease (login.uid, login.deviceId) with
  | none =>
    rw [hprevious] at hc₁
    obtain ⟨s₂, hrun₂, hc₂⟩ := login_refreshes shards hc₁ rfl hopen hlease₁ now
    refine ⟨s₂, _, ?_, hc₂, hopen, ⟨rfl, rfl⟩, Nat.succ_ne_zero _, rfl⟩
    rw [hlen₁] at hrun₂
    simp only [wholeLogin, isSome_none, Bool.false_eq_true, if_false, append_nil, foldlM_append,
      hrun₁, bind_eq_bind, bind_some, hrun₂]
  | some previous =>
    rw [hprevious] at hc₁
    have hother : previous.connectionId ≠ id := by
      rintro rfl
      obtain ⟨c₂, hc₂, hholds⟩ := h.leases _ _ hprevious
      cases hc₂.symm.trans hc
      rcases hholds with hbound | ⟨login', n, hbinding, -⟩
      · exact hbound huid
      · cases hbinding.symm.trans hstage
    obtain ⟨s₂, h₂, hc₂, hr₂, hcalls₂⟩ := closed_other shards hc₁ rfl hother
    obtain ⟨s₃, hrun₃, hc₃⟩ := login_refreshes shards hc₂ rfl hopen (hr₂ ▸ hlease₁) now
    refine ⟨s₃, _, ?_, hc₃, hopen, ⟨rfl, rfl⟩, Nat.succ_ne_zero _, rfl⟩
    rw [hcalls₂, hlen₁] at hrun₃
    simp only [wholeLogin, isSome_some, if_true, foldlM_append, hrun₁, bind_eq_bind,
      bind_some, foldlM_cons, foldlM_nil, h₂]
    exact hrun₃

end Sessions

/-- A failed login leaves the connection clean: unbound and open, and ready for the next one. Whatever else goes
    on, the next one keeps the connection open, and when the connection reads again it has been answered with
    success and is bound; and it can get there. -/
theorem failed_login_leaves_clean {shards : Instance → ℕ} {s : Sessions}
    (h : Path (Sessions.step shards) Sessions.FailsCleanly {} s) {id : String} {c : Connection}
    (hc : s.connections.get id = some c) :
    (∀ e c' command error, s.FailsCleanly (.connection id e) → c.step id s.calls e = some (c', command) →
      (c.uid = 0 ∨ c.stage.First) → c.closed = false → c'.answers = c.answers ++ [.refused error] →
        c'.uid = 0 ∧ c'.closed = false ∧ c'.stage = .reading) ∧
    (c.stage = .reading → c.uid = 0 → c.closed = false → ∀ login : LoginRequest, login.validate = .Success →
      (∀ s₁ s', s.step shards (.connection id (.request login)) = some s₁ →
        Path (Sessions.step shards) (fun s ev => s.FailsCleanly ev ∧ s.Spares id ev) s₁ s' →
        ∃ c', s'.connections.get id = some c' ∧ c'.closed = false ∧
          (c'.stage = .reading → c'.Bound login ∧ c'.answers = c.answers ++ [.loggedIn login.uid])) ∧
      ∀ now, ∃ s' c',
        (Sessions.wholeLogin id login s.calls.length (s.redis.lease (login.uid, login.deviceId)).isSome
          now).foldlM (Sessions.step shards) s = some s' ∧
        s'.connections.get id = some c' ∧ c'.closed = false ∧ c'.Bound login ∧ c'.lease.generation ≠ 0 ∧
        c'.answers = c.answers ++ [.loggedIn login.uid]) := by
  have hclean := Sessions.run_clean h
  refine ⟨fun e c' command error hok hstep hfirst hopen ha => ?_, fun hstage huid hopen login hvalid =>
    ⟨fun s₁ s' hbegin hpath => ?_, fun now =>
      Sessions.login_succeeds shards hclean hc hstage huid hopen hvalid now⟩⟩
  swap
  · exact Sessions.login_undisturbed hclean hc hstage huid hopen hvalid hbegin hpath
  rcases Connection.step_answers hstep with hsame | ⟨a, rfl, hpast, hrefused⟩
  · rw [hsame] at ha
    simp at ha
  obtain rfl : a = .refused error := by simpa [Connection.answer] using ha
  refine ⟨?_, hopen, rfl⟩
  rcases hfirst with huid | hfirst
  · exact huid
  have hfits := hclean.fits id c hc
  unfold Connection.Fits at hfits
  cases hstage : c.stage with
  | preparing login | registering login | binding login n =>
    rw [hstage] at hfits
    exact hfits.2
  | closingPrevious login previous | closedPrevious login =>
    rw [hstage] at hpast
    exact (hpast trivial).elim
  | refreshing login n =>
    obtain ⟨overloaded, rfl⟩ := hrefused error rfl login n hstage
    exact absurd hstage ((hok c hc).2 login n)
  | reading | validating login | draining | clearing n | ended =>
    rw [hstage] at hfirst
    exact hfirst.elim

/-- The bind cannot be sent; the connection is unbound and open, and the next login succeeds. -/
theorem failed_login_leaves_clean_after_fault : ∃ (s s' : Sessions) (c c' : Connection),
    Path (Sessions.step fun _ => 1) Sessions.FailsCleanly {} s ∧ s.connections.get "a" = some c ∧
      c.answers = [.refused .DependencyUnavailable] ∧
      (Sessions.wholeLogin "a" ⟨1, "token", "phone", false, "", 0, "", ""⟩ 1 false 0).foldlM
        (Sessions.step fun _ => 1) s = some s' ∧
      s'.connections.get "a" = some c' ∧ c'.closed = false ∧ c'.uid = 1 := by
  have hrun : ∃ (s t : Sessions) (c d : Connection),
      (loggingIn "a" ⟨"g", "i"⟩).foldlM (Sessions.step fun _ => 1) ({} : Sessions) = some t ∧
      t.connections.get "a" = some d ∧ (∃ login, d.stage = .binding login 0) ∧ replyTo t.calls 0 = none ∧
      t.step (fun _ => 1) (.connection "a" (.fault false)) = some s ∧
      s.connections.get "a" = some c ∧ c.stage = .reading ∧ c.uid = 0 ∧ c.closed = false ∧
      c.answers = [.refused .DependencyUnavailable] ∧ s.calls.length = 1 ∧
      s.redis.lease (1, "phone") = none :=
    ⟨_, _, _, _, rfl, rfl, ⟨_, rfl⟩, rfl, rfl, rfl, rfl, rfl, rfl, rfl, rfl, rfl⟩
  obtain ⟨s, t, c, d, hrun, hd, ⟨login, hbinding⟩, hreply, hstep, hc, hstage, huid, hopen, ha, hlen, hlease⟩ := hrun
  have hpath : Path (Sessions.step fun _ => 1) Sessions.FailsCleanly {} t :=
    Path.here.run (fun e he s => by
      simp only [loggingIn, mem_cons, not_mem_nil, or_false] at he
      rcases he with rfl | rfl | rfl | rfl | rfl <;> trivial) hrun
  have hfault : t.FailsCleanly (.connection "a" (.fault false)) := by
    intro d' hd'
    cases hd.symm.trans hd'
    refine ⟨fun login' n hstage => ?_, fun login' n hstage => ?_⟩
    · cases hbinding.symm.trans hstage
      exact hreply
    · cases hbinding.symm.trans hstage
  obtain ⟨s', c', hs', hc', hopen', ⟨huid', -⟩, -⟩ := ((failed_login_leaves_clean (hpath.next hfault hstep) hc).2 hstage
    huid hopen ⟨1, "token", "phone", false, "", 0, "", ""⟩ (by decide)).2 0
  rw [hlen, hlease] at hs'
  exact ⟨s, s', c, c', hpath.next hfault hstep, hc, ha, hs', hc', hopen', huid'⟩

/-- The refresh of a login fails. -/
def refreshFails : List SessionEvent :=
  loggingIn "a" ⟨"g", "i"⟩ ++ [.execute 0, .connection "a" (.resume 0), .connection "a" (.resume 0),
    .connection "a" (.fault false)]

/-- A bind fails after it was carried out; in the login after it every step succeeds. -/
def bindFailsLate : List SessionEvent :=
  loggingIn "a" ⟨"g", "i"⟩ ++ [.execute 0, .connection "a" (.fault false)] ++
    (loggingIn "a" ⟨"g", "i"⟩).tail ++ [.execute 1, .connection "a" (.resume 0), .closePrevious "a",
    .connection "a" (.resume 0)]

/-- The first leaves a bound connection behind its error, the second is closed by its own login. -/
theorem failed_login_leaves_traces :
    (∃ (s : Sessions) (c : Connection), refreshFails.foldlM (Sessions.step fun _ => 1) {} = some s ∧
      s.connections.get "a" = some c ∧ c.answers = [.refused .DependencyUnavailable] ∧ c.uid = 1) ∧
    ∃ (s : Sessions) (c : Connection), bindFailsLate.foldlM (Sessions.step fun _ => 1) {} = some s ∧
      s.connections.get "a" = some c ∧ c.answers = [.refused .DependencyUnavailable] ∧ c.closed = true ∧
      c.stage = .reading :=
  ⟨⟨_, _, rfl, rfl, rfl, rfl⟩, _, _, rfl, rfl, rfl, rfl, rfl⟩

end Imm
