import Imm.Session.Coverage

/-! One open connection per device on a Gateway process. A login finds the connection it replaces
    through the lease that its bind has replaced. That lease may have expired, may belong to another
    Gateway by then, or may come with a reply that gets lost; then the old connection stays open beside
    the new one. Where every bind finds the open connection that is not yet on the way to be closed,
    and no such reply is lost, there is at most one. -/

namespace Imm

open Remote Steps

/-- The lease tells where the connection is. -/
def SessionLease.Names (l : SessionLease) (id : String) (c : Connection) : Prop :=
  l.gatewayId = c.inst.gatewayId ∧ l.instanceId = c.inst.instanceId ∧ l.shardId = c.shardId ∧
    l.connectionId = id

/-- A login is in progress. -/
def Stage.LoggingIn : Stage → Prop
  | .reading | .draining | .clearing _ | .ended => False
  | _ => True

def Connection.BoundTo (c : Connection) (k : SessionKey) : Prop :=
  c.uid ≠ 0 ∧ (c.uid, c.lease.deviceId) = k

/-- The bind of a login has been carried out, and the login has not gone on. -/
def Connection.Replied (c : Connection) (calls : List RedisCall) (login : LoginRequest)
    (previous : Option SessionLease) : Prop :=
  ∃ n generation, c.stage = .binding login n ∧ replyTo calls n = some (.bound generation previous)

/-- The connection is open, and has bound the device as far as Redis knows. -/
def Sessions.Serving (s : Sessions) (k : SessionKey) (c : Connection) : Prop :=
  c.closed = false ∧ (c.BoundTo k ∨
    ∃ login previous, c.Replied s.calls login previous ∧ (login.uid, login.deviceId) = k)

/-- Some login of the process is about to close the connection. -/
def Sessions.Doomed (s : Sessions) (id : String) (c : Connection) : Prop :=
  ∃ id' c' login previous, s.connections.get id' = some c' ∧ c'.inst = c.inst ∧ previous.Names id c ∧
    (c'.stage = .closingPrevious login previous ∨ c'.Replied s.calls login (some previous))

/-- A bind finds the lease of the open connection of its process that serves the device, if there is
    one that is not doomed; and no reply gets lost that would doom an open connection. -/
def FindsPrevious (s : Sessions) : SessionEvent → Prop
  | .execute n => ∀ id c login, s.connections.get id = some c → c.stage = .binding login n →
      ∀ id' c', id' ≠ id → s.connections.get id' = some c' → c'.inst = c.inst →
        s.Serving (login.uid, login.deviceId) c' → ¬ s.Doomed id' c' →
        ∃ l, s.redis.lease (login.uid, login.deviceId) = some l ∧ l.Names id' c'
  | .connection id (.fault _) => ∀ c login previous, s.connections.get id = some c →
      c.Replied s.calls login (some previous) →
      ∀ id' c', s.connections.get id' = some c' → previous.Names id' c' → c'.closed = true
  | _ => True

/-- At most one connection of a process serves a device and is not doomed. -/
def Sessions.Exclusive (s : Sessions) : Prop :=
  ∀ k id id' c c', s.connections.get id = some c → s.connections.get id' = some c' → c'.inst = c.inst →
    s.Serving k c → s.Serving k c' → ¬ s.Doomed id c → ¬ s.Doomed id' c' → id = id'

variable {shards : Instance → ℕ} {s s' : Sessions} {ev : SessionEvent}

/-! ### Replies -/

variable {n : ℕ} {c c' : Connection} {id : String}

theorem replyTo_iff {calls : List RedisCall} {r : RedisReply} :
    replyTo calls n = some r ↔ ∃ w command, Done calls n w command r := by
  constructor
  · intro h
    obtain ⟨⟨w, command, reply⟩, hn, rfl⟩ := Option.bind_eq_some_iff.1 h
    exact ⟨w, command, hn⟩
  · rintro ⟨w, command, hn⟩
    simp [replyTo, show calls[n]? = _ from hn]

theorem Connection.Replied.grows {calls calls' : List RedisCall} {login : LoginRequest}
    {previous : Option SessionLease} (h : c.Replied calls login previous) (hgrows : Grows calls calls') :
    c.Replied calls' login previous := by
  obtain ⟨n, generation, hstage, hreply⟩ := h
  obtain ⟨w, command, hdone⟩ := replyTo_iff.1 hreply
  exact ⟨n, generation, hstage, replyTo_iff.2 ⟨w, command, hdone.grows hgrows⟩⟩

/-- A reply is new only if its call has just been carried out. -/
theorem replyTo_step (hstep : s.step shards ev = some s') {r : RedisReply}
    (h : replyTo s'.calls n = some r) : replyTo s.calls n = some r ∨ ev = .execute n := by
  obtain ⟨w, command, hdone⟩ := replyTo_iff.1 h
  rcases Sessions.step_redis hstep with ⟨-, hsame | ⟨w', command', hsend, -⟩⟩ | ⟨ms, rfl⟩ |
    ⟨m, w', command', rfl, hm, rfl⟩
  · exact .inl (hsame ▸ h)
  · rw [hsend, done_send] at hdone
    exact .inl (replyTo_iff.2 ⟨w, command, hdone⟩)
  · exact .inl h
  rcases (done_answer hm).1 hdone with hold | ⟨rfl, -⟩
  · exact .inl (replyTo_iff.2 ⟨w, command, hold⟩)
  · exact .inr rfl

/-! ### What a step changes -/

/-- A connection that serves a device served it before, unless its bind has just been carried out. -/
theorem Sessions.Serving.before (hstep : s.step shards ev = some s') {k : SessionKey}
    (hchanges : s.Changes ev s' id c c') (h : s'.Serving k c') :
    s.Serving k c ∨ ∃ login n, ev = .execute n ∧ c.stage = .binding login n ∧
      (login.uid, login.deviceId) = k := by
  obtain ⟨hopen', hbound⟩ := h
  have hopen : c.closed = false := by
    by_contra hclosed
    rw [hchanges.place.2.2 (by simpa using hclosed)] at hopen'
    cases hopen'
  have waited : ∀ {login n generation previous}, c.stage = .binding login n →
      replyTo s'.calls n = some (.bound generation previous) → (login.uid, login.deviceId) = k →
      s.Serving k c ∨ ∃ login n, ev = .execute n ∧ c.stage = .binding login n ∧
        (login.uid, login.deviceId) = k := by
    intro login n generation previous hstage hreply hk
    rcases replyTo_step hstep hreply with hold | hnew
    · exact .inl ⟨hopen, .inr ⟨login, previous, ⟨n, generation, hstage, hold⟩, hk⟩⟩
    · exact .inr ⟨login, n, hnew, hstage, hk⟩
  -- the stage and the lease are those from before
  have kept : c'.uid = c.uid → c'.lease = c.lease → (∀ login n, c'.stage = .binding login n →
      c.stage = .binding login n) → s.Serving k c ∨ ∃ login n, ev = .execute n ∧
        c.stage = .binding login n ∧ (login.uid, login.deviceId) = k := by
    intro huid hlease hstage
    rcases hbound with ⟨hne, hk⟩ | ⟨login, previous, ⟨n, generation, hst, hreply⟩, hk⟩
    · exact .inl ⟨hopen, .inl ⟨huid ▸ hne, by rw [← hk, huid, hlease]⟩⟩
    · exact waited (hstage login n hst) hreply hk
  have keeps : c.Keeps c' → s.Serving k c ∨ ∃ login n, ev = .execute n ∧
      c.stage = .binding login n ∧ (login.uid, login.deviceId) = k := by
    intro hkeeps
    refine kept hkeeps.uid hkeeps.lease fun login n hst => ?_
    rcases hkeeps.stage with hsame | hsettled
    · exact hsame.symm.trans hst
    rw [hst] at hsettled
    cases hsettled
  cases hchanges with
  | same => exact kept rfl rfl fun _ _ h => h
  | closed => exact kept rfl rfl fun _ _ h => h
  | passed => exact kept rfl rfl (by simp)
  | moved hev hmove hcalls =>
    cases Connection.step_moves hmove with
    | idle hkeeps => exact keeps hkeeps
    | refreshes hkeeps _ => exact keeps hkeeps
    | clears hkeeps _ => exact keeps hkeeps
    | binds hstage =>
      rcases hbound with hbound | ⟨login, previous, ⟨n, generation, hst, hreply⟩, hk⟩
      · exact .inl ⟨hopen, .inl hbound⟩
      -- the bind has only just been sent
      cases hst
      simp [hcalls, Sessions.sent, send, replyTo] at hreply
    | @bound login call generation now previous hstage hreply =>
      rcases hbound with ⟨-, hk⟩ | ⟨login', previous', ⟨n, generation', hst, -⟩, -⟩
      · exact .inl ⟨hopen, .inr ⟨login, previous, ⟨call, generation, hstage, hreply⟩, hk⟩⟩
      · cases previous <;> cases hst

theorem closePrevious_closes {previous : SessionLease}
    (hc : s.connections.get id = some c) (hshard : c.shardId < shards c.inst) (hnames : previous.Names id c)
    (hc' : (s.closePrevious shards c.inst previous).connections.get id = some c') : c'.closed = true := by
  obtain ⟨hgateway, hinstance, hshardId, rfl⟩ := hnames
  rw [Sessions.closePrevious, if_neg (by simp [hgateway, hinstance]), hshardId,
    if_neg (Nat.not_le.2 hshard), Sessions.closeConnection, hc] at hc'
  simp only [and_self, if_true, Sessions.get_put, Option.some.injEq] at hc'
  rw [← hc']

/-- An open connection that is doomed stays so. -/
theorem Sessions.Doomed.after (hstep : s.step shards ev = some s') (hok : FindsPrevious s ev)
    (hshards : ∀ id c, s.connections.get id = some c → c.shardId < shards c.inst)
    (hc : s.connections.get id = some c) (hc' : s'.connections.get id = some c')
    (hchanges : s.Changes ev s' id c c') (hopen : c'.closed = false) (h : s.Doomed id c) :
    s'.Doomed id c' := by
  obtain ⟨id₁, c₁, login, previous, hc₁, hinst, hnames, hdooms⟩ := h
  obtain ⟨c₁', hc₁', hchanges₁⟩ := step_persists hstep hc₁
  obtain ⟨hinst', hshard', hclosed'⟩ := hchanges.place
  have hgrows := step_grows hstep
  refine ⟨id₁, c₁', login, previous, hc₁', ?_, ?_, ?_⟩
  · rw [hchanges₁.place.1, hinst, hinst']
  · rw [SessionLease.Names, hinst', hshard']
    exact hnames
  · cases hchanges₁ with
    | same => exact hdooms.imp_right (·.grows hgrows)
    | closed =>
      refine hdooms.imp_right ?_
      rintro ⟨n, g, hstage, hreply⟩
      exact .grows ⟨n, g, hstage, hreply⟩ hgrows
    | passed hev hstage _ _ =>
      -- the connection has just been closed
      rcases hdooms with hclosing | ⟨n, g, hbinding, -⟩
      · subst hev
        rw [step, hc₁, Option.bind_some, hclosing] at hstep
        cases hstep
        have hclose : c'.closed = true := by
          by_cases hid : id = id₁
          · subst hid
            cases hc.symm.trans hc₁
            refine closePrevious_closes (c := { c with stage := .closedPrevious login }) ?_
              (hshards id c hc) hnames hc'
            rw [get_put, if_pos rfl]
          · refine closePrevious_closes ?_ (hshards id c hc) hnames (hinst ▸ hc')
            rw [get_put, if_neg hid, hc]
        rw [hclose] at hopen
        cases hopen
      · cases hstage.symm.trans hbinding
    | moved hev hmove _ =>
      obtain ⟨hclosing, hbinding⟩ := Connection.step_waiting hmove
      rcases hdooms with hstage | ⟨n, g, hstage, hreply⟩
      · exact .inl ((hclosing _ _ hstage).trans hstage)
      rcases hbinding _ _ hstage with hsame | ⟨overloaded, rfl⟩ | ⟨g', previous', hreply', hafter⟩
      · exact .inr (.grows ⟨n, g, hsame.trans hstage, hreply⟩ hgrows)
      · subst hev
        have hclose := hclosed' (hok c₁ login previous hc₁ ⟨n, g, hstage, hreply⟩ id c hc hnames)
        rw [hclose] at hopen
        cases hopen
      · obtain ⟨-, rfl⟩ : g = g' ∧ some previous = previous' := by simpa [hreply] using hreply'
        exact .inl hafter

theorem Sessions.shards_step (hstep : s.step shards ev = some s')
    (h : ∀ id c, s.connections.get id = some c → c.shardId < shards c.inst) :
    ∀ id c, s'.connections.get id = some c → c.shardId < shards c.inst := by
  intro id c' hc'
  rcases step_connection hstep hc' with ⟨-, inst, shardId, hlt, rfl⟩ | ⟨c, hc, hchanges⟩
  · exact hlt
  rw [hchanges.place.1, hchanges.place.2.1]
  exact h id c hc

/-- A bind that is carried out dooms the other connection that serves the device. -/
theorem Sessions.doomed_of_bind (hwired : Wired s) (hok : FindsPrevious s (.execute n))
    (hstep : s.step shards (.execute n) = some s') {id' : String}
    {login : LoginRequest} (hc : s.connections.get id = some c) (hstage : c.stage = .binding login n)
    (hne : id' ≠ id) (hc' : s.connections.get id' = some c') (hinst : c'.inst = c.inst)
    (hserves : s.Serving (login.uid, login.deviceId) c') (hfree : ¬ s.Doomed id' c') :
    s'.Doomed id' c' := by
  obtain ⟨l, hl, hnames⟩ := hok id c login hc hstage id' c' hne hc' hinst hserves hfree
  obtain ⟨r, hcall⟩ := hwired.binding id c login n hc hstage
  have hpending : r = none := by
    cases r with
    | none => rfl
    | some r => simp [step, hcall] at hstep
  subst hpending
  rw [step_execute hcall hstep]
  refine ⟨id, c, login, l, hc, hinst.symm, hnames, .inr
    ⟨n, s.redis.next (login.uid, login.deviceId), hstage, ?_⟩⟩
  have hdone := (done_answer (r := (s.redis.execute
    (.bindSession login.uid (c.route id login.deviceId))).1) hcall).2 (.inr ⟨rfl, rfl, rfl, rfl⟩)
  refine (replyTo_iff.2 ⟨_, _, hdone⟩).trans (congrArg some ?_)
  exact (Redis.bindSession_spec _ _ _).1.trans (congrArg _ hl)

theorem Sessions.connections_execute (hstep : s.step shards (.execute n) = some s') :
    s'.connections = s.connections := by
  obtain ⟨call, -, h⟩ := Option.bind_eq_some_iff.1 hstep
  split at h <;> cases h
  rfl

theorem Sessions.Exclusive.step (h : s.Exclusive) (hwired : Wired s)
    (hshards : ∀ id c, s.connections.get id = some c → c.shardId < shards c.inst)
    (hok : FindsPrevious s ev) (hstep : s.step shards ev = some s') : s'.Exclusive := by
  intro k id id' c c' hc hc' hinst hserves hserves' hdoomed hdoomed'
  -- a connection that has just been accepted serves nothing
  have before : ∀ {id c}, s'.connections.get id = some c → s'.Serving k c →
      ∃ c₀, s.connections.get id = some c₀ ∧ s.Changes ev s' id c₀ c := by
    intro id c hc hserves
    rcases step_connection hstep hc with ⟨-, inst, shardId, -, rfl⟩ | hold
    · obtain ⟨-, ⟨hne, -⟩ | ⟨login, previous, ⟨n, g, hstage, -⟩, -⟩⟩ := hserves
      · exact absurd rfl hne
      · cases hstage
    · exact hold
  obtain ⟨c₀, hc₀, hchanges⟩ := before hc hserves
  obtain ⟨c₀', hc₀', hchanges'⟩ := before hc' hserves'
  have hinst₀ : c₀'.inst = c₀.inst := by rw [← hchanges.place.1, ← hchanges'.place.1, hinst]
  have hfree : ¬ s.Doomed id c₀ := fun hd =>
    hdoomed (hd.after hstep hok hshards hc₀ hc hchanges hserves.1)
  have hfree' : ¬ s.Doomed id' c₀' := fun hd =>
    hdoomed' (hd.after hstep hok hshards hc₀' hc' hchanges' hserves'.1)
  by_contra hne
  rcases hserves.before hstep hchanges with hold | ⟨login, n, rfl, hstage, hk⟩ <;>
    rcases hserves'.before hstep hchanges' with hold' | ⟨login', n', hev', hstage', hk'⟩
  · exact hne (h k id id' c₀ c₀' hc₀ hc₀' hinst₀ hold hold' hfree hfree')
  · subst hev'
    rw [connections_execute hstep] at hc
    cases hc₀.symm.trans hc
    exact hdoomed (doomed_of_bind hwired hok hstep hc₀' hstage' hne hc₀ hinst₀.symm (hk' ▸ hold) hfree)
  · rw [connections_execute hstep] at hc'
    cases hc₀'.symm.trans hc'
    exact hdoomed' (doomed_of_bind hwired hok hstep hc₀ hstage (.symm hne) hc₀' hinst₀ (hk ▸ hold') hfree')
  · -- one call has one caller
    obtain rfl : n = n' := by simpa using hev'
    obtain ⟨r, hcall⟩ := hwired.binding id c₀ login n hc₀ hstage
    obtain ⟨r', hcall'⟩ := hwired.binding id' c₀' login' n hc₀' hstage'
    simp [hcall] at hcall'
    exact hne hcall'.1

/-- At most one open connection of a Gateway process is bound to a device, when binds find the
    connection they replace. -/
theorem one_session_per_device (h : Path (Sessions.step shards) FindsPrevious {} s) {inst : Instance}
    (hquiet : ∀ id c, s.connections.get id = some c → c.inst = inst → ¬ c.stage.LoggingIn)
    {k : SessionKey} {id id' : String} {c c' : Connection} (hc : s.connections.get id = some c)
    (hc' : s.connections.get id' = some c') (hinst : c.inst = inst) (hinst' : c'.inst = inst)
    (hopen : c.closed = false) (hopen' : c'.closed = false) (hbound : c.BoundTo k)
    (hbound' : c'.BoundTo k) : id = id' := by
  have hinv : s.Exclusive ∧ Wired s ∧ ∀ id c, s.connections.get id = some c → c.shardId < shards c.inst := by
    refine h.invariant (P := fun s => s.Exclusive ∧ Wired s ∧
      ∀ id c, s.connections.get id = some c → c.shardId < shards c.inst) ⟨?_, ?_, ?_⟩ ?_
    · simp [Sessions.Exclusive]
    · exact ⟨by simp, by simp, by simp⟩
    · simp
    · rintro s ev s' - ⟨hexcl, hwired, hshards⟩ hok hstep
      exact ⟨hexcl.step hwired hshards hok hstep, hwired.step hstep, Sessions.shards_step hstep hshards⟩
  -- only logins in progress close connections
  have free : ∀ {id c}, c.inst = inst → ¬ s.Doomed id c := by
    rintro id c hinst ⟨id₁, c₁, login, previous, hc₁, hinst₁, -, hclosing | ⟨n, g, hstage, -⟩⟩
    · exact hquiet id₁ c₁ hc₁ (hinst₁.trans hinst) (hclosing ▸ trivial)
    · exact hquiet id₁ c₁ hc₁ (hinst₁.trans hinst) (hstage ▸ trivial)
  exact hinv.1 k id id' c c' hc hc' (hinst'.trans hinst.symm) ⟨hopen, .inl hbound⟩ ⟨hopen', .inl hbound'⟩
    (free hinst) (free hinst')

/-- The bind of a login is carried out, and the login goes on to its end. -/
def loggedIn (id : String) (call : ℕ) : List SessionEvent :=
  [.execute call, .connection id (.resume 0), .connection id (.resume 0), .execute (call + 1),
    .connection id (.resume 0)]

instance (l : SessionLease) (id : String) (c : Connection) : Decidable (l.Names id c) :=
  inferInstanceAs (Decidable (_ ∧ _))

/-- Every bind finds the lease of each other open connection, and no login fails. -/
def findsPrevious (s : Sessions) : SessionEvent → Bool
  | .execute n => s.connections.rows.all fun (id, c) =>
      match c.stage with
      | .binding login call => call ≠ n || s.connections.rows.all fun (id', c') =>
          id' = id || c'.closed || (s.redis.lease (login.uid, login.deviceId)).any (·.Names id' c')
      | _ => true
  | .connection _ (.fault _) => false
  | _ => true

theorem findsPrevious_spec (s : Sessions) (ev : SessionEvent) (h : findsPrevious s ev = true) :
    FindsPrevious s ev := by
  cases ev with
  | execute n =>
    intro id c login hc hstage id' c' hne hc' _ hserves _
    have hrow := List.all_eq_true.1 h (id, c) (Table.mem_rows.2 hc)
    simp only [hstage, ne_eq, not_true_eq_false, decide_false, Bool.false_or] at hrow
    have hrow' := List.all_eq_true.1 hrow (id', c') (Table.mem_rows.2 hc')
    simpa [hne, hserves.1, Option.any_eq_true] using hrow'
  | connection id e =>
    cases e with
    | fault => cases h
    | _ => trivial
  | _ => trivial

/-- A device logs in on a second connection, which closes the first one. -/
def takeover : List SessionEvent :=
  loggingIn "a" ⟨"g", "i"⟩ ++ loggedIn "a" 0 ++ loggingIn "b" ⟨"g", "i"⟩ ++ [.execute 2,
    .connection "b" (.resume 0), .closePrevious "b", .connection "b" (.resume 0), .execute 3,
    .connection "b" (.resume 0)]

theorem one_session_per_device_after_takeover : ∃ (s : Sessions) (c : Connection),
    Path (Sessions.step fun _ => 1) FindsPrevious {} s ∧ s.connections.get "b" = some c ∧
      c.closed = false ∧ c.BoundTo (1, "phone") ∧
      ∀ id c', s.connections.get id = some c' → c'.inst = ⟨"g", "i"⟩ → c'.closed = false →
        c'.BoundTo (1, "phone") → id = "b" := by
  have hrun : ∃ (s : Sessions) (c : Connection),
      takeover.foldlM (fun s e => if findsPrevious s e then Sessions.step (fun _ => 1) s e else none)
        ({} : Sessions) = some s ∧
      s.connections.get "b" = some c ∧ c.inst = ⟨"g", "i"⟩ ∧ c.closed = false ∧ c.BoundTo (1, "phone") ∧
      s.connections.rows.map (fun e => e.2.stage) = [.reading, .reading] :=
    ⟨_, _, rfl, rfl, rfl, rfl, ⟨by decide, rfl⟩, rfl⟩
  obtain ⟨s, c, hrun, hb, hinst, hopen, hbound, hstages⟩ := hrun
  have hpath := Path.here.checked findsPrevious_spec hrun
  refine ⟨s, c, hpath, hb, hopen, hbound, fun id c' hc' hinst' hopen' hbound' => ?_⟩
  refine one_session_per_device hpath (fun id c hc _ => ?_) hc' hb hinst' hinst hopen' hopen hbound' hbound
  have hmem : c.stage ∈ s.connections.rows.map (fun e => e.2.stage) :=
    List.mem_map.2 ⟨(id, c), Table.mem_rows.2 hc, rfl⟩
  rw [hstages] at hmem
  obtain hreading : c.stage = .reading := by simpa using hmem
  exact hreading ▸ (by rintro ⟨⟩)

/-- A connection stays open without a lease, and its device logs in on another one. -/
def expiredLogin : List SessionEvent :=
  loggingIn "a" ⟨"g", "i"⟩ ++ loggedIn "a" 0 ++ [.elapse 60001] ++ loggingIn "b" ⟨"g", "i"⟩ ++
    loggedIn "b" 2

theorem two_sessions_of_a_device : ∃ (s : Sessions) (c c' : Connection), s.Runs (fun _ => 1) ∧
    s.connections.get "a" = some c ∧ s.connections.get "b" = some c' ∧ c.inst = c'.inst ∧
    c.closed = false ∧ c'.closed = false ∧ c.BoundTo (1, "phone") ∧ c'.BoundTo (1, "phone") ∧
    ∀ id c, s.connections.get id = some c → ¬ c.stage.LoggingIn := by
  have hrun : ∃ (s : Sessions) (c c' : Connection), s.Runs (fun _ => 1) ∧
      s.connections.get "a" = some c ∧ s.connections.get "b" = some c' ∧ c.inst = c'.inst ∧
      c.closed = false ∧ c'.closed = false ∧ c.BoundTo (1, "phone") ∧ c'.BoundTo (1, "phone") ∧
      s.connections.rows.map (fun e => e.2.stage) = [.reading, .reading] :=
    ⟨_, _, _, ⟨expiredLogin, rfl⟩, rfl, rfl, rfl, rfl, rfl, ⟨by decide, rfl⟩, ⟨by decide, rfl⟩, rfl⟩
  obtain ⟨s, c, c', hs, ha, hb, hinst, hopen, hopen', hbound, hbound', hstages⟩ := hrun
  refine ⟨s, c, c', hs, ha, hb, hinst, hopen, hopen', hbound, hbound', fun id c hc => ?_⟩
  have hmem : c.stage ∈ s.connections.rows.map (fun e => e.2.stage) :=
    List.mem_map.2 ⟨(id, c), Table.mem_rows.2 hc, rfl⟩
  rw [hstages] at hmem
  obtain hreading : c.stage = .reading := by simpa using hmem
  exact hreading ▸ (by rintro ⟨⟩)

end Imm
