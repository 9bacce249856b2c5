import Imm.Session.Steps
import Imm.Schemes.Fence
import Imm.Schemes.Paths

/-! Leases are fencing tokens. The generations of a device number the leases its binds have made, one
    of which may be stored; so every run of the sessions is, for every device, a run of a fence. What a
    connection refreshes or clears is a lease it has bound itself, and the generation alone tells
    whether it is the stored one. -/

namespace Imm

open Remote Fencing

/-- The call `n` of `w` was a bind for a device of `uid`, and it made the lease `l`. -/
def Grants (calls : List RedisCall) (w : Caller) (n : ℕ) (uid : ℤ) (l : SessionLease) : Prop :=
  ∃ route previous, Done calls n w (.bindSession uid route) (.bound l.generation previous) ∧
    l = { route with generation := l.generation }

section grants

variable {calls calls' : List RedisCall} {w w' : Caller} {n m : ℕ} {uid : ℤ} {l : SessionLease}

theorem Grants.grows (h : Grants calls w n uid l) (hgrows : Grows calls calls') :
    Grants calls' w n uid l := by
  obtain ⟨route, previous, hdone, hl⟩ := h
  exact ⟨route, previous, hdone.grows hgrows, hl⟩

theorem grants_send {command : RedisCommand} :
    Grants (send calls w' command) w n uid l ↔ Grants calls w n uid l := by
  simp [Grants]

theorem grants_answer {command : RedisCommand} {r : RedisReply} (h : calls[m]? = some ⟨w', command, none⟩) :
    Grants (answer calls m r) w n uid l ↔ Grants calls w n uid l ∨
      n = m ∧ w = w' ∧ ∃ route previous, command = .bindSession uid route ∧
        r = .bound l.generation previous ∧ l = { route with generation := l.generation } := by
  simp only [Grants, done_answer h]
  constructor
  · rintro ⟨route, previous, hdone | ⟨rfl, rfl, rfl, rfl⟩, hl⟩
    · exact .inl ⟨route, previous, hdone, hl⟩
    · exact .inr ⟨rfl, rfl, route, previous, rfl, rfl, hl⟩
  · rintro (⟨route, previous, hdone, hl⟩ | ⟨rfl, rfl, route, previous, rfl, rfl, hl⟩)
    · exact ⟨route, previous, .inl hdone, hl⟩
    · exact ⟨route, previous, .inr ⟨rfl, rfl, rfl, rfl⟩, hl⟩

end grants

/-! ### Connections use their own leases -/

/-- The caller refreshes or clears a lease it has bound itself. -/
def Carries (calls : List RedisCall) (w : Caller) (command : RedisCommand) : Prop :=
  ∀ uid route, command = .refreshSession uid route ∨ command = .clearSession uid route →
    ∃ n, Grants calls w n uid route

/-- What connections hold and send comes from their own binds. -/
structure Wired (s : Sessions) : Prop where
  held : ∀ id c, s.connections.get id = some c → (c.uid ≠ 0 ∨ c.stage.Past) →
    ∃ n, Grants s.calls (.connection id) n c.uid c.lease
  binding : ∀ id c login n, s.connections.get id = some c → c.stage = .binding login n →
    ∃ r, s.calls[n]? = some ⟨.connection id, .bindSession login.uid (c.route id login.deviceId), r⟩
  carried : ∀ call ∈ s.calls, Carries s.calls call.caller call.command

namespace Sessions

variable {shards : Instance → ℕ} {s s' : Sessions} {ev : SessionEvent}

theorem step_grows (h : s.step shards ev = some s') : Grows s.calls s'.calls := by
  rcases step_redis h with ⟨-, hsame | ⟨w, command, hsend, -⟩⟩ | ⟨ms, rfl⟩ | ⟨n, w, command, -, hn, rfl⟩
  · rw [hsame]
    exact .refl _
  · rw [hsend]
    exact grows_send _ _ _
  · exact .refl _
  · exact grows_answer hn

end Sessions

theorem replyTo_eq_some {calls : List RedisCall} {n : ℕ} {r : RedisReply} {w : Caller}
    {command : RedisCommand} {reply : Option RedisReply} (hn : calls[n]? = some ⟨w, command, reply⟩)
    (h : replyTo calls n = some r) : Done calls n w command r := by
  obtain rfl : reply = some r := by simpa [replyTo, hn] using h
  exact hn

theorem Connection.Keeps.held {c c' : Connection} (h : c.Keeps c') (hheld : c'.uid ≠ 0 ∨ c'.stage.Past) :
    c.uid ≠ 0 ∨ c.stage.Past := by
  rcases hheld with huid | hpast
  · exact .inl (h.uid ▸ huid)
  rcases h.stage with hsame | hsettled
  · exact .inr (hsame ▸ hpast)
  · cases hstage : c'.stage <;> simp [hstage, Stage.Past, Stage.Settled] at hpast hsettled

namespace Wired

variable {shards : Instance → ℕ} {s s' : Sessions} {ev : SessionEvent}

theorem held_step (h : Wired s) (hstep : s.step shards ev = some s') {id : String} {c' : Connection}
    (hc' : s'.connections.get id = some c') (hheld : c'.uid ≠ 0 ∨ c'.stage.Past) :
    ∃ n, Grants s'.calls (.connection id) n c'.uid c'.lease := by
  have hgrows := Sessions.step_grows hstep
  -- a lease that was held before is one of the connection's own still
  have old : ∀ {c}, s.connections.get id = some c → (c.uid ≠ 0 ∨ c.stage.Past) → c'.uid = c.uid →
      c'.lease = c.lease → ∃ n, Grants s'.calls (.connection id) n c'.uid c'.lease := by
    intro c hc hheld huid hlease
    obtain ⟨n, hn⟩ := h.held id c hc hheld
    exact ⟨n, huid ▸ hlease ▸ hn.grows hgrows⟩
  rcases Sessions.step_connection hstep hc' with ⟨-, inst, shardId, -, rfl⟩ | ⟨c, hc, hchanges⟩
  · rcases hheld with huid | hpast
    · exact absurd rfl huid
    · cases hpast
  cases hchanges with
  | same => exact old hc hheld rfl rfl
  | closed => exact old hc hheld rfl rfl
  | passed hev hstage _ _ => exact old hc (.inr (hstage ▸ trivial)) rfl rfl
  | moved hev hmove hcalls =>
    cases Connection.step_moves hmove with
    | idle hkeeps => exact old hc (hkeeps.held hheld) hkeeps.uid hkeeps.lease
    | refreshes hkeeps _ => exact old hc (hkeeps.held hheld) hkeeps.uid hkeeps.lease
    | clears hkeeps _ => exact old hc (hkeeps.held hheld) hkeeps.uid hkeeps.lease
    | binds hstage => exact old hc (hheld.imp_right False.elim) rfl rfl
    | bound hstage hreply =>
      obtain ⟨r, hcall⟩ := h.binding id c _ _ hc hstage
      exact ⟨_, _, _, (replyTo_eq_some hcall hreply).grows hgrows, rfl⟩

theorem binding_step (h : Wired s) (hstep : s.step shards ev = some s') {id : String} {c' : Connection}
    {login : LoginRequest} {n : ℕ} (hc' : s'.connections.get id = some c')
    (hstage' : c'.stage = .binding login n) :
    ∃ r, s'.calls[n]? = some ⟨.connection id, .bindSession login.uid (c'.route id login.deviceId), r⟩ := by
  have old : ∀ {c}, s.connections.get id = some c → c.stage = .binding login n → c'.inst = c.inst →
      c'.shardId = c.shardId → ∃ r, s'.calls[n]? =
        some ⟨.connection id, .bindSession login.uid (c'.route id login.deviceId), r⟩ := by
    intro c hc hstage hinst hshard
    obtain ⟨r, hr⟩ := h.binding id c login n hc hstage
    obtain ⟨r', hr', -⟩ := Sessions.step_grows hstep n _ _ _ hr
    exact ⟨r', by rw [hr', Connection.route, Connection.route, hinst, hshard]⟩
  have kept : ∀ {c : Connection}, s.connections.get id = some c → c.Keeps c' → ∃ r, s'.calls[n]? =
        some ⟨.connection id, .bindSession login.uid (c'.route id login.deviceId), r⟩ := by
    intro c hc hkeeps
    rcases hkeeps.stage with hsame | hsettled
    · exact old hc (hsame.symm.trans hstage') hkeeps.inst hkeeps.shardId
    rw [hstage'] at hsettled
    cases hsettled
  rcases Sessions.step_connection hstep hc' with ⟨-, inst, shardId, -, rfl⟩ | ⟨c, hc, hchanges⟩
  · cases hstage'
  cases hchanges with
  | same => exact old hc hstage' rfl rfl
  | closed => exact old hc hstage' rfl rfl
  | passed hev hstage _ _ => cases hstage'
  | moved hev hmove hcalls =>
    cases Connection.step_moves hmove with
    | idle hkeeps => exact kept hc hkeeps
    | refreshes hkeeps _ => exact kept hc hkeeps
    | clears hkeeps _ => exact kept hc hkeeps
    | binds hstage =>
      cases hstage'
      exact ⟨none, by simp [hcalls, Sessions.sent, send, Connection.route]⟩
    | @bound _ _ _ _ previous hstage hreply => cases previous <;> cases hstage'

theorem carried_step (h : Wired s) (hstep : s.step shards ev = some s') :
    ∀ call ∈ s'.calls, Carries s'.calls call.caller call.command := by
  have old : ∀ call ∈ s.calls, Carries s'.calls call.caller call.command := by
    intro call hcall uid route hcommand
    obtain ⟨n, hn⟩ := h.carried call hcall uid route hcommand
    exact ⟨n, hn.grows (Sessions.step_grows hstep)⟩
  rcases Sessions.step_redis hstep with ⟨-, hsame | ⟨w, command, hsend, hsends⟩⟩ | ⟨ms, rfl⟩ |
    ⟨n, w, command, -, hn, rfl⟩
  · rw [hsame] at old ⊢
    exact old
  · rw [hsend] at old ⊢
    refine (forall_send).2 ⟨old, ?_⟩
    intro uid route hcommand
    cases hsends with
    | members => simp at hcommand
    | get => simp at hcommand
    | remove => simp at hcommand
    | connection hc hmoves =>
      simp only [grants_send]
      cases hmoves with
      | binds => simp at hcommand
      | refreshes hkeeps hheld =>
        obtain ⟨rfl, rfl⟩ : _ = uid ∧ _ = route := by simpa using hcommand
        exact h.held _ _ hc hheld
      | clears hkeeps hheld =>
        obtain ⟨rfl, rfl⟩ : _ = uid ∧ _ = route := by simpa using hcommand
        exact h.held _ _ hc (.inl hheld)
  · exact old
  · exact forall_answer old

theorem step (h : Wired s) (hstep : s.step shards ev = some s') : Wired s' where
  held _ _ hc' hheld := h.held_step hstep hc' hheld
  binding _ _ _ _ hc' hstage := h.binding_step hstep hc' hstage
  carried := h.carried_step hstep

end Wired

theorem Sessions.Runs.wired {shards : Instance → ℕ} {s : Sessions} (h : s.Runs shards) : Wired s := by
  obtain ⟨evs, hrun⟩ := h
  exact Steps.run_invariant ⟨by simp, by simp, by simp⟩ (fun _ _ _ hpast hstep => hpast.step hstep) hrun

/-! ### The fence of a device -/

/-- A lease and the call that made it. -/
structure Granted where
  call : ℕ
  lease : SessionLease

/-- The fences of devices number leases by their generation. -/
abbrev LeaseFence := Fence fun x : Granted => x.lease.generation

/-- `f` is the fence of the device `k`: the leases its binds have made, the last generation, and the
    lease that is stored. -/
structure Fences (s : Sessions) (k : SessionKey) (f : LeaseFence) : Prop where
  top : s.redis.next k = f.top + 1
  issued : ∀ x, x ∈ f.issued ↔ (∃ w, Grants s.calls w x.call k.1 x.lease) ∧ x.lease.deviceId = k.2
  holder : s.redis.lease k = f.holder.map (·.lease)

variable {shards : Instance → ℕ} {s s' : Sessions} {ev : SessionEvent} {k : SessionKey} {f : LeaseFence}

theorem Fences.init (k : SessionKey) : Fences {} k Fence.new where
  top := rfl
  issued := by simp [Fence.new, Grants, Done]
  holder := rfl

/-- A step that makes no lease for the device and stores none leaves the fence as it is, or drops its
    holder. -/
theorem Fences.stays (h : Fences s k f) (htop : s'.redis.next k = s.redis.next k)
    (hgrants : ∀ w n l, l.deviceId = k.2 → (Grants s'.calls w n k.1 l ↔ Grants s.calls w n k.1 l))
    (hlease : s'.redis.lease k = s.redis.lease k ∨ s'.redis.lease k = none) :
    ∃ f', Step f f' ∧ Fences s' k f' := by
  have hissued : ∀ x, x ∈ f.issued ↔
      (∃ w, Grants s'.calls w x.call k.1 x.lease) ∧ x.lease.deviceId = k.2 := fun x => by
    rw [h.issued]
    constructor
    · rintro ⟨⟨w, hw⟩, hdev⟩
      exact ⟨⟨w, (hgrants w _ _ hdev).2 hw⟩, hdev⟩
    · rintro ⟨⟨w, hw⟩, hdev⟩
      exact ⟨⟨w, (hgrants w _ _ hdev).1 hw⟩, hdev⟩
  rcases hlease with hsame | hnone
  · exact ⟨f, .stay f, htop.trans h.top, hissued, hsame.trans h.holder⟩
  · exact ⟨f.drop, .drop f, htop.trans h.top, hissued, hnone⟩

theorem Fences.bound (h : Fences s k f) {n : ℕ} {w : Caller} {route : SessionLease}
    (hdev : route.deviceId = k.2) (hn : s.calls[n]? = some ⟨w, .bindSession k.1 route, none⟩) :
    ∃ f', Step f f' ∧ Fences { s with
      redis := (s.redis.execute (.bindSession k.1 route)).2
      calls := answer s.calls n (s.redis.execute (.bindSession k.1 route)).1 } k f' := by
  have hk : (k.1, route.deviceId) = k := by rw [hdev]
  obtain ⟨hreply, hlease, hnext⟩ := Redis.bindSession_spec k.1 route s.redis
  rw [hk] at hreply hlease hnext
  let x : Granted := ⟨n, { route with generation := s.redis.next k }⟩
  refine ⟨f.grant x h.top, .grant f x h.top, ?_, ?_, ?_⟩
  · exact (hnext k).trans (by rw [if_pos rfl, h.top]; rfl)
  · intro y
    simp only [Fence.grant, Set.mem_insert_iff, h.issued, Redis.execute, hreply, grants_answer hn]
    constructor
    · rintro (rfl | ⟨⟨w', hw'⟩, hy⟩)
      · exact ⟨⟨w, .inr ⟨rfl, rfl, route, _, rfl, rfl, rfl⟩⟩, hdev⟩
      · exact ⟨⟨w', .inl hw'⟩, hy⟩
    · rintro ⟨⟨w', hw' | ⟨hcall, rfl, route', previous, hroute, hbound, hl⟩⟩, hy⟩
      · exact .inr ⟨⟨w', hw'⟩, hy⟩
      · obtain rfl : route = route' := by simpa using hroute
        obtain ⟨hgen, -⟩ : s.redis.next k = y.lease.generation ∧ _ := by simpa using hbound
        rw [← hgen] at hl
        exact .inl (congrArg₂ Granted.mk hcall hl)
  · exact (hlease k).trans (if_pos rfl)

/-- Every step of the sessions is a step of the fence of every device. -/
theorem Fences.step (h : Fences s k f) (hstep : s.step shards ev = some s') :
    ∃ f', Step f f' ∧ Fences s' k f' := by
  rcases Sessions.step_redis hstep with ⟨hredis, hcalls⟩ | ⟨ms, rfl⟩ | ⟨n, w, command, -, hn, rfl⟩
  · refine h.stays (by rw [hredis]) (fun w n l _ => ?_) (.inl (by rw [hredis]))
    rcases hcalls with hsame | ⟨w', command, hsend, -⟩
    · rw [hsame]
    · rw [hsend, grants_send]
  · exact h.stays rfl (fun _ _ _ _ => Iff.rfl) Redis.lease_elapse
  · by_cases hbind : ∃ uid route, command = .bindSession uid route
    · obtain ⟨uid, route, rfl⟩ := hbind
      by_cases hk : k = (uid, route.deviceId)
      · subst hk
        exact h.bound rfl hn
      -- a bind for another device
      obtain ⟨-, hlease, hnext⟩ := Redis.bindSession_spec uid route s.redis
      refine h.stays ((hnext k).trans (if_neg hk)) (fun w' m l hl => ?_) (.inl ((hlease k).trans (if_neg hk)))
      rw [grants_answer hn, or_iff_left_iff_imp]
      rintro ⟨-, -, route', previous, hroute, -, hgen⟩
      obtain ⟨rfl, rfl⟩ : uid = k.1 ∧ route = route' := by simpa using hroute
      rw [hgen] at hl
      exact (hk (Prod.ext rfl hl.symm)).elim
    · have hother : ∀ uid route, command ≠ .bindSession uid route :=
        fun uid route hc => hbind ⟨uid, route, hc⟩
      obtain ⟨hlease, hnext⟩ := Redis.execute_other hother
      refine h.stays (hnext k) (fun w' m l _ => ?_) (hlease k)
      rw [grants_answer hn, or_iff_left_iff_imp]
      rintro ⟨-, -, route', previous, hroute, -⟩
      exact absurd hroute (hother _ _)

theorem Fences.run (h : Fences s k f) {evs : List SessionEvent} {t : Sessions}
    (hrun : evs.foldlM (Sessions.step shards) s = some t) :
    ∃ g, Relation.ReflTransGen Step f g ∧ Fences t k g := by
  refine Steps.run_invariant (P := fun t => ∃ g, Relation.ReflTransGen Step f g ∧ Fences t k g)
    ⟨f, .refl, h⟩ ?_ hrun
  rintro t e u ⟨g, hfg, hg⟩ hstep
  obtain ⟨g', hgg', hg'⟩ := hg.step hstep
  exact ⟨g', hfg.tail hgg', hg'⟩

theorem Sessions.Runs.fences (h : s.Runs shards) (k : SessionKey) : ∃ f, Fences s k f := by
  obtain ⟨evs, hrun⟩ := h
  obtain ⟨f, -, hf⟩ := (Fences.init k).run hrun
  exact ⟨f, hf⟩

/-- The stored lease is the only one of its generation. -/
theorem Sessions.Runs.same_lease (h : s.Runs shards) {w : Caller} {n : ℕ} {l l' : SessionLease}
    (hl : s.redis.lease k = some l) (hgrants : Grants s.calls w n k.1 l') (hdev : l'.deviceId = k.2)
    (hgen : l.generation = l'.generation) : l = l' := by
  obtain ⟨f, hf⟩ := h.fences k
  obtain ⟨x, hx, rfl⟩ := Option.map_eq_some_iff.1 (hf.holder.symm.trans hl)
  have hy : (⟨n, l'⟩ : Granted) ∈ f.issued := (hf.issued _).2 ⟨⟨w, hgrants⟩, hdev⟩
  exact congrArg Granted.lease (f.inj x (f.valid x hx) _ hy hgen)

/-- Session leases are fenced: no two binds get one generation, the generations of the leases stored
    for a device increase, a refresh or clear with another lease than the stored one does nothing, and
    the end of a connection deletes no lease but one it has bound. -/
theorem leases_fenced (h : s.Runs shards) (k : SessionKey) :
    (∀ w w' n m l l', Grants s.calls w n k.1 l → Grants s.calls w' m k.1 l' → l.deviceId = k.2 →
      l'.deviceId = k.2 → l.generation = l'.generation → n = m) ∧
    (∀ (evs : List SessionEvent) t ev u l l', evs.foldlM (Sessions.step shards) s = some t →
      t.step shards ev = some u → s.redis.lease k = some l → u.redis.lease k = some l' → t.redis.lease k ≠ some l' →
      l.generation < l'.generation) ∧
    (∀ n w command route l s', s.calls[n]? = some ⟨w, command, none⟩ →
      command = .refreshSession k.1 route ∨ command = .clearSession k.1 route → route.deviceId = k.2 →
      s.redis.lease k = some l → route ≠ l → s.step shards (.execute n) = some s' →
      s'.redis = s.redis ∧ Done s'.calls n w command (.integer 0)) ∧
    ∀ n id uid route l s', s.calls[n]? = some ⟨.connection id, .clearSession uid route, none⟩ →
      s.step shards (.execute n) = some s' → s.redis.lease k = some l → s'.redis.lease k ≠ some l →
      ∃ m, Grants s.calls (.connection id) m k.1 l := by
  obtain ⟨f, hf⟩ := h.fences k
  refine ⟨?_, ?_, ?_, ?_⟩
  · intro w w' n m l l' hl hl' hdev hdev' hgen
    have hx : (⟨n, l⟩ : Granted) ∈ f.issued := (hf.issued _).2 ⟨⟨w, hl⟩, hdev⟩
    have hy : (⟨m, l'⟩ : Granted) ∈ f.issued := (hf.issued _).2 ⟨⟨w', hl'⟩, hdev'⟩
    exact congrArg Granted.call (f.inj _ hx _ hy hgen)
  · intro evs t ev u l l' hrun hstep hl hl' hnew
    obtain ⟨g, hfg, hg⟩ := hf.run hrun
    obtain ⟨g', hgg', hg'⟩ := hg.step hstep
    obtain ⟨x, hx, rfl⟩ := Option.map_eq_some_iff.1 (hf.holder.symm.trans hl)
    obtain ⟨y, hy, rfl⟩ := Option.map_eq_some_iff.1 (hg'.holder.symm.trans hl')
    refine hgg'.overtakes hy (fun hsame => hnew ?_) (issued_mono hfg (f.valid x hx))
    rw [hg.holder, hsame]
    rfl
  · intro n w command route l s' hn hcommand hdev hl hne hstep
    have hk : (k.1, route.deviceId) = k := by rw [hdev]
    obtain ⟨m, hm⟩ := h.wired.carried _ (List.mem_of_getElem? hn) k.1 route hcommand
    have hgen : l.generation ≠ route.generation := fun hgen => hne (h.same_lease hl hm hdev hgen).symm
    have hlease : s.redis.lease (k.1, route.deviceId) = some l := by rw [hk, hl]
    have hstale := Redis.execute_stale hlease hgen
    have hexec : s.redis.execute command = (.integer 0, s.redis) := by
      rcases hcommand with rfl | rfl
      · exact hstale.1
      · exact hstale.2
    rw [Sessions.step_execute hn hstep, hexec]
    exact ⟨rfl, (done_answer hn).2 (.inr ⟨rfl, rfl, rfl, rfl⟩)⟩
  · intro n id uid route l s' hn hstep hl hgone
    rw [Sessions.step_execute hn hstep] at hgone
    obtain ⟨rfl, hgen⟩ := Redis.clear_own hl hgone
    obtain ⟨m, hm⟩ := h.wired.carried _ (List.mem_of_getElem? hn) uid route (.inr rfl)
    exact ⟨m, h.same_lease hl hm rfl hgen ▸ hm⟩

/-- A client connects to a Gateway and logs in, up to its bind. -/
def loggingIn (id : String) (inst : Instance) : List SessionEvent :=
  [.accept id inst 0, .connection id (.request ⟨1, "token", "phone", false, "", 0, "", ""⟩),
    .connection id (.checked true), .connection id (.checked true), .connection id (.checked true)]

/-- A device that logs in again gets a higher generation. -/
theorem leases_fenced_on_second_login : ∃ (s t u : Sessions) (l l' : SessionLease),
    s.Runs (fun _ => 1) ∧ (loggingIn "b" ⟨"g", "i"⟩).foldlM (Sessions.step fun _ => 1) s = some t ∧
      t.step (fun _ => 1) (.execute 1) = some u ∧ s.redis.lease (1, "phone") = some l ∧
      u.redis.lease (1, "phone") = some l' ∧ l.generation < l'.generation := by
  have hrun : ∃ (s t u : Sessions) (l l' : SessionLease), s.Runs (fun _ => 1) ∧
      (loggingIn "b" ⟨"g", "i"⟩).foldlM (Sessions.step fun _ => 1) s = some t ∧
      t.step (fun _ => 1) (.execute 1) = some u ∧ s.redis.lease (1, "phone") = some l ∧
      u.redis.lease (1, "phone") = some l' ∧ t.redis.lease (1, "phone") ≠ some l' :=
    ⟨_, _, _, _, _, ⟨loggingIn "a" ⟨"g", "i"⟩ ++ [.execute 0], rfl⟩, rfl, rfl, rfl, rfl, by decide⟩
  obtain ⟨s, t, u, l, l', hs, ht, hu, hl, hl', hnew⟩ := hrun
  exact ⟨s, t, u, l, l', hs, ht, hu, hl, hl',
    (leases_fenced hs (1, "phone")).2.1 _ t _ u l l' ht hu hl hl' hnew⟩

end Imm
