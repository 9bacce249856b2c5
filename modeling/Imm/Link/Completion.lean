import Imm.Link.Lines

/-! Every forwarded command completes once. A ticket is pending or completed, and that once, whatever
    happens. A result that reaches a link was made for a command of that link; it is the one that the
    pending entry waits for, as long as no other command under way on the link has its request id. The
    Gateway makes sure of that while the other command is pending too, but after a cancel it no longer
    knows of it (`NoReuse`). -/

namespace Imm

open Steps List

namespace LinkSystem

variable {s u : LinkSystem} {l : ℕ}

/-! ### Whole runs -/

/-- Result `r` was made by Message for command `n`, which came on the stream of the link it was sent on;
    it carries the id the client gave its request. -/
def Answered (s : LinkSystem) (n : ℕ) (r : CommandResult) : Prop :=
  ∃ (l : ℕ) (c : CommandEnvelope) (clientId : String) (i t j : ℕ) (q : RequestContext) (response : Packet),
    s.gateway.sent[n]? = some (l, c) ∧ c.requestId = correlation c.connectionId clientId ∧
    (s.gateway.links l).peer = some (i, t) ∧ (s.servers i).requests[j]? = some q ∧ q.origin.token = t ∧
    q.command = c ∧ q.response = some response ∧
    r = { MessageServer.resultOf c response with requestId := clientId }

/-- What holds between events. -/
structure Kept (s : LinkSystem) : Prop extends Sound s where
  /-- no command stands twice in the line of its link -/
  line : ∀ l, ((s.track l).map (·.ticket)).Nodup
  /-- and every command in it was sent on the link -/
  sent : ∀ l, ∀ c ∈ s.track l, s.gateway.sent[c.ticket]? = some (l, c)
  /-- a pending command is under way, or its stream is ending -/
  waits : ∀ k p, (k, p) ∈ s.gateway.pending →
    (k, p.ticket) ∈ s.outstanding p.link ∨ s.Ending p.link
  /-- nothing else under way on its link has its request id -/
  own : ∀ k p n, (k, p) ∈ s.gateway.pending → (k, n) ∈ s.outstanding p.link → n = p.ticket
  answered : ∀ n r, (n, .result r) ∈ s.gateway.completions → s.Answered n r

/-- The request id of a command that is sent is not that of one that was given up and is still under
    way on the link. -/
def NoReuse (s : LinkSystem) : LinkEvent → Prop
  | .gateway (.sendCommand command) =>
    let k := (s.gateway.stamp command).requestId
    ∀ l n, s.gateway.selectGrpcLink command.conversationId = some l → (k, n) ∈ s.outstanding l →
      ∃ p, (k, p) ∈ s.gateway.pending
  | _ => True

variable {p : PendingCommand} {r : CommandResult} {e : LinkEvent}

theorem Sound.pending_link (hs : s.Sound) {k : String}
    (hp : (k, p) ∈ s.gateway.pending) : p.link < s.gateway.created := by
  obtain ⟨c, hc, -⟩ := hs.gateway.entries k p hp
  exact hs.gateway.sentOn p.link c (mem_of_getElem? hc)

theorem Answered.mono {n : ℕ} (h : s.Answered n r)
    (hsent : ∀ x, s.gateway.sent[n]? = some x → u.gateway.sent[n]? = some x)
    (hpeer : ∀ l i t, (s.gateway.links l).peer = some (i, t) → (u.gateway.links l).peer = some (i, t))
    (hrequests : ∀ (i j : ℕ) (q : RequestContext), (s.servers i).requests[j]? = some q →
      ∃ q', (u.servers i).requests[j]? = some q' ∧ q.Becomes q') : u.Answered n r := by
  obtain ⟨l, c, clientId, i, t, j, q, response, hn, hid, hl, hq, htoken, hcommand, hresponse, hr⟩ := h
  obtain ⟨q', hq', hb⟩ := hrequests i j q hq
  exact ⟨l, c, clientId, i, t, j, q', response, hsent _ hn, hid, hpeer l i t hl, hq',
    by rw [hb.origin, htoken], hb.command.trans hcommand, hb.response _ hresponse, hr⟩

/-- A result that a link reads answers the command that waits for it. -/
theorem Kept.result_own (hs : s.Kept) (hincoming : s.incoming l = some (.commandResult r))
    (hp : (r.requestId, p) ∈ s.gateway.pending) (hlink : p.link = l) :
    s.Answered p.ticket { r with requestId := p.clientRequestId } := by
  unfold incoming at hincoming
  split at hincoming
  · cases hincoming
  rename_i i t hpeer
  have hmem : r ∈ ((s.servers i).streams t).results := by
    unfold Stream.results
    obtain ⟨wire, hwire⟩ := head?_eq_some_iff.1 hincoming
    rw [hwire]
    simp [MessageToGatewayFrame.result?]
  have hhas := (hs.peers l i t hpeer).1
  obtain ⟨q, hq, response, hresponse, hr⟩ := (hs.servers i).results t hhas r hmem
  have hticket : r.ticket = p.ticket := by
    refine hs.own _ p _ hp ?_
    rw [hlink, outstanding_some hpeer, mem_append, MessageServer.mem_holding]
    exact .inr (.inr (.inr ⟨r, hmem, rfl⟩))
  have hcommand : q.command ∈ s.track l := by
    rw [track_some hpeer]
    refine mem_append_left _ (mem_append_left _ ?_)
    exact mem_map.2 ⟨q, hq, rfl⟩
  have hsent := hs.sent l _ hcommand
  obtain ⟨c, hc, -, hid⟩ := hs.gateway.entries _ p hp
  have hqticket : q.command.ticket = p.ticket := by
    rw [← hticket, hr]
    rfl
  rw [hqticket, hc] at hsent
  cases hsent
  obtain ⟨hqmem, htoken⟩ := MessageServer.mem_requestsOf.1 hq
  obtain ⟨j, hj⟩ := mem_iff_getElem?.1 hqmem
  refine ⟨_, _, p.clientRequestId, i, t, j, q, response, hc, ?_, hlink ▸ hpeer, hj, htoken, rfl,
    hresponse, ?_⟩
  · rw [← hid, hr]
    rfl
  · rw [hr]

theorem completes_result {entry : String × PendingCommand}
    (h : s.completes e entry = some (.result r)) : ∃ l r',
      s.incoming l = some (.commandResult r') ∧ entry.1 = r'.requestId ∧ entry.2.link = l ∧
      r = { r' with requestId := entry.2.clientRequestId } := by
  cases e with
  | gateway e =>
    cases e with
    | cancel connectionId =>
      simp only [completes, GatewayEvent.completes] at h
      split at h <;> cases h
    | done l =>
      simp only [completes, GatewayEvent.completes] at h
      split at h <;> cases h
    | _ => cases h
  | toGateway l forwarded =>
    obtain ⟨frame, hframe, hcompleted⟩ := Option.bind_eq_some_iff.1 h
    cases frame with
    | commandResult r' =>
      simp only [completedBy] at hcompleted
      split at hcompleted
      · rename_i hentry
        cases hcompleted
        exact ⟨l, r', hframe, hentry.1, hentry.2, rfl⟩
      · cases hcompleted
    | clientForward envelope =>
      simp only [completedBy] at hcompleted
      split at hcompleted <;> cases hcompleted
    | _ => cases hcompleted
  | _ => cases h

theorem completes_delivered {k : String}
    (h : (k, p.ticket) ∈ s.delivers e p.link) : (s.completes e (k, p)).isSome := by
  cases e with
  | toGateway l forwarded =>
    simp only [delivers] at h
    split at h
    · rename_i hl
      obtain ⟨r, hr, hlabel⟩ := mem_map.1 h
      obtain ⟨frame, hframe, hresult⟩ := Option.bind_eq_some_iff.1 (Option.mem_toList.1 hr)
      cases frame with
      | commandResult r' =>
        cases hresult
        have hid : r.requestId = k := congrArg Prod.fst hlabel
        rw [completes_toGateway hframe]
        simp [completedBy, hid, hl]
      | _ => cases hresult
    · cases h
  | _ => cases h

/-- A command is sent: it joins the line of its link, under an id that nothing else there has. -/
theorem Kept.send (hs : s.Kept) (hsound : u.Sound) {command : CommandEnvelope}
    (hfresh : NoReuse s (.gateway (.sendCommand command))) (hsends : s.gateway.Sends u.gateway l command)
    (hservers : u.servers = s.servers) : u.Kept := by
  obtain ⟨htrack, houtstanding, hending, hsame⟩ := send_track hsends hservers
  obtain ⟨bytes, hpending⟩ := hsends.pending
  have hticket : (s.gateway.stamp command).ticket = s.gateway.sent.length := rfl
  have hsent : ∀ (n : ℕ) x, s.gateway.sent[n]? = some x → u.gateway.sent[n]? = some x := by
    intro n x hx
    rw [hsends.sent, List.getElem?_append_left (List.getElem?_eq_some_iff.1 hx).1, hx]
  have hlt : ∀ l', ∀ c ∈ s.track l', c.ticket < s.gateway.sent.length := fun l' c hc =>
    (List.getElem?_eq_some_iff.1 (hs.sent l' c hc)).1
  refine ⟨hsound, ?_, ?_, ?_, ?_, ?_⟩
  · intro l'
    by_cases hl : l' = l
    · subst hl
      rw [htrack, map_append, nodup_append]
      refine ⟨hs.line l', by simp, ?_⟩
      rintro n hn n' hn' rfl
      obtain ⟨c, hc, rfl⟩ := mem_map.1 hn
      simp only [map_cons, map_nil, mem_singleton, hticket] at hn'
      exact absurd (hlt l' c hc) (by omega)
    · rw [(hsame l' hl).views.1]
      exact hs.line l'
  · intro l' c hc
    by_cases hl : l' = l
    · subst hl
      rw [htrack, mem_append, mem_singleton] at hc
      rcases hc with hc | rfl
      · exact hsent _ _ (hs.sent l' c hc)
      rw [hsends.sent, hticket]
      simp
    · rw [(hsame l' hl).views.1] at hc
      exact hsent _ _ (hs.sent l' c hc)
  · intro k p hp
    rw [hpending, mem_append, mem_singleton] at hp
    rcases hp with hp | hp
    · by_cases hl : p.link = l
      · rw [hl]
        exact (hl ▸ hs.waits k p hp).imp (fun h => (houtstanding _).2 (.inl h)) hending
      rw [(hsame _ hl).views.2.1]
      exact (hs.waits k p hp).imp_right (hsame _ hl).views.2.2
    · cases hp
      exact .inl ((houtstanding _).2 (.inr rfl))
  · intro k p n hp hn
    rw [hpending, mem_append, mem_singleton] at hp
    rcases hp with hp | hp
    · by_cases hl : p.link = l
      · rw [hl] at hn
        rcases (houtstanding _).1 hn with hn | hn
        · exact hs.own k p n hp (hl ▸ hn)
        -- the new id is not pending
        exact absurd hp (by rw [show k = _ from congrArg Prod.fst hn]; exact hsends.unused p)
      · rw [(hsame _ hl).views.2.1] at hn
        exact hs.own k p n hp hn
    · cases hp
      rcases (houtstanding _).1 hn with hn | hn
      · obtain ⟨p, hp⟩ := hfresh l n hsends.selected hn
        exact absurd hp (hsends.unused p)
      · exact congrArg Prod.snd hn
  · intro n r hr
    rw [hsends.completions] at hr
    refine (hs.answered n r hr).mono (hsent n) ?_ fun i j q hq => ⟨q, by rw [hservers, hq], rfl, rfl,
      fun _ h => h⟩
    intro l' i t hpeer
    by_cases hl : l' = l
    · subst hl
      rw [hsends.peer, hpeer]
    · rw [hsends.others l' hl, hpeer]

/-- Whatever else happens takes commands out of the lines, and completes those that leave. -/
theorem Kept.settle (hs : s.Kept) (hsound : u.Sound) (hfollows : s.Follows u (s.delivers e))
    (hsettles : s.gateway.Settles u.gateway (s.completes e)) : u.Kept := by
  refine ⟨hsound, fun l => (hs.line l).sublist ((hfollows.track l).map _), ?_, ?_, ?_, ?_⟩
  · intro l c hc
    rw [hsettles.sent]
    exact hs.sent l c ((hfollows.track l).subset hc)
  · intro k p hp
    have hnone : s.completes e (k, p) = none := by
      rw [hsettles.pending, mem_filter] at hp
      simpa using hp.2
    have hlink := hs.pending_link (hsettles.subset hp)
    rcases hs.waits k p (hsettles.subset hp) with hwait | hend
    · rcases hfollows.lasting _ hlink _ hwait with h | h | h
      · exact .inl h
      · exact absurd (completes_delivered h) (by simp [hnone])
      · exact .inr h
    · exact .inr (hfollows.ending _ hlink hend)
  · intro k p n hp hn
    exact hs.own k p n (hsettles.subset hp) (hfollows.outstanding _ hn)
  · intro n r hr
    have hmono : ∀ n r, s.Answered n r → u.Answered n r := fun n r h =>
      h.mono (fun x hx => by rw [hsettles.sent, hx]) hfollows.peer hfollows.requests
    rw [hsettles.completions, mem_append] at hr
    rcases hr with hr | hr
    · exact hmono n r (hs.answered n r hr)
    obtain ⟨⟨k, p⟩, hp, hcompletion⟩ := mem_filterMap.1 hr
    obtain ⟨c, hc, heq⟩ := Option.map_eq_some_iff.1 hcompletion
    cases heq
    obtain ⟨l, r', hincoming, hkey, hlink, rfl⟩ := completes_result hc
    subst hkey
    exact hmono _ _ (hs.result_own hincoming hp hlink)

theorem Kept.step (hs : s.Kept) (hfresh : NoReuse s e) (h : s.step e = some u) : u.Kept := by
  obtain ⟨hsound, ⟨command, l, rfl, hsends, hservers⟩ | ⟨hfollows, hsettles⟩⟩ := step_cases hs.toSound h
  · exact hs.send hsound hfresh hsends hservers
  · exact hs.settle hsound hfollows hsettles

theorem start_kept (options : GatewayOptions) (servers : ℕ → MessageOptions) :
    (start options servers).Kept where
  gateway := GatewayDriver.start_sound options
  servers i := MessageServer.start_sound (servers i)
  peers l i t h := by cases h
  line l := nodup_nil
  sent l c hc := by cases hc
  waits k p hp := by cases hp
  own k p n hp := by cases hp
  answered n r hr := by cases hr

/-- Command `n` of the Gateway is request `j` of shard `i`. -/
def Dispatched (s : LinkSystem) (n i j : ℕ) : Prop :=
  ∃ (l t : ℕ) (q : RequestContext), (s.gateway.links l).peer = some (i, t) ∧
    (s.servers i).requests[j]? = some q ∧ q.origin.token = t ∧ q.command.ticket = n

theorem Kept.dispatched_once (hs : s.Kept) {n i j i' j' : ℕ} (h : s.Dispatched n i j)
    (h' : s.Dispatched n i' j') : i = i' ∧ j = j' := by
  obtain ⟨l, t, q, hpeer, hq, htoken, hn⟩ := h
  obtain ⟨l', t', q', hpeer', hq', htoken', hn'⟩ := h'
  have hline : ∀ {l i t j : ℕ} {q : RequestContext}, (s.gateway.links l).peer = some (i, t) →
      (s.servers i).requests[j]? = some q → q.origin.token = t → q.command.ticket = n →
      s.gateway.sent[n]? = some (l, q.command) := by
    intro l i t j q hpeer hq htoken hn
    rw [← hn]
    refine hs.sent l _ ?_
    rw [track_some hpeer]
    refine mem_append_left _ (mem_append_left _ (mem_map.2 ⟨q, ?_, rfl⟩))
    exact MessageServer.mem_requestsOf.2 ⟨mem_of_getElem? hq, htoken⟩
  have hsent := (hline hpeer hq htoken hn).symm.trans (hline hpeer' hq' htoken' hn')
  simp only [Option.some.injEq, Prod.mk.injEq] at hsent
  obtain ⟨rfl, -⟩ := hsent
  rw [hpeer] at hpeer'
  cases hpeer'
  refine ⟨rfl, ?_⟩
  -- within a stream, the requests are in the order of the line
  have hnodup := hs.line l
  rw [track_some hpeer] at hnodup
  have hrequests : (((s.servers i).requestsOf t).map fun q => q.command.ticket).Nodup := by
    refine hnodup.sublist ?_
    simp only [MessageServer.received, map_append, map_map, append_assoc]
    exact sublist_append_left _ _
  have hpairs : (s.servers i).requests.Pairwise fun q q' => q.origin.token = t → q'.origin.token = t →
      q.command.ticket ≠ q'.command.ticket := by
    simpa [List.Nodup, MessageServer.requestsOf, pairwise_map, pairwise_filter] using hrequests
  rw [pairwise_iff_getElem] at hpairs
  obtain ⟨hj, rfl⟩ := List.getElem?_eq_some_iff.1 hq
  obtain ⟨hj', rfl⟩ := List.getElem?_eq_some_iff.1 hq'
  rcases lt_trichotomy j j' with hlt | heq | hgt
  · exact absurd (hn.trans hn'.symm) (hpairs j j' hj hj' hlt htoken htoken')
  · exact heq
  · exact absurd (hn'.trans hn.symm) (hpairs j' j hj' hj hgt htoken' htoken)

/-- A pending command stays pending, or the event completes it. -/
theorem Kept.settled (hs : s.Kept) (h : s.step e = some u)
    {entry : String × PendingCommand} (hentry : entry ∈ s.gateway.pending) :
    s.completes e entry = none ∧ entry ∈ u.gateway.pending ∨
      ∃ c, s.completes e entry = some c ∧ (entry.2.ticket, c) ∈ u.gateway.completions := by
  obtain ⟨-, ⟨command, l, rfl, hsends, -⟩ | ⟨-, hsettles⟩⟩ := step_cases hs.toSound h
  · obtain ⟨bytes, hpending⟩ := hsends.pending
    refine .inl ⟨rfl, ?_⟩
    rw [hpending]
    exact mem_append_left _ hentry
  · cases hc : s.completes e entry with
    | none =>
      refine .inl ⟨rfl, ?_⟩
      rw [hsettles.pending]
      exact mem_filter.2 ⟨hentry, by rw [hc]; rfl⟩
    | some c =>
      refine .inr ⟨c, rfl, ?_⟩
      rw [hsettles.completions]
      refine mem_append_right _ (mem_filterMap.2 ⟨entry, hentry, ?_⟩)
      rw [hc]
      rfl

end LinkSystem

open LinkSystem in
/-- Every ticket is pending or has been completed, and that once: a pending command is under way or its
    stream is ending, and it is completed by its result, by the end of its link or by a cancel of its
    connection. A result that completes it was made by Message for that very command. Message
    dispatches no command twice and replies to none twice. -/
theorem commands_complete_once (options : GatewayOptions) (servers : ℕ → MessageOptions)
    {s : LinkSystem} (h : Path step NoReuse (start options servers) s) :
    (∀ n < s.gateway.sent.length,
      (s.gateway.pending.map (·.2.ticket) ++ s.gateway.completions.map (·.1)).count n = 1) ∧
    (∀ k p, (k, p) ∈ s.gateway.pending →
      (k, p.ticket) ∈ s.outstanding p.link ∨ s.Ending p.link) ∧
    (∀ e u, s.step e = some u → ∀ entry ∈ s.gateway.pending,
      s.completes e entry = none ∧ entry ∈ u.gateway.pending ∨
      ∃ c, s.completes e entry = some c ∧ (entry.2.ticket, c) ∈ u.gateway.completions) ∧
    (∀ n r, (n, .result r) ∈ s.gateway.completions → s.Answered n r) ∧
    (∀ n i j i' j', s.Dispatched n i j → s.Dispatched n i' j' → i = i' ∧ j = j') ∧
    ∀ i, ((s.servers i).replies.map (·.1)).Nodup := by
  have hs : s.Kept := h.invariant (start_kept options servers) fun t e u _ ht hok hstep => ht.step hok hstep
  refine ⟨fun n hn => ?_, hs.waits, fun e u hstep entry => hs.settled hstep, hs.answered,
    fun n i j i' j' => hs.dispatched_once, fun i => (hs.servers i).once⟩
  rw [hs.gateway.tickets.count_eq, count_range]
  exact if_pos hn

/-! ### Runs -/

namespace LinkSystem

/-- A Gateway shard and Message shards with one shard a node. -/
def deployment : LinkSystem :=
  start GatewayDriver.shardOptions fun _ => {
    nodeId := "m", shards := 1, shardId := 0
    frameSize := fun _ => 120, requestSize := fun _ => 200, parses := fun _ _ => true }

/-- Link 0 to shard 0 is opened, called and registered. -/
def registering : List LinkEvent := [
  .gateway (.openLink "m" ⟨"host", 7000⟩ 1),
  .connect 0 0 [],
  .gateway (.write 0),
  .gateway (.written 0 true),
  .toMessage 0,
  .message 0 (.stream 1 .process),
  .message 0 (.stream 1 .write),
  .message 0 (.stream 1 (.written true)),
  .toGateway 0 ⟨.UNSPECIFIED, false⟩]

/-- A request of the connection with id `r`. -/
def sending (operation : ClientOperation) : LinkEvent :=
  .gateway (.sendCommand {
    requestId := "r", actorUid := 1, connectionId := GatewayDriver.alice, connectionGeneration := 1
    operation, conversationId := 0, packet := [], actorDeviceId := "phone" })

/-- The first command that waits at link 0 is answered, and the link reads the result. -/
def answering : List LinkEvent := [
  .gateway (.write 0),
  .gateway (.written 0 true),
  .toMessage 0,
  .message 0 (.stream 1 .process),
  .message 0 (.respond 0 {}),
  .message 0 (.stream 1 .write),
  .message 0 (.stream 1 (.written true)),
  .toGateway 0 ⟨.UNSPECIFIED, false⟩]

/-- A check of `NoReuse`. -/
def noReuse (s : LinkSystem) : LinkEvent → Bool
  | .gateway (.sendCommand command) =>
    match s.gateway.selectGrpcLink command.conversationId with
    | none => true
    | some l => (s.outstanding l).all (·.1 ≠ (s.gateway.stamp command).requestId)
  | _ => true

theorem noReuse_spec (s : LinkSystem) (e : LinkEvent) (h : noReuse s e = true) : NoReuse s e := by
  unfold noReuse at h
  split at h
  · intro l n hl hn
    split at h
    · rename_i hnone
      rw [hnone] at hl
      cases hl
    rename_i l' hselect
    rw [hselect] at hl
    cases hl
    simpa using all_eq_true.1 h _ hn
  · rename_i hother
    unfold NoReuse
    split
    · rename_i command
      exact absurd rfl (hother command)
    · trivial

/-- A command is sent and answered. -/
def answered : List LinkEvent := registering ++ [sending .SEND_TEXT] ++ answering

/-- The connection goes, a second command of it is sent that was already on its way to the driver, and
    then the first one is answered. -/
def reused : List LinkEvent :=
  registering ++ [sending .SEND_TEXT, .gateway (.cancel GatewayDriver.alice), sending .QUIT_GROUP] ++ answering

end LinkSystem

open LinkSystem in
theorem commands_complete_once_answered : ∃ s r, Path step NoReuse deployment s ∧
    s.gateway.completions = [(0, .result r)] ∧ r.requestId = "r" ∧ s.Answered 0 r := by
  obtain ⟨s, hrun, r, hr, hid⟩ : ∃ s, answered.foldlM
      (fun s e => if noReuse s e then step s e else none) deployment = some s ∧
      ∃ r, s.gateway.completions = [(0, .result r)] ∧ r.requestId = "r" := ⟨_, rfl, _, rfl, rfl⟩
  have hpath := Path.here.checked noReuse_spec hrun
  refine ⟨s, r, hpath, hr, hid, ?_⟩
  exact (commands_complete_once _ _ hpath).2.2.2.1 0 r (by simp [hr])

open LinkSystem in
/-- The second command is completed with the result of the first, and Message has not seen it yet. -/
theorem command_completed_by_another : ∃ s r, reused.foldlM step deployment = some s ∧
    (1, .result r) ∈ s.gateway.completions ∧ ¬ s.Answered 1 r := by
  obtain ⟨s, hrun, r, c, hr, hticket, hsent, hc⟩ : ∃ s, reused.foldlM step deployment = some s ∧
      ∃ r c, s.gateway.completions = [(0, .stopped), (1, .result r)] ∧ r.ticket = 0 ∧
        s.gateway.sent[1]? = some (0, c) ∧ c.ticket = 1 := ⟨_, rfl, _, _, rfl, rfl, rfl, rfl⟩
  refine ⟨s, r, hrun, by simp [hr], ?_⟩
  rintro ⟨l, c', clientId, i, t, j, q, response, hsent', -, -, -, -, -, -, hresult⟩
  rw [hsent] at hsent'
  cases hsent'
  have hmade : r.ticket = c.ticket := by
    rw [hresult]
    rfl
  omega

end Imm
