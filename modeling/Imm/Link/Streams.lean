import Imm.Link.System

/-! What a Message shard does with the commands of a stream. Reading apart, a step makes up no command
    and no result; it moves a command from the frame that was read to the requests, and from there to
    the results of the stream it came on; and it loses none unless the stream is stopping
    (`MessageServer.Advances`). The last point rests on the table of streams: a stream that is not the
    one its key names is stopping (`MessageServer.Sound`). -/

namespace Imm

open List

open Function (update update_self update_of_ne)

/-! ### One stream -/

namespace Stream

structure Sound (t : ℕ) (x : Stream) : Prop where
  token : x.route.token = t
  ends : x.finishing = true → x.stopping = true
  done : x.finished = true → x.stopping = true
  turns : x.reading = true → x.frame = none

/-- `x` becomes `y` and gets no command and no result; it loses some only if it is stopping then. -/
structure Retains (x y : Stream) : Prop where
  link : y.link = x.link
  stopping : x.stopping = true → y.stopping = true
  frame : y.frame = x.frame ∨ y.frame = none
  commands : y.stopping = false → y.commands = x.commands
  results : y.results.Sublist x.results
  lasting : y.stopping = false → y.results = x.results

/-- And it keeps its place in the table. -/
structure Keeps (x y : Stream) : Prop extends Retains x y where
  route : y.route = x.route
  registered : y.registered = x.registered
  finished : y.finished = x.finished
  ends : (x.finishing = true → x.stopping = true) → y.finishing = true → y.stopping = true
  turns : (x.reading = true → x.frame = none) → y.reading = true → y.frame = none

variable {x y z : Stream} {t : ℕ}

theorem Retains.running (h : x.Retains y) (hy : y.stopping = false) : x.stopping = false :=
  Bool.eq_false_iff.2 fun hx => absurd (h.stopping hx) (by simp [hy])

theorem Retains.refl (x : Stream) : x.Retains x where
  link := rfl
  stopping h := h
  frame := .inl rfl
  commands _ := rfl
  results := .refl _
  lasting _ := rfl

theorem Retains.trans (h : x.Retains y) (h' : y.Retains z) : x.Retains z where
  link := h'.link.trans h.link
  stopping hx := h'.stopping (h.stopping hx)
  frame := by
    rcases h'.frame with hz | hz
    · rw [hz]
      exact h.frame
    · exact .inr hz
  commands hz := by rw [h'.commands hz, h.commands (h'.running hz)]
  results := h'.results.trans h.results
  lasting hz := by rw [h'.lasting hz, h.lasting (h'.running hz)]

theorem commands_sublist (h : y.frame = x.frame ∨ y.frame = none) : y.commands.Sublist x.commands := by
  unfold Stream.commands
  rcases h with hy | hy
  · rw [hy]
  rw [hy]
  exact nil_sublist _

theorem Keeps.refl (x : Stream) : x.Keeps x where
  toRetains := .refl x
  route := rfl
  registered := rfl
  finished := rfl
  ends h := h
  turns h := h

theorem Keeps.trans (h : x.Keeps y) (h' : y.Keeps z) : x.Keeps z where
  toRetains := h.toRetains.trans h'.toRetains
  route := h'.route.trans h.route
  registered := h'.registered.trans h.registered
  finished := h'.finished.trans h.finished
  ends hx := h'.ends (h.ends hx)
  turns hx := h'.turns (h.turns hx)

theorem Keeps.sound (h : x.Keeps y) (hx : x.Sound t) : y.Sound t where
  token := by rw [h.route, hx.token]
  ends := h.ends hx.ends
  done hy := h.stopping (hx.done (h.finished ▸ hy))
  turns := h.turns hx.turns

/-- `x` becomes `y` in its place in the table. -/
structure Stays (x y : Stream) : Prop where
  route : y.route = x.route
  registered : y.registered = x.registered
  link : y.link = x.link
  stopping : x.stopping = true → y.stopping = true

theorem Stays.refl (x : Stream) : x.Stays x := ⟨rfl, rfl, rfl, fun h => h⟩

theorem Keeps.stays (h : x.Keeps y) : x.Stays y := ⟨h.route, h.registered, h.link, h.stopping⟩

theorem Stays.running (h : x.Stays y) (hy : y.stopping = false) : x.stopping = false :=
  Bool.eq_false_iff.2 fun hx => absurd (h.stopping hx) (by simp [hy])

theorem keeps_stop (x : Stream) : x.Keeps x.stop := by
  unfold stop
  split
  · exact Keeps.refl x
  unfold finish
  split <;> refine ⟨⟨?_, ?_, ?_, ?_, ?_, ?_⟩, ?_, ?_, ?_, ?_, ?_⟩ <;>
    simp_all [Stream.commands, Stream.results]

theorem stopping_stop (x : Stream) (hdone : x.finished = true → x.stopping = true) :
    x.stop.stopping = true := by
  unfold stop finish
  split
  · rename_i h
    exact h.elim id hdone
  · split <;> rfl

/-- `x` becomes `y`, and `r` joins its results unless it is stopping then. -/
structure Gains (x y : Stream) (r : CommandResult) : Prop where
  route : y.route = x.route
  registered : y.registered = x.registered
  link : y.link = x.link
  stopping : x.stopping = true → y.stopping = true
  frame : y.frame = x.frame ∨ y.frame = none
  commands : y.stopping = false → y.commands = x.commands
  results : ∀ r' ∈ y.results, r' ∈ x.results ∨ r' = r
  lasting : y.stopping = false → y.results = x.results ++ [r]

theorem Gains.stays {r : CommandResult} (h : x.Gains y r) : x.Stays y :=
  ⟨h.route, h.registered, h.link, h.stopping⟩

theorem Keeps.gains (h : x.Keeps y) (hstop : y.stopping = true) (r : CommandResult) : x.Gains y r where
  route := h.route
  registered := h.registered
  link := h.link
  stopping := h.stopping
  frame := h.frame
  commands := h.commands
  results _ hr := .inl (h.results.subset hr)
  lasting hrun := absurd hstop (by simp [hrun])

theorem gains_queued (x : Stream) (r : CommandResult) :
    x.Gains { x with queued := x.queued ++ [.commandResult r] } r := by
  have hresults : Stream.results { x with queued := x.queued ++ [.commandResult r] } = x.results ++ [r] := by
    simp [Stream.results, MessageToGatewayFrame.result?]
  refine ⟨rfl, rfl, rfl, fun h => h, .inl rfl, fun _ => rfl, fun r' hr => ?_, fun _ => hresults⟩
  rw [hresults] at hr
  simpa using hr

theorem keeps_finish (x : Stream) (hstop : x.stopping = true) : x.Keeps x.finish := by
  unfold finish
  split
  · refine ⟨⟨?_, ?_, ?_, ?_, ?_, ?_⟩, ?_, ?_, ?_, ?_, ?_⟩ <;> simp_all [Stream.commands, Stream.results]
  · exact .refl x

end Stream

/-! ### The server -/

/-- A request stays what it is, and so does its response. -/
structure RequestContext.Becomes (q q' : RequestContext) : Prop where
  origin : q'.origin = q.origin
  command : q'.command = q.command
  response : ∀ p, q.response = some p → q'.response = some p

namespace MessageServer

structure Sound (m : MessageServer) : Prop where
  streams : ∀ t, m.Has t → (m.streams t).Sound t
  /-- a registered stream is the one its key names, or it is stopping -/
  current : ∀ t, m.Has t → (m.streams t).registered = true → (m.streams t).stopping = false →
    m.registered (m.streams t).route.key = some t
  origins : ∀ q ∈ m.requests, m.Has q.origin.token ∧
    (m.streams q.origin.token).registered = true ∧ (m.streams q.origin.token).route = q.origin
  results : ∀ t, m.Has t → ∀ r ∈ (m.streams t).results,
    ∃ q ∈ m.requestsOf t, ∃ p, q.response = some p ∧ r = resultOf q.command p
  stopped : m.stopping = true → ∀ t, m.Has t → (m.streams t).stopping = true
  /-- `reply` is called once for a request -/
  once : (m.replies.map (·.1)).Nodup
  replied : ∀ j ∈ m.replies.map (·.1), ∃ q, m.requests[j]? = some q ∧ q.response.isSome

/-- What the steps of a shard do, reading frames apart. -/
structure Advances (m m' : MessageServer) : Prop where
  tokens : m.nextToken ≤ m'.nextToken
  link : ∀ t, m.Has t → (m'.streams t).link = (m.streams t).link
  stopping : ∀ t, m.Has t → (m.streams t).stopping = true → (m'.streams t).stopping = true
  frame : ∀ t, m.Has t → (m.streams t).frame = none → (m'.streams t).frame = none
  received : ∀ t, m.Has t → (m'.received t).Sublist (m.received t)
  holding : ∀ t, m.Has t → m'.holding t ⊆ m.holding t
  lasting : ∀ t, m.Has t → (m'.streams t).stopping = false → m.holding t ⊆ m'.holding t
  requests : ∀ (j : ℕ) (q : RequestContext), m.requests[j]? = some q →
    ∃ q', m'.requests[j]? = some q' ∧ q.Becomes q'

/-- Only streams change, and they keep what they have. -/
structure Quiet (m m' : MessageServer) : Prop where
  nextToken : m'.nextToken = m.nextToken
  requests : m'.requests = m.requests
  replies : m'.replies = m.replies
  registered : m'.registered = m.registered
  streams : ∀ t, (m.streams t).Keeps (m'.streams t)
  stopped : m'.stopping = true → m.stopping = true ∨ ∀ t, m.Has t → (m'.streams t).stopping = true

variable {m m' m'' : MessageServer} {t : ℕ}

@[simp] theorem streams_setStream (m : MessageServer) (t : ℕ) (x : Stream) :
    (m.setStream t x).streams t = x := update_self _ _ _

theorem streams_setStream_ne (m : MessageServer) {t t' : ℕ} (h : t' ≠ t) (x : Stream) :
    (m.setStream t x).streams t' = m.streams t' := update_of_ne h _ _

theorem Has.mono (h : m.Has t) (htokens : m.nextToken ≤ m'.nextToken) : m'.Has t :=
  ⟨h.1, h.2.trans htokens⟩

theorem Advances.refl (m : MessageServer) : m.Advances m where
  tokens := le_refl _
  link _ _ := rfl
  stopping _ _ h := h
  frame _ _ h := h
  received _ _ := .refl _
  holding _ _ := .refl _
  lasting _ _ _ := .refl _
  requests _ q hq := ⟨q, hq, rfl, rfl, fun _ h => h⟩

theorem Advances.trans (h : m.Advances m') (h' : m'.Advances m'') : m.Advances m'' where
  tokens := h.tokens.trans h'.tokens
  link t ht := (h'.link t (ht.mono h.tokens)).trans (h.link t ht)
  stopping t ht hstop := h'.stopping t (ht.mono h.tokens) (h.stopping t ht hstop)
  frame t ht hframe := h'.frame t (ht.mono h.tokens) (h.frame t ht hframe)
  received t ht := (h'.received t (ht.mono h.tokens)).trans (h.received t ht)
  holding t ht := List.Subset.trans (h'.holding t (ht.mono h.tokens)) (h.holding t ht)
  lasting t ht hrun := by
    have hrun' : (m'.streams t).stopping = false :=
      Bool.eq_false_iff.2 fun hstop =>
        absurd (h'.stopping t (ht.mono h.tokens) hstop) (by simp [hrun])
    exact List.Subset.trans (h.lasting t ht hrun') (h'.lasting t (ht.mono h.tokens) hrun)
  requests j q hq := by
    obtain ⟨q', hq', hb⟩ := h.requests j q hq
    obtain ⟨q'', hq'', hb'⟩ := h'.requests j q' hq'
    exact ⟨q'', hq'', hb'.origin.trans hb.origin, hb'.command.trans hb.command,
      fun p hp => hb'.response p (hb.response p hp)⟩

theorem requestsOf_congr (h : m'.requests = m.requests) (t : ℕ) : m'.requestsOf t = m.requestsOf t := by
  unfold requestsOf
  rw [h]

theorem Advances.of_retains (hnext : m'.nextToken = m.nextToken) (hrequests : m'.requests = m.requests)
    (hstreams : ∀ t, m.Has t → (m.streams t).Retains (m'.streams t)) : m.Advances m' where
  tokens := hnext.ge
  link t ht := (hstreams t ht).link
  stopping t ht := (hstreams t ht).stopping
  frame t ht hframe := by
    rcases (hstreams t ht).frame with hy | hy
    · rw [hy, hframe]
    · exact hy
  received t ht := by
    unfold MessageServer.received
    rw [requestsOf_congr hrequests]
    exact List.Sublist.append_left (Stream.commands_sublist (hstreams t ht).frame) _
  holding t ht := by
    unfold MessageServer.holding MessageServer.running
    rw [requestsOf_congr hrequests]
    have hcommands := (Stream.commands_sublist (hstreams t ht).frame).append
      (.refl (((m.requestsOf t).filter (·.response.isNone)).map (·.command)))
    exact ((hcommands.map (·.label)).append ((hstreams t ht).results.map (·.label))).subset
  lasting t ht hrun := by
    unfold MessageServer.holding MessageServer.running
    rw [requestsOf_congr hrequests, (hstreams t ht).commands hrun, (hstreams t ht).lasting hrun]
    exact .refl _
  requests j q hq := ⟨q, by rw [hrequests, hq], rfl, rfl, fun _ hp => hp⟩

theorem update_related {R : Stream → Stream → Prop} (hrefl : ∀ x, R x x) {streams : ℕ → Stream} {y : Stream}
    (h : R (streams t) y) (t' : ℕ) : R (streams t') (update streams t y t') := by
  by_cases ht : t' = t
  · subst ht
    rwa [update_self]
  rw [update_of_ne ht]
  exact hrefl _

theorem has_congr (h : m'.nextToken = m.nextToken) : m'.Has t ↔ m.Has t := by
  unfold Has
  rw [h]

namespace Sound

variable (hm : m.Sound) (hstays : ∀ t, (m.streams t).Stays (m'.streams t))
include hm hstays

theorem current_stays (htable : m'.registered = m.registered) (ht : m.Has t)
    (hreg : (m'.streams t).registered = true) (hrun : (m'.streams t).stopping = false) :
    m'.registered (m'.streams t).route.key = some t := by
  rw [htable, (hstays t).route]
  exact hm.current t ht ((hstays t).registered ▸ hreg) ((hstays t).running hrun)

theorem origins_stay {q : RequestContext} (hq : q ∈ m.requests) : m.Has q.origin.token ∧
    (m'.streams q.origin.token).registered = true ∧ (m'.streams q.origin.token).route = q.origin := by
  obtain ⟨hhas, hreg, hroute⟩ := hm.origins q hq
  exact ⟨hhas, (hstays _).registered.trans hreg, (hstays _).route.trans hroute⟩

theorem stopped_stays (hstopping : m.stopping = true) (ht : m.Has t) : (m'.streams t).stopping = true :=
  (hstays t).stopping (hm.stopped hstopping t ht)

end Sound

namespace Quiet

theorem has (h : m.Quiet m') : m'.Has t ↔ m.Has t := has_congr h.nextToken

theorem stays (h : m.Quiet m') (t : ℕ) : (m.streams t).Stays (m'.streams t) := (h.streams t).stays

theorem advances (h : m.Quiet m') : m.Advances m' :=
  .of_retains h.nextToken h.requests fun t _ => (h.streams t).toRetains

theorem sound (h : m.Quiet m') (hm : m.Sound) : m'.Sound where
  streams t ht := (h.streams t).sound (hm.streams t (h.has.1 ht))
  current t ht hreg hrun := hm.current_stays h.stays h.registered (h.has.1 ht) hreg hrun
  origins q hq := by
    obtain ⟨hhas, hplace⟩ := hm.origins_stay h.stays (h.requests ▸ hq)
    exact ⟨h.has.2 hhas, hplace⟩
  results t ht r hr := by
    rw [requestsOf_congr h.requests]
    exact hm.results t (h.has.1 ht) r ((h.streams t).results.subset hr)
  stopped hstop t ht := by
    rcases h.stopped hstop with hm' | hall
    · exact hm.stopped_stays h.stays hm' (h.has.1 ht)
    · exact hall t (h.has.1 ht)
  once := by
    rw [h.replies]
    exact hm.once
  replied := by
    rw [h.replies, h.requests]
    exact hm.replied

end Quiet

/-- What every step of a shard keeps and does. -/
def Fares (m m' : MessageServer) : Prop := m'.Sound ∧ m.Advances m'

theorem Fares.trans (h : m.Fares m') (h' : m'.Fares m'') : m.Fares m'' := ⟨h'.1, h.2.trans h'.2⟩

theorem Quiet.fares (h : m.Quiet m') (hm : m.Sound) : m.Fares m' := ⟨h.sound hm, h.advances⟩

/-! ### Streams only -/

theorem quiet_set {x : Stream} (hx : (m.streams t).Keeps x)
    (h : (m'.nextToken, m'.requests, m'.replies, m'.registered, m'.stopping, m'.streams) =
      (m.nextToken, m.requests, m.replies, m.registered, m.stopping, update m.streams t x)) : m.Quiet m' := by
  simp only [Prod.mk.injEq] at h
  obtain ⟨hnext, hrequests, hreplies, htable, hstop, hstreams⟩ := h
  refine ⟨hnext, hrequests, hreplies, htable, fun t' => ?_, fun h => .inl (hstop ▸ h)⟩
  rw [hstreams]
  exact update_related .refl hx t'

theorem stopStream_quiet (m : MessageServer) (t : ℕ) : m.Quiet (m.stopStream t) :=
  quiet_set (Stream.keeps_stop _) rfl

theorem enqueue_quiet {frame : MessageToGatewayFrame} (hframe : frame.result? = none)
    (h : m.enqueue t frame = .ok m') : m.Quiet m' := by
  unfold enqueue at h
  split at h
  · cases h
  split at h
  · cases h
  split at h
  · cases h
  cases h
  refine quiet_set ?_ rfl
  refine ⟨⟨rfl, fun h => h, .inl rfl, fun _ => rfl, ?_, fun _ => ?_⟩, rfl, rfl, rfl, fun h => h,
    fun h => h⟩ <;> simp [Stream.results, hframe]

theorem write_quiet (h : m.write t = some m') : m.Quiet m' := by
  unfold write at h
  dsimp only at h
  split at h
  · cases h
  rename_i frame queued hqueued
  split at h
  · rename_i hstop
    cases h
    refine quiet_set ?_ rfl
    refine ⟨⟨rfl, fun h => h, .inl rfl, fun _ => rfl, ?_, fun hrun => ?_⟩, rfl, rfl, rfl, fun h => h,
      fun h => h⟩
    · unfold Stream.results
      rw [hqueued]
      exact .filterMap _ (.append_left (sublist_cons_self _ _) _)
    · exact absurd hstop (by simp [show (m.streams t).stopping = false from hrun])
  · split at h
    · cases h
    cases h
    refine quiet_set ?_ rfl
    have hsame : (m.streams t).wire ++ [frame] ++ queued =
        (m.streams t).wire ++ (m.streams t).queued := by simp [hqueued]
    refine ⟨⟨rfl, fun h => h, .inl rfl, fun _ => rfl, ?_, fun _ => ?_⟩, rfl, rfl, rfl, fun h => h,
      fun h => h⟩ <;> simp [Stream.results, hsame]

theorem written_quiet {ok : Bool} (h : m.written t ok = some m') : m.Quiet m' := by
  unfold written at h
  dsimp only at h
  split at h
  · cases h
  cases h
  refine quiet_set ?_ rfl
  have hx : (m.streams t).Keeps { m.streams t with writing := none } :=
    ⟨⟨rfl, fun h => h, .inl rfl, fun _ => rfl, .refl _, fun _ => rfl⟩, rfl, rfl, rfl, fun h => h, fun h => h⟩
  refine hx.trans ?_
  generalize ({ m.streams t with writing := none } : Stream) = x
  have hstop : x.Keeps (if ok then x else x.stop) := by
    split
    · exact .refl x
    · exact Stream.keeps_stop x
  refine hstop.trans ?_
  generalize (if ok then x else x.stop) = y
  split
  · rename_i hy
    exact Stream.keeps_finish y hy
  · exact .refl y

theorem beginStop_quiet (hm : m.Sound) :
    m.Quiet { m with stopping := true, streams := fun t => (m.streams t).stop } where
  nextToken := rfl
  requests := rfl
  replies := rfl
  registered := rfl
  streams _ := Stream.keeps_stop _
  stopped _ := .inr fun t ht => Stream.stopping_stop _ (hm.streams t ht).done

/-! ### The table of streams -/

/-- The key of stream `t` comes to name it, and whatever it named is stopping. -/
theorem rekey_fares (hm : m.Sound) {key : StreamKey} (ht : (m.streams t).registered = false)
    (hnext : m'.nextToken = m.nextToken) (hrequests : m'.requests = m.requests)
    (hreplies : m'.replies = m.replies) (hstop : m'.stopping = m.stopping)
    (htable : m'.registered = update m.registered key (some t))
    (hself : (m.streams t).Retains (m'.streams t) ∧ (m'.streams t).Sound t ∧
      ((m'.streams t).registered = true → (m'.streams t).route.key = key))
    (hothers : ∀ t', t' ≠ t → (m.streams t').Keeps (m'.streams t'))
    (hold : ∀ t', m.registered key = some t' → t' ≠ t → m.Has t' → (m'.streams t').stopping = true) :
    m.Fares m' := by
  have hretains : ∀ t', (m.streams t').Retains (m'.streams t') := by
    intro t'
    by_cases h : t' = t
    · subst h
      exact hself.1
    · exact (hothers t' h).toRetains
  have hhas : ∀ t', m'.Has t' ↔ m.Has t' := fun _ => has_congr hnext
  refine ⟨⟨?_, ?_, ?_, ?_, ?_, by rw [hreplies]; exact hm.once,
    by rw [hreplies, hrequests]; exact hm.replied⟩,
    .of_retains hnext hrequests fun t' _ => hretains t'⟩
  · intro t' ht'
    by_cases h : t' = t
    · subst h
      exact hself.2.1
    · exact (hothers t' h).sound (hm.streams t' ((hhas t').1 ht'))
  · intro t' ht' hreg hrun
    rw [htable]
    by_cases h : t' = t
    · subst h
      rw [hself.2.2 hreg, update_self]
    have hcurrent := hm.current t' ((hhas t').1 ht') ((hothers t' h).registered ▸ hreg)
      ((hothers t' h).running hrun)
    rw [(hothers t' h).route]
    -- the stream of this key would have been stopped
    rw [update_of_ne, hcurrent]
    intro hkey
    exact absurd (hold t' (hkey ▸ hcurrent) h ((hhas t').1 ht')) (by simp [hrun])
  · intro q hq
    obtain ⟨hq', hreg, hroute⟩ := hm.origins q (hrequests ▸ hq)
    have hne : q.origin.token ≠ t := by
      intro h
      rw [h, ht] at hreg
      cases hreg
    exact ⟨(hhas _).2 hq', by rw [(hothers _ hne).registered, hreg], by rw [(hothers _ hne).route, hroute]⟩
  · intro t' ht' r hr
    rw [requestsOf_congr hrequests]
    exact hm.results t' ((hhas t').1 ht') r ((hretains t').results.subset hr)
  · intro hstopping t' ht'
    exact (hretains t').stopping (hm.stopped (hstop ▸ hstopping) t' ((hhas t').1 ht'))

theorem stopReplaced_quiet {old : Option ℕ} (h : m.stopReplaced old = .ok m') :
    m.Quiet m' ∧ ∀ t, old = some t → ((m.streams t).finished = true → (m.streams t).stopping = true) →
      (m'.streams t).stopping = true := by
  unfold stopReplaced at h
  split at h
  · cases h
    exact ⟨⟨rfl, rfl, rfl, rfl, fun _ => .refl _, .inl⟩, by simp⟩
  split at h
  · cases h
  rename_i old _
  cases h
  refine ⟨stopStream_quiet m old, ?_⟩
  rintro t ⟨rfl⟩ hdone
  unfold stopStream setStream
  dsimp only
  rw [update_self]
  exact Stream.stopping_stop _ hdone

theorem stopReplaced_stopping {old : Option ℕ} (h : m.stopReplaced old = .ok m') :
    m'.stopping = m.stopping := by
  unfold stopReplaced at h
  split at h
  · cases h
    rfl
  split at h
  · cases h
  cases h
  rfl

theorem claim_retains (x : Stream) (route : StreamRoute) (registered : Bool) :
    x.Retains { x with route, registered } :=
  ⟨rfl, fun h => h, .inl rfl, fun _ => rfl, .refl _, fun _ => rfl⟩

theorem claim_sound {x : Stream} (hx : x.Sound t) {route : StreamRoute} (hroute : route.token = t)
    (registered : Bool) : { x with route, registered }.Sound t :=
  ⟨hroute, hx.ends, hx.done, hx.turns⟩

theorem registerStream_fares (hm : m.Sound) (ht : m.Has t) (registration : RegisterGateway) :
    m.Fares (m.registerStream t registration) := by
  unfold registerStream
  split
  · exact (stopStream_quiet m t).fares hm
  rename_i haccepts
  have hnew : (m.streams t).registered = false := by
    unfold accepts at haccepts
    by_contra h
    simp [h] at haccepts
  have hx := hm.streams t ht
  rw [hx.token]
  dsimp only
  generalize hroute : ({
    gatewayId := registration.gatewayId
    instanceId := registration.instanceId
    shardId := registration.shardId
    token := t } : StreamRoute) = route
  have htoken : route.token = t := by rw [← hroute]
  have hothers : ∀ t', t' ≠ t → (m.claim t route).streams t' = m.streams t' := fun t' h => by
    simp [claim, setStream, update_of_ne h]
  have hself : (m.claim t route).streams t = { m.streams t with route, registered := false } := by
    simp [claim, setStream, ← hnew]
  have htable : (m.claim t route).registered = update m.registered route.key (some t) := by
    simp [claim, setStream, htoken]
  split
  · rename_i herror
    have hstop := stopStream_quiet (m.claim t route) t
    refine rekey_fares hm hnew rfl rfl rfl rfl (hstop.registered.trans htable) ⟨?_, ?_, ?_⟩ ?_ ?_
    · exact (hself ▸ claim_retains _ _ _).trans (hstop.streams t).toRetains
    · exact (hstop.streams t).sound (hself ▸ claim_sound hx htoken false)
    · intro h
      rw [(hstop.streams t).registered, hself] at h
      cases h
    · intro t' h
      exact hothers t' h ▸ hstop.streams t'
    · -- `at` throws only if the old stream has ended
      intro t' hold h hhas
      refine (hstop.streams t').stopping ?_
      rw [hothers t' h]
      unfold stopReplaced at herror
      rw [hold] at herror
      dsimp only at herror
      split at herror
      · rename_i hgone
        rcases hgone with hfinished | hgone
        · exact (hm.streams t' hhas).done (hothers t' h ▸ hfinished)
        · exact absurd hhas hgone
      · cases herror
  · rename_i m' hok
    obtain ⟨hquiet, hreplaced⟩ := stopReplaced_quiet hok
    have hfares : m.Fares (m'.setStream t { m'.streams t with registered := true }) := by
      have hy := (hquiet.streams t).sound (hself ▸ claim_sound hx htoken false)
      have hroute' : (m'.streams t).route = route := by rw [(hquiet.streams t).route, hself]
      refine rekey_fares hm hnew hquiet.nextToken hquiet.requests hquiet.replies ?_
        (hquiet.registered.trans htable) ?_ ?_ ?_
      · exact show m'.stopping = (m.claim t route).stopping from stopReplaced_stopping hok
      · simp only [setStream, update_self]
        refine ⟨?_, ⟨hy.token, hy.ends, hy.done, hy.turns⟩, fun _ => by rw [hroute']⟩
        exact ((hself ▸ claim_retains _ _ _).trans (hquiet.streams t).toRetains).trans (claim_retains _ _ _)
      · intro t' h
        simp only [setStream, update_of_ne h]
        exact hothers t' h ▸ hquiet.streams t'
      · intro t' hold h hhas
        simp only [setStream, update_of_ne h]
        refine hreplaced t' hold ?_
        rw [hothers t' h]
        exact (hm.streams t' hhas).done
    split
    · rename_i henqueue
      exact hfares.trans ((enqueue_quiet rfl henqueue).fares hfares.1)
    · exact hfares.trans ((stopStream_quiet _ t).fares hfares.1)

theorem onDone_fares (hm : m.Sound) (ht : m.Has t) (h : m.onDone t = some m') : m.Fares m' := by
  unfold onDone at h
  dsimp only at h
  split at h
  · rename_i hfinishing
    cases h
    have hx := hm.streams t ht
    have hstop : (m.streams t).stopping = true := hx.ends hfinishing.1
    have hretains : ∀ t', (m.streams t').Retains
        (update m.streams t { m.streams t with finished := true } t') :=
      update_related .refl ⟨rfl, fun h => h, .inl rfl, fun _ => rfl, .refl _, fun _ => rfl⟩
    have hstays : ∀ t', (m.streams t').Stays (update m.streams t { m.streams t with finished := true } t') :=
      update_related .refl ⟨rfl, rfl, rfl, fun h => h⟩
    refine ⟨⟨?_, ?_, fun q hq => hm.origins_stay hstays hq, ?_, fun hstopping t' =>
      hm.stopped_stays hstays hstopping, hm.once, hm.replied⟩,
      .of_retains rfl rfl fun t' _ => hretains t'⟩
    · intro t' ht'
      by_cases h : t' = t
      · subst h
        simp only [setStream, update_self]
        exact ⟨hx.token, hx.ends, fun _ => hstop, hx.turns⟩
      simp only [setStream, update_of_ne h]
      exact hm.streams t' ht'
    · intro t' ht' hreg hrun
      have hcurrent := hm.current t' ht' ((hstays t').registered.symm.trans hreg) ((hstays t').running hrun)
      rw [← (hstays t').route] at hcurrent
      simp only [setStream] at hrun ⊢
      split
      · -- the key that is given up is not the one of a stream that runs
        rename_i hown
        have hne : t' ≠ t := by
          rintro rfl
          exact absurd hstop (by simp [(hstays t').running hrun])
        rw [update_of_ne, hcurrent]
        intro hkey
        rw [hkey, hown.2, hx.token] at hcurrent
        exact hne (Option.some.inj hcurrent).symm
      · exact hcurrent
    · intro t' ht' r hr
      exact hm.results t' ht' r ((hretains t').results.subset hr)
  · cases h

theorem connect_fares (hm : m.Sound) (link : Option ℕ) (peerIdentities : List String) :
    m.Fares (m.connect link peerIdentities) := by
  have hold : ∀ t, m.Has t → (m.connect link peerIdentities).streams t = m.streams t := by
    intro t ht
    exact update_of_ne (by have := ht.2; omega) _ _
  have hnew : ((m.connect link peerIdentities).streams (m.nextToken + 1)).Sound (m.nextToken + 1) ∧
      ((m.connect link peerIdentities).streams (m.nextToken + 1)).registered = false ∧
      ((m.connect link peerIdentities).streams (m.nextToken + 1)).results = [] ∧
      (m.stopping = true → ((m.connect link peerIdentities).streams (m.nextToken + 1)).stopping = true) := by
    simp only [connect, setStream, update_self]
    split <;> refine ⟨⟨?_, ?_, ?_, ?_⟩, ?_, ?_, ?_⟩ <;> simp_all [Stream.stop, Stream.finish, Stream.results]
  have hcases : ∀ t, (m.connect link peerIdentities).Has t → m.Has t ∨ t = m.nextToken + 1 := by
    rintro t ⟨h0, h⟩
    have hle : t ≤ m.nextToken + 1 := h
    rcases Nat.le_succ_iff.1 hle with h | h
    · exact .inl ⟨h0, h⟩
    · exact .inr h
  refine ⟨⟨?_, ?_, ?_, ?_, ?_, hm.once, hm.replied⟩, ?_⟩
  · intro t ht
    rcases hcases t ht with h | rfl
    · rw [hold t h]
      exact hm.streams t h
    · exact hnew.1
  · intro t ht hreg hrun
    rcases hcases t ht with h | rfl
    · rw [hold t h] at hreg hrun ⊢
      exact hm.current t h hreg hrun
    rw [hnew.2.1] at hreg
    cases hreg
  · intro q hq
    obtain ⟨hhas, hreg, horigin⟩ := hm.origins q hq
    rw [hold _ hhas]
    exact ⟨hhas.mono (Nat.le_succ _), hreg, horigin⟩
  · intro t ht r hr
    rcases hcases t ht with h | rfl
    · rw [hold t h] at hr
      exact hm.results t h r hr
    rw [hnew.2.2.1] at hr
    cases hr
  · intro hstopping t ht
    rcases hcases t ht with h | rfl
    · rw [hold t h]
      exact hm.stopped hstopping t h
    · exact hnew.2.2.2 hstopping
  · refine ⟨Nat.le_succ _, ?_, ?_, ?_, ?_, ?_, ?_, ?_⟩
    · intro t ht
      rw [hold t ht]
    · intro t ht
      rw [hold t ht]
      exact fun h => h
    · intro t ht
      rw [hold t ht]
      exact fun h => h
    · intro t ht
      simp only [MessageServer.received, hold t ht]
      exact .refl _
    · intro t ht
      simp only [MessageServer.holding, MessageServer.running, hold t ht]
      exact .refl _
    · intro t ht _
      simp only [MessageServer.holding, MessageServer.running, hold t ht]
      exact .refl _
    · intro j q hq
      exact ⟨q, hq, rfl, rfl, fun _ h => h⟩

/-! ### Requests -/

theorem mem_requestsOf {q : RequestContext} : q ∈ m.requestsOf t ↔ q ∈ m.requests ∧ q.origin.token = t := by
  simp [requestsOf]

theorem mem_running {c : CommandEnvelope} :
    c ∈ m.running t ↔ ∃ q ∈ m.requestsOf t, q.response = none ∧ q.command = c := by
  simp [running, and_assoc]

/-- What is held for a stream: a command that was read, one without a response, or a result. -/
theorem mem_holding {label : String × ℕ} : label ∈ m.holding t ↔
    (∃ c ∈ (m.streams t).commands, c.label = label) ∨
    (∃ q ∈ m.requestsOf t, q.response = none ∧ q.command.label = label) ∨
    ∃ r ∈ (m.streams t).results, r.label = label := by
  unfold holding
  simp only [map_append, append_assoc, mem_append, mem_map, mem_running]
  refine or_congr .rfl (or_congr ⟨?_, ?_⟩ .rfl)
  · rintro ⟨c, ⟨q, hq, hnone, rfl⟩, hlabel⟩
    exact ⟨q, hq, hnone, hlabel⟩
  · rintro ⟨q, hq, hnone, hlabel⟩
    exact ⟨q.command, ⟨q, hq, hnone, rfl⟩, hlabel⟩

/-- The command that was read becomes a request. -/
def dispatched (m : MessageServer) (t : ℕ) (c : CommandEnvelope) : MessageServer :=
  { m.setStream t { m.streams t with frame := none } with
    requests := m.requests ++ [{ origin := (m.streams t).route, command := c }] }

section dispatched

variable {c : CommandEnvelope}

theorem requestsOf_dispatched (hm : m.Sound) (ht : m.Has t) : (m.dispatched t c).requestsOf t =
    m.requestsOf t ++ [{ origin := (m.streams t).route, command := c }] := by
  simp [requestsOf, dispatched, setStream, (hm.streams t ht).token]

theorem requestsOf_dispatched_ne (hm : m.Sound) (ht : m.Has t) {t' : ℕ} (h : t' ≠ t) :
    (m.dispatched t c).requestsOf t' = m.requestsOf t' := by
  simp [requestsOf, dispatched, setStream, (hm.streams t ht).token, Ne.symm h]

theorem dispatched_stays (t' : ℕ) : (m.streams t').Stays ((m.dispatched t c).streams t') :=
  update_related .refl ⟨rfl, rfl, rfl, fun h => h⟩ t'

theorem results_dispatched (t' : ℕ) : ((m.dispatched t c).streams t').results = (m.streams t').results :=
  update_related (R := fun x y => y.results = x.results) (t := t) (y := { m.streams t with frame := none })
    (fun _ => rfl) rfl t'

theorem dispatched_sound (hm : m.Sound) (ht : m.Has t) (hreg : (m.streams t).registered = true) :
    (m.dispatched t c).Sound where
  streams t' ht' := by
    by_cases h : t' = t
    · subst h
      have hx := hm.streams t' ht
      simp only [dispatched, streams_setStream]
      exact ⟨hx.token, hx.ends, hx.done, fun _ => rfl⟩
    · simp only [dispatched, streams_setStream_ne m h]
      exact hm.streams t' ht'
  current t' ht' := hm.current_stays dispatched_stays rfl ht'
  origins q hq := by
    rcases mem_append.1 hq with hq | hq
    · exact hm.origins_stay dispatched_stays hq
    obtain rfl := mem_singleton.1 hq
    rw [(hm.streams t ht).token]
    exact ⟨ht, (dispatched_stays t).registered.trans hreg, (dispatched_stays t).route⟩
  results t' ht' r hr := by
    rw [results_dispatched] at hr
    obtain ⟨q, hq, hp⟩ := hm.results t' ht' r hr
    rw [mem_requestsOf] at hq
    exact ⟨q, mem_requestsOf.2 ⟨mem_append_left _ hq.1, hq.2⟩, hp⟩
  stopped hstopping t' := hm.stopped_stays dispatched_stays hstopping
  once := hm.once
  replied j hj := by
    obtain ⟨q, hq, hp⟩ := hm.replied j hj
    exact ⟨q, (List.getElem?_append_left (List.getElem?_eq_some_iff.1 hq).1).trans hq, hp⟩

theorem holding_dispatched (hm : m.Sound) (ht : m.Has t)
    (hframe : (m.streams t).frame = some (.command c)) (t' : ℕ) (label : String × ℕ) :
    label ∈ (m.dispatched t c).holding t' ↔ label ∈ m.holding t' := by
  rw [mem_holding, mem_holding, results_dispatched]
  by_cases h : t' = t
  · subst h
    have hcommand : (m.streams t').commands = [c] := by
      simp [Stream.commands, hframe, GatewayToMessageFrame.command?]
    have hgone : ((m.dispatched t' c).streams t').commands = [] := by
      simp [dispatched, Stream.commands]
    rw [requestsOf_dispatched hm ht, hcommand, hgone]
    simp only [not_mem_nil, false_and, exists_false, false_or, mem_append, mem_singleton]
    constructor
    · rintro (⟨q, hq | rfl, hnone, hlabel⟩ | hlabel)
      · exact .inr (.inl ⟨q, hq, hnone, hlabel⟩)
      · exact .inl ⟨c, rfl, hlabel⟩
      · exact .inr (.inr hlabel)
    · rintro (⟨c', rfl, hlabel⟩ | ⟨q, hq, hp⟩ | hlabel)
      · exact .inl ⟨_, .inr rfl, rfl, hlabel⟩
      · exact .inl ⟨q, .inl hq, hp⟩
      · exact .inr hlabel
  · rw [requestsOf_dispatched_ne hm ht h]
    simp only [dispatched, streams_setStream_ne m h]

theorem dispatched_advances (hm : m.Sound) (ht : m.Has t)
    (hframe : (m.streams t).frame = some (.command c)) : m.Advances (m.dispatched t c) where
  tokens := le_refl _
  link t' _ := (dispatched_stays t').link
  stopping t' _ := (dispatched_stays t').stopping
  frame t' _ := update_related (R := fun x y => x.frame = none → y.frame = none) (fun _ h => h) (fun _ => rfl) t'
  received t' _ := by
    unfold MessageServer.received
    by_cases h : t' = t
    · subst h
      rw [requestsOf_dispatched hm ht]
      simp [dispatched, Stream.commands, hframe, GatewayToMessageFrame.command?]
    rw [requestsOf_dispatched_ne hm ht h]
    simp only [dispatched, streams_setStream_ne m h]
    exact .refl _
  holding t' _ label := (holding_dispatched hm ht hframe t' label).1
  lasting t' _ _ label := (holding_dispatched hm ht hframe t' label).2
  requests j q hq :=
    ⟨q, (List.getElem?_append_left (List.getElem?_eq_some_iff.1 hq).1).trans hq, rfl, rfl, fun _ h => h⟩

theorem dispatched_fares (hm : m.Sound) (ht : m.Has t) (hframe : (m.streams t).frame = some (.command c))
    (hreg : (m.streams t).registered = true) : m.Fares (m.dispatched t c) :=
  ⟨dispatched_sound hm ht hreg, dispatched_advances hm ht hframe⟩

end dispatched

/-- A reply is queued on the stream of the request, unless that stream is stopping. -/
theorem reply_spec (hm : m.Sound) {route : StreamRoute} (ht : m.Has route.token)
    (hreg : (m.streams route.token).registered = true)
    (hroute : (m.streams route.token).route = route) (frame : MessageToGatewayFrame) :
    ∃ y w, m.reply route frame = { m.setStream route.token y with writes := w } ∧
      (y = { m.streams route.token with queued := (m.streams route.token).queued ++ [frame] } ∨
        y.stopping = true ∧ (m.streams route.token).Keeps y) := by
  have hsame : m = { m.setStream route.token (m.streams route.token) with writes := m.writes } := by
    simp [setStream]
  have hx := hm.streams _ ht
  by_cases hstop : (m.streams route.token).stopping = true
  · refine ⟨m.streams route.token, m.writes, ?_, .inr ⟨hstop, .refl _⟩⟩
    rw [← hsame]
    have henqueue : m.enqueue route.token frame = .error .outOfRange ∨
        m.enqueue route.token frame = .error .stopped := by
      unfold enqueue
      split
      · exact .inl rfl
      · exact .inr rfl
    unfold reply
    split
    · rfl
    · rcases henqueue with h | h <;> rw [h]
  · have hrun : (m.streams route.token).stopping = false := by simpa using hstop
    have hcurrent : m.registered route.key = some route.token := by
      have := hm.current _ ht hreg hrun
      rwa [hroute] at this
    have hup : m.stopping = false :=
      Bool.eq_false_iff.2 fun h => hstop (hm.stopped h _ ht)
    have hpresent : ¬ ((m.streams route.token).finished = true ∨ ¬ m.Has route.token) := by
      rintro (h | h)
      · exact hstop (hx.done h)
      · exact h ht
    unfold reply enqueue
    rw [if_neg (by simp [hup, hcurrent]), if_neg hpresent, if_neg hstop]
    cases m.writes.acquire (m.options.frameSize frame) with
    | none =>
      exact ⟨_, m.writes, rfl, .inr ⟨Stream.stopping_stop _ hx.done, Stream.keeps_stop _⟩⟩
    | some writes => exact ⟨_, writes, rfl, .inl rfl⟩

/-- Request `n` gets its response, and the stream it came on becomes `y`, which has the result. -/
structure Answers (m m' : MessageServer) (n : ℕ) (q : RequestContext) (y : Stream) (response : Packet) : Prop where
  request : m.requests[n]? = some q
  waiting : q.response = none
  gains : (m.streams q.origin.token).Gains y (resultOf q.command response)
  sound : y.Sound q.origin.token
  nextToken : m'.nextToken = m.nextToken
  table : m'.registered = m.registered
  stopping : m'.stopping = m.stopping
  streams : m'.streams = update m.streams q.origin.token y
  requests : m'.requests = m.requests.set n { q with response := some response }
  replies : m'.replies = m.replies ++ [(n, resultOf q.command response)]

namespace Answers

variable {n : ℕ} {q p : RequestContext} {y : Stream} {response : Packet} (h : m.Answers m' n q y response)
include h

theorem self : m'.streams q.origin.token = y := by
  rw [h.streams, update_self]

theorem other (ht : t ≠ q.origin.token) : m'.streams t = m.streams t := by
  rw [h.streams, update_of_ne ht]

theorem has : m'.Has t ↔ m.Has t := has_congr h.nextToken

theorem stays (t : ℕ) : (m.streams t).Stays (m'.streams t) :=
  h.streams ▸ update_related .refl h.gains.stays t

theorem frame (t : ℕ) : (m'.streams t).frame = (m.streams t).frame ∨ (m'.streams t).frame = none :=
  h.streams ▸ update_related (R := fun x y => y.frame = x.frame ∨ y.frame = none) (fun _ => .inl rfl)
    h.gains.frame t

theorem commands (hrun : (m'.streams t).stopping = false) :
    (m'.streams t).commands = (m.streams t).commands := by
  have hall := update_related (R := fun x y => y.stopping = false → y.commands = x.commands) (fun _ _ => rfl)
    h.gains.commands t
  rw [← h.streams] at hall
  exact hall hrun

theorem lt : n < m.requests.length := (List.getElem?_eq_some_iff.1 h.request).1

theorem mem_cases (hp : p ∈ m'.requests) : p ∈ m.requests ∨ p = { q with response := some response } := by
  rw [h.requests] at hp
  exact mem_or_eq_of_mem_set hp

theorem mem_or (hp : p ∈ m.requests) : p ∈ m'.requests ∨ p = q := by
  obtain ⟨j, hj⟩ := mem_iff_getElem?.1 hp
  by_cases hjn : j = n
  · subst hjn
    exact .inr (Option.some.inj (hj.symm.trans h.request))
  refine .inl (mem_iff_getElem?.2 ⟨j, ?_⟩)
  rw [h.requests, getElem?_set_ne (Ne.symm hjn), hj]

theorem answered : { q with response := some response } ∈ m'.requestsOf q.origin.token := by
  refine mem_requestsOf.2 ⟨?_, rfl⟩
  rw [h.requests]
  exact mem_set h.lt _

theorem commandsOf (t : ℕ) : (m'.requestsOf t).map (·.command) = (m.requestsOf t).map (·.command) := by
  obtain ⟨before, after, hbefore, -, hafter⟩ := @List.exists_of_set _ n
    { q with response := some response } _ h.lt
  rw [(List.getElem?_eq_some_iff.1 h.request).2] at hbefore
  unfold requestsOf
  rw [h.requests, hafter, hbefore]
  by_cases ht : q.origin.token = t <;> simp [ht]

theorem results_cases {r : CommandResult} (hr : r ∈ (m'.streams t).results) :
    r ∈ (m.streams t).results ∨ t = q.origin.token ∧ r = resultOf q.command response := by
  by_cases ht : t = q.origin.token
  · subst ht
    rw [h.self] at hr
    exact (h.gains.results r hr).imp_right fun hr => ⟨rfl, hr⟩
  rw [h.other ht] at hr
  exact .inl hr

theorem results_mem {r : CommandResult} (hrun : (m'.streams t).stopping = false)
    (hr : r ∈ (m.streams t).results) : r ∈ (m'.streams t).results := by
  by_cases ht : t = q.origin.token
  · subst ht
    rw [h.self] at hrun ⊢
    rw [h.gains.lasting hrun]
    exact mem_append_left _ hr
  · rwa [h.other ht]

theorem result_mem (hrun : (m'.streams q.origin.token).stopping = false) :
    resultOf q.command response ∈ (m'.streams q.origin.token).results := by
  rw [h.self] at hrun ⊢
  rw [h.gains.lasting hrun]
  exact mem_append_right _ mem_cons_self

theorem soundAfter (hm : m.Sound) : m'.Sound where
  streams t ht := by
    by_cases heq : t = q.origin.token
    · subst heq
      rw [h.self]
      exact h.sound
    rw [h.other heq]
    exact hm.streams t (h.has.1 ht)
  current t ht := hm.current_stays h.stays h.table (h.has.1 ht)
  origins p hp := by
    have horigin : ∃ p' ∈ m.requests, p'.origin = p.origin := by
      rcases h.mem_cases hp with hp | rfl
      · exact ⟨p, hp, rfl⟩
      · exact ⟨q, mem_of_getElem? h.request, rfl⟩
    obtain ⟨p', hp', horigin⟩ := horigin
    obtain ⟨hhas, hplace⟩ := hm.origins_stay h.stays hp'
    rw [← horigin]
    exact ⟨h.has.2 hhas, hplace⟩
  results t ht r hr := by
    rcases h.results_cases hr with hr | ⟨rfl, rfl⟩
    · obtain ⟨p, hp, packet, hpacket, hr⟩ := hm.results t (h.has.1 ht) r hr
      obtain ⟨hp, htoken⟩ := mem_requestsOf.1 hp
      rcases h.mem_or hp with hp | rfl
      · exact ⟨p, mem_requestsOf.2 ⟨hp, htoken⟩, packet, hpacket, hr⟩
      rw [h.waiting] at hpacket
      cases hpacket
    · exact ⟨_, h.answered, response, rfl, rfl⟩
  stopped hstop t ht := hm.stopped_stays h.stays (h.stopping ▸ hstop) (h.has.1 ht)
  once := by
    -- a request that was answered before has a response
    rw [h.replies, map_append, nodup_append]
    refine ⟨hm.once, by simp, ?_⟩
    rintro j hj j' hj' rfl
    obtain ⟨p, hp, hsome⟩ := hm.replied j hj
    simp only [map_cons, map_nil, mem_singleton] at hj'
    rw [hj', h.request] at hp
    cases hp
    simp [h.waiting] at hsome
  replied j hj := by
    rw [h.replies, map_append, mem_append] at hj
    rw [h.requests, getElem?_set, if_pos h.lt]
    rcases hj with hj | hj
    · obtain ⟨p, hp, hsome⟩ := hm.replied j hj
      split
      · exact ⟨_, rfl, rfl⟩
      · exact ⟨p, hp, hsome⟩
    · simp only [map_cons, map_nil, mem_singleton] at hj
      rw [if_pos hj.symm]
      exact ⟨_, rfl, rfl⟩

theorem holding_subset (t : ℕ) : m'.holding t ⊆ m.holding t := by
  intro label hlabel
  rw [mem_holding] at hlabel ⊢
  rcases hlabel with ⟨c, hc, hlabel⟩ | ⟨p, hp, hnone, hlabel⟩ | ⟨r, hr, hlabel⟩
  · exact .inl ⟨c, (Stream.commands_sublist (h.frame t)).subset hc, hlabel⟩
  · obtain ⟨hp, htoken⟩ := mem_requestsOf.1 hp
    rcases h.mem_cases hp with hp | rfl
    · exact .inr (.inl ⟨p, mem_requestsOf.2 ⟨hp, htoken⟩, hnone, hlabel⟩)
    · cases hnone
  · rcases h.results_cases hr with hr | ⟨rfl, rfl⟩
    · exact .inr (.inr ⟨r, hr, hlabel⟩)
    have hq := mem_requestsOf.2 ⟨mem_of_getElem? h.request, rfl⟩
    exact .inr (.inl ⟨q, hq, h.waiting, hlabel⟩)

theorem subset_holding (hrun : (m'.streams t).stopping = false) : m.holding t ⊆ m'.holding t := by
  intro label hlabel
  rw [mem_holding] at hlabel ⊢
  rcases hlabel with ⟨c, hc, hlabel⟩ | ⟨p, hp, hnone, hlabel⟩ | ⟨r, hr, hlabel⟩
  · exact .inl ⟨c, h.commands hrun ▸ hc, hlabel⟩
  · obtain ⟨hmem, rfl⟩ := mem_requestsOf.1 hp
    rcases h.mem_or hmem with hmem | rfl
    · exact .inr (.inl ⟨p, mem_requestsOf.2 ⟨hmem, rfl⟩, hnone, hlabel⟩)
    · exact .inr (.inr ⟨_, h.result_mem hrun, hlabel⟩)
  · exact .inr (.inr ⟨r, h.results_mem hrun hr, hlabel⟩)

theorem advances : m.Advances m' where
  tokens := h.nextToken.ge
  link t _ := (h.stays t).link
  stopping t _ := (h.stays t).stopping
  frame t _ hframe := by
    rcases h.frame t with heq | heq
    · rw [heq, hframe]
    · exact heq
  received t _ := by
    unfold MessageServer.received
    rw [h.commandsOf]
    exact List.Sublist.append_left (Stream.commands_sublist (h.frame t)) _
  holding t _ := h.holding_subset t
  lasting t _ := h.subset_holding
  requests j p hp := by
    rw [h.requests, getElem?_set, if_pos h.lt]
    split
    · rename_i hjn
      subst hjn
      rw [h.request] at hp
      cases hp
      exact ⟨_, rfl, rfl, rfl, fun packet hpacket => by rw [h.waiting] at hpacket; cases hpacket⟩
    · exact ⟨p, hp, rfl, rfl, fun _ hp => hp⟩

end Answers

theorem serviceReply_fares (hm : m.Sound) {n : ℕ} {q : RequestContext} (hq : m.requests[n]? = some q)
    (hnone : q.response = none) (response : Packet) : m.Fares (m.serviceReply n q response) := by
  obtain ⟨ht, hreg, horigin⟩ := hm.origins q (mem_of_getElem? hq)
  obtain ⟨y, w, hreply, hy⟩ := reply_spec hm ht hreg horigin (.commandResult (resultOf q.command response))
  have hx := hm.streams _ ht
  have hgains : (m.streams q.origin.token).Gains y (resultOf q.command response) ∧
      y.Sound q.origin.token := by
    rcases hy with rfl | ⟨hstop, hkeeps⟩
    · exact ⟨Stream.gains_queued _ _, hx.token, hx.ends, hx.done, hx.turns⟩
    · exact ⟨hkeeps.gains hstop _, hkeeps.sound hx⟩
  have hanswers : m.Answers (m.serviceReply n q response) n q y response := by
    refine ⟨hq, hnone, hgains.1, hgains.2, ?_, ?_, ?_, ?_, rfl, rfl⟩ <;>
      simp only [serviceReply, hreply, setStream]
  exact ⟨hanswers.soundAfter hm, hanswers.advances⟩

theorem quiet_budgets (h : (m'.nextToken, m'.requests, m'.replies, m'.registered, m'.stopping, m'.streams) =
    (m.nextToken, m.requests, m.replies, m.registered, m.stopping, m.streams)) : m.Quiet m' := by
  simp only [Prod.mk.injEq] at h
  obtain ⟨hnext, hrequests, hreplies, htable, hstop, hstreams⟩ := h
  exact ⟨hnext, hrequests, hreplies, htable, fun _ => hstreams ▸ .refl _, fun h => .inl (hstop ▸ h)⟩

theorem Fares.clear (h : m.Fares m') (ht : m.Has t) (hframe : (m'.streams t).frame = none)
    (h' : m'.Fares m'') : m.Fares m'' ∧ (m''.streams t).frame = none :=
  ⟨h.trans h', h'.2.frame t (ht.mono h.2.tokens) hframe⟩

theorem submitCommand_fares (hm : m.Sound) (ht : m.Has t) {c : CommandEnvelope}
    (hframe : (m.streams t).frame = some (.command c)) (hreg : (m.streams t).registered = true)
    (h : (m.setStream t { m.streams t with frame := none }).submitCommand (m.streams t).route c = m') :
    m.Fares m' ∧ (m'.streams t).frame = none := by
  have hdispatched := dispatched_fares hm ht hframe hreg
  have hclear : ((m.dispatched t c).streams t).frame = none := by simp [dispatched, setStream]
  have hlast : (m.dispatched t c).requests[m.requests.length]? =
      some { origin := (m.streams t).route, command := c } := by
    simp [dispatched]
  have hanswered (packet : Packet) := hdispatched.clear ht hclear
    (serviceReply_fares hdispatched.1 hlast rfl packet)
  subst h
  unfold submitCommand
  split
  · exact hanswered _
  split
  · exact hanswered _
  split
  · exact hanswered _
  refine hdispatched.clear ht hclear (Quiet.fares ?_ hdispatched.1)
  exact quiet_budgets rfl

theorem keeps_clear (x : Stream) (h : x.stopping = true ∨ x.commands = []) :
    x.Keeps { x with frame := none } := by
  refine ⟨⟨rfl, fun h => h, .inr rfl, fun hrun => ?_, .refl _, fun _ => rfl⟩, rfl, rfl, rfl,
    fun h => h, fun _ _ => rfl⟩
  rcases h with h | h
  · exact absurd h (by simp [show x.stopping = false from hrun])
  · exact h.symm

theorem stop_clear (x : Stream) : Stream.stop { x with frame := none } = { x.stop with frame := none } := by
  unfold Stream.stop Stream.finish
  split
  · rfl
  · split <;> rfl

theorem stopCleared_fares (hm : m.Sound) (ht : m.Has t) :
    m.Fares ((m.setStream t { m.streams t with frame := none }).stopStream t) ∧
      (((m.setStream t { m.streams t with frame := none }).stopStream t).streams t).frame = none := by
  have hstreams : ((m.setStream t { m.streams t with frame := none }).stopStream t).streams =
      update m.streams t { (m.streams t).stop with frame := none } := by
    simp only [stopStream, setStream, update_self, Function.update_idem, stop_clear]
  constructor
  · refine Quiet.fares (quiet_set ?_ (by rw [hstreams]; rfl)) hm
    exact (Stream.keeps_stop _).trans (keeps_clear _ (.inl (Stream.stopping_stop _ (hm.streams t ht).done)))
  · rw [hstreams, update_self]

theorem processFrame_fares (hm : m.Sound) (ht : m.Has t) {frame : GatewayToMessageFrame}
    (hframe : (m.streams t).frame = some frame)
    (h : (m.setStream t { m.streams t with frame := none }).processFrame t frame = m') :
    m.Fares m' ∧ (m'.streams t).frame = none := by
  subst h
  have hregistered : ((m.setStream t { m.streams t with frame := none }).streams t).registered =
      (m.streams t).registered := by simp [setStream]
  by_cases hcommand : ∃ c, frame = .command c
  · obtain ⟨c, rfl⟩ := hcommand
    unfold processFrame
    dsimp only
    split
    · exact stopCleared_fares hm ht
    rename_i hreg
    refine submitCommand_fares hm ht hframe (by simpa using hreg) ?_
    simp [setStream]
  · -- the frame is gone before anything else happens
    have hnone : (m.streams t).commands = [] := by
      unfold Stream.commands
      rw [hframe]
      cases frame with
      | command c => exact absurd ⟨c, rfl⟩ hcommand
      | _ => rfl
    have hquiet : m.Quiet (m.setStream t { m.streams t with frame := none }) :=
      quiet_set (keeps_clear _ (.inr hnone)) rfl
    have hclear : ((m.setStream t { m.streams t with frame := none }).streams t).frame = none := by
      simp [setStream]
    have hfares := hquiet.fares hm
    refine hfares.clear ht hclear ?_
    unfold processFrame
    cases frame with
    | registerGateway registration =>
      exact registerStream_fares hfares.1 (hquiet.has.2 ht) registration
    | command c => exact absurd ⟨c, rfl⟩ hcommand
    | clientForwardAck ack =>
      dsimp only
      split
      · exact (stopStream_quiet _ t).fares hfares.1
      · exact ⟨hfares.1, .refl _⟩
    | heartbeat sentAtUnixMs sequence =>
      dsimp only
      split
      · exact (stopStream_quiet _ t).fares hfares.1
      split
      · rename_i henqueue
        exact (enqueue_quiet rfl henqueue).fares hfares.1
      · exact (stopStream_quiet _ t).fares hfares.1
    | unset =>
      dsimp only
      split <;> exact (stopStream_quiet _ t).fares hfares.1

theorem process_fares (hm : m.Sound) (ht : m.Has t) (h : m.process t = some m') : m.Fares m' := by
  unfold process at h
  split at h
  · cases h
  rename_i hframe
  dsimp only at h
  split at h
  · cases h
    exact (stopCleared_fares hm ht).1
  cases h
  obtain ⟨hfares, hclear⟩ := processFrame_fares hm ht hframe rfl
  refine hfares.trans (Quiet.fares ?_ hfares.1)
  unfold startRead
  split
  · exact quiet_budgets rfl
  refine quiet_set ?_ rfl
  exact ⟨⟨rfl, fun h => h, .inl rfl, fun _ => rfl, .refl _, fun _ => rfl⟩, rfl, rfl, rfl,
    fun h => h, fun _ _ => hclear⟩

theorem stepStream_fares (hm : m.Sound) (ht : m.Has t) {e : StreamEvent}
    (h : m.stepStream t e = some m') : m.Fares m' := by
  cases e with
  | process => exact process_fares hm ht h
  | readFailed =>
    simp only [stepStream] at h
    split at h
    · cases h
      refine Quiet.fares (quiet_set ?_ rfl) hm
      refine Stream.Keeps.trans ?_ (Stream.keeps_stop _)
      exact ⟨⟨rfl, fun h => h, .inl rfl, fun _ => rfl, .refl _, fun _ => rfl⟩, rfl, rfl, rfl,
        fun h => h, fun _ h => by cases h⟩
    · cases h
  | cancelled =>
    cases h
    exact (stopStream_quiet m t).fares hm
  | write => exact (write_quiet h).fares hm
  | written ok => exact (written_quiet h).fares hm
  | done => exact onDone_fares hm ht h

theorem forward_quiet (m : MessageServer) (lease : SessionLease) (envelope : ClientForwardEnvelope) :
    m.Quiet (m.forward lease envelope).1 := by
  unfold forward
  split
  · exact quiet_budgets rfl
  split
  · exact quiet_budgets rfl
  split
  · rename_i henqueue
    exact enqueue_quiet rfl henqueue
  · exact quiet_budgets rfl
  · exact quiet_budgets rfl

/-- A step of a shard keeps it sound, and is an advance. -/
theorem step_fares (hm : m.Sound) {e : MessageEvent} (h : m.step e = some m') : m.Fares m' := by
  cases e with
  | connect peerIdentities =>
    cases h
    exact connect_fares hm none peerIdentities
  | stream t e =>
    simp only [step] at h
    split at h
    · rename_i ht
      exact stepStream_fares hm ht h
    · cases h
  | respond n response =>
    simp only [step, respond] at h
    split at h
    · cases h
    rename_i hq
    split at h
    · cases h
    rename_i hnone
    cases h
    exact serviceReply_fares hm hq (by simpa using hnone) response
  | finish n =>
    simp only [step, MessageServer.finish] at h
    split at h
    · split at h
      · cases h
      cases h
      refine Quiet.fares ?_ hm
      exact quiet_budgets rfl
    · cases h
  | forward lease envelope =>
    cases h
    exact (forward_quiet m lease envelope).fares hm
  | beginStop =>
    cases h
    exact (beginStop_quiet hm).fares hm
  | stopService =>
    cases h
    refine Quiet.fares ?_ hm
    exact quiet_budgets rfl

/-! ### Frames come and go -/

theorem set_sound (hm : m.Sound) {y : Stream} (hy : y.Sound t) (hroute : y.route = (m.streams t).route)
    (hregistered : y.registered = (m.streams t).registered)
    (hstopping : y.stopping = (m.streams t).stopping) (hresults : y.results ⊆ (m.streams t).results) :
    (m.setStream t y).Sound := by
  have hfields : ∀ t', ((m.setStream t y).streams t').route = (m.streams t').route ∧
      ((m.setStream t y).streams t').registered = (m.streams t').registered ∧
      ((m.setStream t y).streams t').stopping = (m.streams t').stopping ∧
      ((m.setStream t y).streams t').results ⊆ (m.streams t').results := by
    intro t'
    by_cases h : t' = t
    · subst h
      rw [streams_setStream]
      exact ⟨hroute, hregistered, hstopping, hresults⟩
    rw [streams_setStream_ne m h]
    exact ⟨rfl, rfl, rfl, .refl _⟩
  refine ⟨?_, ?_, ?_, ?_, ?_, hm.once, hm.replied⟩
  · intro t' ht'
    by_cases h : t' = t
    · subst h
      rwa [streams_setStream]
    rw [streams_setStream_ne m h]
    exact hm.streams t' ht'
  · intro t' ht' hreg hrun
    rw [(hfields t').1]
    exact hm.current t' ht' ((hfields t').2.1 ▸ hreg) ((hfields t').2.2.1 ▸ hrun)
  · intro q hq
    obtain ⟨hhas, hreg, horigin⟩ := hm.origins q hq
    exact ⟨hhas, (hfields _).2.1.trans hreg, (hfields _).1.trans horigin⟩
  · intro t' ht' r hr
    exact hm.results t' ht' r ((hfields t').2.2.2 hr)
  · intro hstop t' ht'
    rw [(hfields t').2.2.1]
    exact hm.stopped hstop t' ht'

/-- Stream `t` takes a frame in. -/
structure Reads (m m' : MessageServer) (t : ℕ) (frame : GatewayToMessageFrame) : Prop where
  has : m.Has t
  sound : m'.Sound
  tokens : m'.nextToken = m.nextToken
  requests : m'.requests = m.requests
  others : ∀ t', t' ≠ t → m'.streams t' = m.streams t'
  links : ∀ t', (m'.streams t').link = (m.streams t').link
  stopping : (m'.streams t).stopping = (m.streams t).stopping
  received : (m'.received t).Sublist (m.received t ++ frame.command?.toList)
  holding : m'.holding t ⊆ m.holding t ++ frame.command?.toList.map (·.label)
  lasting : (m'.streams t).stopping = false →
    m.holding t ++ frame.command?.toList.map (·.label) ⊆ m'.holding t

theorem read_reads (hm : m.Sound) {frame : GatewayToMessageFrame} (h : m.read t frame = some m') :
    m.Reads m' t frame := by
  unfold read at h
  dsimp only at h
  split at h
  · rename_i hread
    obtain ⟨ht, hreading⟩ := hread
    cases h
    have hx := hm.streams t ht
    have hbefore : (m.streams t).commands = [] := by
      simp [Stream.commands, hx.turns hreading]
    generalize hy : ({ m.streams t with
      reading := false
      frame := if (m.streams t).stopping then none else some frame } : Stream) = y
    have hself := streams_setStream m t y
    have hcommands : y.commands = if (m.streams t).stopping then [] else frame.command?.toList := by
      rw [← hy]
      unfold Stream.commands
      split
      · rfl
      · cases hc : frame.command? <;> simp [hc]
    have hresults : y.results = (m.streams t).results := by rw [← hy]; rfl
    have hstopping : y.stopping = (m.streams t).stopping := by rw [← hy]
    have hsound : y.Sound t := by
      rw [← hy]
      exact ⟨hx.token, hx.ends, hx.done, fun h => by cases h⟩
    have hset : (m.setStream t y).Sound :=
      set_sound hm hsound (by rw [← hy]) (by rw [← hy]) hstopping (by rw [hresults]; simp)
    refine ⟨ht, hset, rfl, rfl, fun t' h => streams_setStream_ne m h y, fun t' => ?_,
      by rw [hself, hstopping], ?_, ?_, ?_⟩
    · by_cases h : t' = t
      · subst h
        rw [hself, ← hy]
      · rw [streams_setStream_ne m h]
    · unfold MessageServer.received
      rw [hself, hcommands, hbefore, append_nil]
      refine .append_left ?_ _
      split
      · exact nil_sublist _
      · exact .refl _
    · intro label hlabel
      rw [mem_append]
      rw [mem_holding, hself, hcommands, hresults] at hlabel
      rw [mem_holding]
      rcases hlabel with ⟨c, hc, hlabel⟩ | hlabel | hlabel
      · split at hc
        · cases hc
        · exact .inr (mem_map.2 ⟨c, hc, hlabel⟩)
      · exact .inl (.inr (.inl hlabel))
      · exact .inl (.inr (.inr hlabel))
    · intro hrun label hlabel
      rw [hself, hstopping] at hrun
      rw [mem_holding, hself, hcommands, hresults, if_neg (by simp [hrun])]
      rw [mem_append, mem_holding, hbefore] at hlabel
      rcases hlabel with (⟨c, hc, -⟩ | hlabel | hlabel) | hlabel
      · cases hc
      · exact .inr (.inl hlabel)
      · exact .inr (.inr hlabel)
      · exact .inl (mem_map.1 hlabel)
  · cases h

theorem pop_holding {frame : MessageToGatewayFrame} {wire : List MessageToGatewayFrame}
    (hwire : (m.streams t).wire = frame :: wire) :
    let m' := m.setStream t { m.streams t with wire }
    m'.holding t ⊆ m.holding t ∧ m.holding t ⊆ frame.result?.toList.map (·.label) ++ m'.holding t := by
  have hself := streams_setStream m t { m.streams t with wire }
  have hresults : (m.streams t).results =
      frame.result?.toList ++ Stream.results { m.streams t with wire } := by
    unfold Stream.results
    rw [hwire, cons_append, filterMap_cons]
    cases frame.result? <;> rfl
  refine ⟨fun label hlabel => ?_, fun label hlabel => ?_⟩
  · rw [mem_holding, hself] at hlabel
    rw [mem_holding, hresults]
    rcases hlabel with hlabel | hlabel | ⟨r, hr, hlabel⟩
    · exact .inl hlabel
    · exact .inr (.inl hlabel)
    · exact .inr (.inr ⟨r, mem_append_right _ hr, hlabel⟩)
  · rw [mem_holding, hresults] at hlabel
    rw [mem_append, mem_holding, hself]
    rcases hlabel with hlabel | hlabel | ⟨r, hr, hlabel⟩
    · exact .inr (.inl hlabel)
    · exact .inr (.inr (.inl hlabel))
    rcases mem_append.1 hr with hr | hr
    · exact .inl (mem_map.2 ⟨r, hr, hlabel⟩)
    · exact .inr (.inr (.inr ⟨r, hr, hlabel⟩))

theorem pop_sound (hm : m.Sound) (ht : m.Has t) {frame : MessageToGatewayFrame}
    {wire : List MessageToGatewayFrame} (hwire : (m.streams t).wire = frame :: wire) :
    (m.setStream t { m.streams t with wire }).Sound := by
  have hx := hm.streams t ht
  refine set_sound hm ⟨hx.token, hx.ends, hx.done, hx.turns⟩ rfl rfl rfl ?_
  unfold Stream.results
  rw [hwire]
  exact (List.Sublist.filterMap _ (sublist_cons_self _ _)).subset

theorem start_sound (options : MessageOptions) : (start options).Sound where
  streams t ht := absurd (ht.1.trans_le ht.2) (by simp [start])
  current t ht := absurd (ht.1.trans_le ht.2) (by simp [start])
  origins q hq := by cases hq
  results t ht := absurd (ht.1.trans_le ht.2) (by simp [start])
  stopped h := by cases h
  once := nodup_nil
  replied j hj := by cases hj

end MessageServer

end Imm
