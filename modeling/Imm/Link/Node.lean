import Imm.Link.Streams

/-! The tables of streams of a Message node. Each of its shards has the streams that were connected to
    it, and a table from the key of a Gateway's shard to the stream that stands for it. A stream comes
    into the table when it registers and puts another one out of its place; when a stream ends, the
    table forgets it only if it is still there. A shard registers the Gateways it owns and no others,
    so that whoever looks for the stream of a lease has one shard to ask. `registrations` are the
    streams of a shard that registered, in that order, and `reads` the frames that were read. -/

namespace Imm

open Steps List
open Function (update update_self update_of_ne)

/-- What the table of streams goes by. -/
def Stream.place (x : Stream) : StreamRoute × Bool × Bool := (x.route, x.registered, x.finished)

structure MessageNode where
  shards : ℕ
  servers : ℕ → MessageServer
  registrations : ℕ → List ℕ := fun _ => []
  reads : ℕ → List (ℕ × GatewayToMessageFrame) := fun _ => []

inductive NodeEvent where
  | server (i : ℕ) (e : MessageEvent)
  /-- stream `t` of shard `i` reads a frame -/
  | read (i t : ℕ) (frame : GatewayToMessageFrame)
  /-- `shard_service::forward` -/
  | forward (lease : SessionLease) (envelope : ClientForwardEnvelope)

namespace MessageServer

/-- The stream that registered in a step. -/
def registering (m m' : MessageServer) : MessageEvent → List ℕ
  | .stream t _ => if (m.streams t).registered = false ∧ (m'.streams t).registered then [t] else []
  | _ => []

/-- The stream that registered last under a key, among those that are not done. -/
def lastRegistered (m : MessageServer) (registrations : List ℕ) (key : StreamKey) : Option ℕ :=
  (registrations.filter fun t =>
    (m.streams t).route.key = key ∧ (m.streams t).finished = false).getLast?

end MessageServer

namespace MessageNode

variable (n : MessageNode)

/-- Every shard has the same options, but for its number. -/
def start (shards : ℕ) (options : MessageOptions) : MessageNode where
  shards := shards
  servers i := .start { options with shards, shardId := i }

def setServer (i : ℕ) (m : MessageServer) : MessageNode := { n with servers := update n.servers i m }

/-- `shard_service::forward`: the shard that owns the Gateway is asked. -/
def forward (lease : SessionLease) (envelope : ClientForwardEnvelope) : MessageNode × ClientForwardStatus :=
  let owner := ownerShard lease.gatewayId n.shards
  let (m, status) := (n.servers owner).forward lease envelope
  (n.setServer owner m, status)

def step : NodeEvent → Option MessageNode
  | .server i e =>
    if i < n.shards then
      ((n.servers i).step e).map fun m =>
        { n.setServer i m with
          registrations := update n.registrations i
            (n.registrations i ++ (n.servers i).registering m e) }
    else none
  | .read i t frame =>
    if i < n.shards then
      ((n.servers i).read t frame).map fun m =>
        { n.setServer i m with reads := update n.reads i (n.reads i ++ [(t, frame)]) }
    else none
  | .forward lease envelope => some (n.forward lease envelope).1

end MessageNode

namespace MessageServer

variable {m m' m'' : MessageServer} {t : ℕ} {registrations : List ℕ}

/-! ### What a step does to the table -/

/-- The table and the places of the streams are what they were. -/
structure Still (m m' : MessageServer) : Prop where
  options : m'.options = m.options
  tokens : m'.nextToken = m.nextToken
  table : m'.registered = m.registered
  places : ∀ t, (m'.streams t).place = (m.streams t).place

/-- There is a new stream. -/
structure Connects (m m' : MessageServer) : Prop where
  options : m'.options = m.options
  tokens : m'.nextToken = m.nextToken + 1
  table : m'.registered = m.registered
  requests : m'.requests = m.requests
  old : ∀ t, m.Has t → m'.streams t = m.streams t
  fresh : (m'.streams m'.nextToken).registered = false
  silent : (m'.streams m'.nextToken).frame = none

/-- Stream `t` registers. -/
structure Registers (m m' : MessageServer) (t : ℕ) : Prop where
  options : m'.options = m.options
  tokens : m'.nextToken = m.nextToken
  before : (m.streams t).registered = false
  after : (m'.streams t).registered = true
  alive : (m'.streams t).finished = false
  table : m'.registered = update m.registered (m'.streams t).route.key (some t)
  others : ∀ t', t' ≠ t → (m'.streams t').place = (m.streams t').place
  owner : ownerShard (m'.streams t).route.gatewayId m.options.shards = m.options.shardId

/-- Stream `t` is done. -/
structure Ends (m m' : MessageServer) (t : ℕ) : Prop where
  options : m'.options = m.options
  tokens : m'.nextToken = m.nextToken
  route : (m'.streams t).route = (m.streams t).route
  registered : (m'.streams t).registered = (m.streams t).registered
  finished : (m'.streams t).finished = true
  table : ∀ key, m'.registered key = if m.registered key = some t then none else m.registered key
  others : ∀ t', t' ≠ t → (m'.streams t').place = (m.streams t').place

/-- The entries of the table and the streams that have registered. -/
structure Tabled (m : MessageServer) (registrations : List ℕ) : Prop where
  /-- what the table names is there, and registered under that key -/
  entries : ∀ key t, m.registered key = some t → m.Has t ∧ (m.streams t).finished = false ∧
    (m.streams t).registered = true ∧ (m.streams t).route.key = key
  last : ∀ key t, m.registered key = some t → m.lastRegistered registrations key = some t
  logged : ∀ t ∈ registrations, m.Has t ∧ (m.streams t).registered = true
  owned : ∀ t, m.Has t → (m.streams t).registered = true →
    ownerShard (m.streams t).route.gatewayId m.options.shards = m.options.shardId

/-! ### The table is left alone -/

theorem Still.refl (m : MessageServer) : m.Still m := ⟨rfl, rfl, rfl, fun _ => rfl⟩

theorem Still.has (h : m.Still m') : m'.Has t ↔ m.Has t := by
  unfold Has
  rw [h.tokens]

theorem Still.stream (h : m.Still m') (t : ℕ) : (m'.streams t).route = (m.streams t).route ∧
    (m'.streams t).registered = (m.streams t).registered ∧
    (m'.streams t).finished = (m.streams t).finished := by
  simpa [Stream.place] using h.places t

theorem Still.trans (h : m.Still m') (h' : m'.Still m'') : m.Still m'' where
  options := h'.options.trans h.options
  tokens := h'.tokens.trans h.tokens
  table := h'.table.trans h.table
  places t := (h'.places t).trans (h.places t)

@[simp] theorem place_finish (x : Stream) : x.finish.place = x.place := by
  unfold Stream.finish
  split <;> rfl

@[simp] theorem place_stop (x : Stream) : x.stop.place = x.place := by
  unfold Stream.stop
  split
  · rfl
  rw [place_finish]
  rfl

theorem still_set {x : Stream} (h : (m'.streams, m'.options, m'.nextToken, m'.registered) =
    (update m.streams t x, m.options, m.nextToken, m.registered)) (hx : x.place = (m.streams t).place) :
    m.Still m' := by
  simp only [Prod.mk.injEq] at h
  obtain ⟨hstreams, hoptions, htokens, htable⟩ := h
  refine ⟨hoptions, htokens, htable, fun t' => ?_⟩
  rw [hstreams]
  by_cases h : t' = t
  · subst h
    rw [update_self, hx]
  · rw [update_of_ne h]

theorem stopStream_still (m : MessageServer) (t : ℕ) : m.Still (m.stopStream t) :=
  still_set rfl (place_stop _)

theorem enqueue_still {frame : MessageToGatewayFrame} (h : m.enqueue t frame = .ok m') : m.Still m' := by
  unfold enqueue at h
  split at h
  · cases h
  split at h
  · cases h
  split at h
  · cases h
  cases h
  exact still_set rfl rfl

theorem startRead_still (m : MessageServer) (t : ℕ) : m.Still (m.startRead t) := by
  unfold startRead
  split
  · exact .refl m
  · exact still_set rfl rfl

theorem reply_still (m : MessageServer) (route : StreamRoute) (frame : MessageToGatewayFrame) :
    m.Still (m.reply route frame) := by
  unfold reply
  split
  · exact .refl m
  split
  · rename_i h
    exact enqueue_still h
  · exact stopStream_still m _
  · exact .refl m

theorem serviceReply_still (m : MessageServer) (k : ℕ) (context : RequestContext) (response : Packet) :
    m.Still (m.serviceReply k context response) := by
  have h := reply_still m context.origin (.commandResult (resultOf context.command response))
  exact ⟨h.options, h.tokens, h.table, h.places⟩

theorem submitCommand_still (m : MessageServer) (origin : StreamRoute) (command : CommandEnvelope) :
    m.Still (m.submitCommand origin command) := by
  have hreply : ∀ k context response, m.Still
      (({ m with requests := m.requests ++ [{ origin, command }] } : MessageServer).serviceReply
        k context response) := by
    intro k context response
    have h := serviceReply_still ({ m with requests := m.requests ++ [{ origin, command }] }) k context
      response
    exact ⟨h.options, h.tokens, h.table, h.places⟩
  unfold submitCommand
  split
  · exact hreply _ _ _
  split
  · exact hreply _ _ _
  split
  · exact hreply _ _ _
  · exact ⟨rfl, rfl, rfl, fun _ => rfl⟩

theorem forward_still (m : MessageServer) (lease : SessionLease) (envelope : ClientForwardEnvelope) :
    m.Still (m.forward lease envelope).1 := by
  unfold forward
  split
  · exact .refl m
  split
  · exact .refl m
  split
  · rename_i h
    exact enqueue_still h
  · exact .refl m
  · exact .refl m

theorem read_still {frame : GatewayToMessageFrame} (h : m.read t frame = some m') : m.Still m' := by
  unfold read at h
  dsimp only at h
  split at h
  · cases h
    exact still_set rfl rfl
  · cases h

theorem write_still (h : m.write t = some m') : m.Still m' := by
  unfold write at h
  dsimp only at h
  split at h
  · cases h
  split at h
  · cases h
    exact still_set rfl rfl
  split at h
  · cases h
  cases h
  exact still_set rfl rfl

theorem written_still {ok : Bool} (h : m.written t ok = some m') : m.Still m' := by
  unfold written at h
  dsimp only at h
  split at h
  · cases h
  cases h
  refine still_set rfl ?_
  have hplace : ∀ x : Stream, (if x.stopping then x.finish else x).place = x.place := by
    intro x
    split
    · exact place_finish x
    · rfl
  rw [hplace]
  cases ok
  · exact place_stop _
  · rfl

/-! ### A stream registers -/

/-- `_streams.at` finds the stream that the table names. -/
theorem Tabled.stopReplaced (hm : m.Tabled registrations) (key : StreamKey) (route : StreamRoute) :
    ∃ m', (m.claim t route).stopReplaced (m.registered key) = .ok m' ∧ (m.claim t route).Still m' := by
  cases h : m.registered key with
  | none => exact ⟨_, rfl, .refl _⟩
  | some old =>
    obtain ⟨hhas, hfinished, -, -⟩ := hm.entries key old h
    have hsame : ((m.claim t route).streams old).finished = (m.streams old).finished := by
      unfold claim setStream
      dsimp only
      by_cases h : old = t
      · subst h
        rw [update_self]
      · rw [update_of_ne h]
    have hthere : ¬ (((m.claim t route).streams old).finished = true ∨ ¬ (m.claim t route).Has old) := by
      rintro (h | h)
      · rw [hsame, hfinished] at h
        cases h
      · exact h hhas
    exact ⟨_, if_neg hthere, stopStream_still _ _⟩

theorem Registers.still (h : m.Registers m' t) (h' : m'.Still m'') : m.Registers m'' t := by
  obtain ⟨hroute, hregistered, hfinished⟩ := h'.stream t
  refine ⟨h'.options.trans h.options, h'.tokens.trans h.tokens, h.before, hregistered.trans h.after,
    hfinished.trans h.alive, ?_, fun t' ht' => (h'.places t').trans (h.others t' ht'), ?_⟩
  · rw [h'.table, h.table, hroute]
  · rw [hroute, h.owner]

theorem Still.registers (h : m.Still m') (h' : m'.Registers m'' t) : m.Registers m'' t := by
  refine ⟨h'.options.trans h.options, h'.tokens.trans h.tokens, ?_, h'.after, h'.alive, ?_,
    fun t' ht' => (h'.others t' ht').trans (h.places t'), ?_⟩
  · rw [← (h.stream t).2.1, h'.before]
  · rw [h'.table, h.table]
  · rw [← h.options, h'.owner]

theorem registerStream_registers (hm : m.Tabled registrations) (hx : (m.streams t).route.token = t)
    (halive : (m.streams t).finished = false) (registration : RegisterGateway) :
    m.Still (m.registerStream t registration) ∨ m.Registers (m.registerStream t registration) t := by
  unfold registerStream
  split
  · exact .inl (stopStream_still m t)
  rename_i haccepts
  obtain ⟨hnew, howner⟩ : (m.streams t).registered = false ∧
      ownerShard registration.gatewayId m.options.shards = m.options.shardId := by
    simp only [accepts, Bool.not_eq_eq_eq_not, Bool.not_true, Bool.not_eq_false, Bool.and_eq_true,
      beq_iff_eq] at haccepts
    exact ⟨haccepts.1.1.1.1.1.2, haccepts.1.2⟩
  right
  rw [hx]
  dsimp only
  generalize hroute : ({
    gatewayId := registration.gatewayId
    instanceId := registration.instanceId
    shardId := registration.shardId
    token := t } : StreamRoute) = route
  obtain ⟨m', hm', hstill⟩ := hm.stopReplaced route.key route
  rw [hm']
  dsimp only
  have hclaim : (m.claim t route).streams = update m.streams t { m.streams t with route } := rfl
  have hself := hstill.stream t
  rw [hclaim, update_self] at hself
  have hset : m.Registers (m'.setStream t { m'.streams t with registered := true }) t := by
    refine ⟨hstill.options, hstill.tokens, hnew, ?_, ?_, ?_, fun t' ht' => ?_, ?_⟩
    · rw [streams_setStream]
    · rw [streams_setStream]
      exact hself.2.2.trans halive
    · rw [streams_setStream]
      rw [hself.1]
      refine hstill.table.trans ?_
      rw [← hroute]
      rfl
    · rw [streams_setStream_ne _ ht', hstill.places t', hclaim, update_of_ne ht']
    · rw [streams_setStream]
      rw [hself.1, ← hroute]
      exact howner
  split
  · rename_i henqueue
    exact hset.still (enqueue_still henqueue)
  · exact hset.still (stopStream_still _ t)

/-! ### The table after a step -/

theorem Tabled.still (hm : m.Tabled registrations) (h : m.Still m') : m'.Tabled registrations := by
  have hlast : m'.lastRegistered registrations = m.lastRegistered registrations := by
    funext key
    simp only [lastRegistered, (h.stream _).1, (h.stream _).2.2]
  refine ⟨fun key t ht => ?_, ?_, fun t ht => ?_, fun t ht hregistered => ?_⟩
  · rw [h.table] at ht
    rw [h.has, (h.stream t).1, (h.stream t).2.1, (h.stream t).2.2]
    exact hm.entries key t ht
  · rw [h.table, hlast]
    exact hm.last
  · rw [h.has, (h.stream t).2.1]
    exact hm.logged t ht
  · rw [(h.stream t).2.1] at hregistered
    rw [(h.stream t).1, h.options]
    exact hm.owned t (h.has.1 ht) hregistered

theorem Tabled.connects (hm : m.Tabled registrations) (h : m.Connects m') : m'.Tabled registrations := by
  have hmono : ∀ t, m.Has t → m'.Has t := fun t ht => ht.mono (by rw [h.tokens]; omega)
  have hlast : ∀ key, m'.lastRegistered registrations key = m.lastRegistered registrations key := by
    intro key
    unfold lastRegistered
    congr 1
    exact filter_congr fun t ht => by rw [h.old t (hm.logged t ht).1]
  refine ⟨fun key t ht => ?_, fun key t ht => ?_, fun t ht => ?_, fun t ht hregistered => ?_⟩
  · rw [h.table] at ht
    obtain ⟨hhas, hentry⟩ := hm.entries key t ht
    rw [h.old t hhas]
    exact ⟨hmono t hhas, hentry⟩
  · rw [hlast]
    exact hm.last key t (h.table ▸ ht)
  · obtain ⟨hhas, hregistered⟩ := hm.logged t ht
    rw [h.old t hhas]
    exact ⟨hmono t hhas, hregistered⟩
  · have hhas : m.Has t := by
      have hne : t ≠ m'.nextToken := by
        rintro rfl
        rw [h.fresh] at hregistered
        cases hregistered
      have hle := ht.2
      have htokens := h.tokens
      exact ⟨ht.1, by omega⟩
    rw [h.old t hhas] at hregistered ⊢
    rw [h.options]
    exact hm.owned t hhas hregistered

theorem Tabled.registers (hm : m.Tabled registrations) (ht : m.Has t) (h : m.Registers m' t) :
    m'.Tabled (registrations ++ [t]) := by
  have hhas : ∀ t', m'.Has t' ↔ m.Has t' := fun t' => by
    unfold Has
    rw [h.tokens]
  have hothers : ∀ t', t' ≠ t → (m'.streams t').route = (m.streams t').route ∧
      (m'.streams t').registered = (m.streams t').registered ∧
      (m'.streams t').finished = (m.streams t').finished := fun t' ht' => by
    simpa [Stream.place] using h.others t' ht'
  -- a stream that is registered is not the one that registers now
  have hne : ∀ t', (m.streams t').registered = true → t' ≠ t := by
    rintro t' ht' rfl
    rw [h.before] at ht'
    cases ht'
  refine ⟨fun key t' ht' => ?_, fun key t' ht' => ?_, fun t' ht' => ?_, fun t' ht' hregistered => ?_⟩
  · rw [h.table] at ht'
    rw [hhas]
    by_cases hkey : key = (m'.streams t).route.key
    · subst hkey
      rw [update_self] at ht'
      cases ht'
      exact ⟨ht, h.alive, h.after, rfl⟩
    · rw [update_of_ne hkey] at ht'
      obtain ⟨hhas', hfinished, hregistered, hroute⟩ := hm.entries key t' ht'
      obtain ⟨h1, h2, h3⟩ := hothers t' (hne t' hregistered)
      exact ⟨hhas', h3.trans hfinished, h2.trans hregistered, by rw [h1, hroute]⟩
  · have hold : registrations.filter (fun t => (m'.streams t).route.key = key ∧ (m'.streams t).finished = false) =
        registrations.filter fun t => (m.streams t).route.key = key ∧ (m.streams t).finished = false := by
      refine filter_congr fun t' ht' => ?_
      obtain ⟨h1, -, h3⟩ := hothers t' (hne t' (hm.logged t' ht').2)
      rw [h1, h3]
    unfold lastRegistered
    rw [filter_append, hold]
    rw [h.table] at ht'
    by_cases hkey : key = (m'.streams t).route.key
    · subst hkey
      rw [update_self] at ht'
      cases ht'
      rw [filter_cons_of_pos (by simp [h.alive]), filter_nil, getLast?_concat]
    · rw [update_of_ne hkey] at ht'
      rw [filter_cons_of_neg (by simp [Ne.symm hkey]), filter_nil, append_nil]
      exact hm.last key t' ht'
  · rw [hhas]
    rcases mem_append.1 ht' with ht' | ht'
    · obtain ⟨hhas', hregistered⟩ := hm.logged t' ht'
      exact ⟨hhas', (hothers t' (hne t' hregistered)).2.1.trans hregistered⟩
    rw [mem_singleton.1 ht']
    exact ⟨ht, h.after⟩
  · by_cases heq : t' = t
    · subst heq
      rw [h.options, h.owner]
    obtain ⟨h1, h2, -⟩ := hothers t' heq
    rw [h1, h.options]
    exact hm.owned t' ((hhas t').1 ht') (h2 ▸ hregistered)

theorem Tabled.ends (hm : m.Tabled registrations) (h : m.Ends m' t) : m'.Tabled registrations := by
  have hhas : ∀ t', m'.Has t' ↔ m.Has t' := fun t' => by
    unfold Has
    rw [h.tokens]
  have hsame : ∀ t', (m'.streams t').route = (m.streams t').route ∧
      (m'.streams t').registered = (m.streams t').registered ∧
      (m'.streams t').finished = (decide (t' = t) || (m.streams t').finished) := by
    intro t'
    by_cases heq : t' = t
    · subst heq
      simp [h.route, h.registered, h.finished]
    · simpa [Stream.place, heq] using h.others t' heq
  have hentry : ∀ key t', m'.registered key = some t' → m.registered key = some t' ∧ t' ≠ t := by
    intro key t' ht'
    rw [h.table] at ht'
    split at ht'
    · cases ht'
    rename_i hother
    exact ⟨ht', fun heq => hother (heq ▸ ht')⟩
  refine ⟨fun key t' ht' => ?_, fun key t' ht' => ?_, fun t' ht' => ?_, fun t' ht' hregistered => ?_⟩
  · obtain ⟨hentry, hne⟩ := hentry key t' ht'
    obtain ⟨h1, h2, h3⟩ := hsame t'
    rw [hhas, h1, h2, h3]
    simpa [hne] using hm.entries key t' hentry
  · -- one stream fewer that is not done, and not the last
    obtain ⟨hentry, hne⟩ := hentry key t' ht'
    obtain ⟨before, hbefore⟩ := getLast?_eq_some_iff.1 (hm.last key t' hentry)
    have hfilter : registrations.filter (fun t => (m'.streams t).route.key = key ∧
        (m'.streams t).finished = false) = (registrations.filter fun t =>
          (m.streams t).route.key = key ∧ (m.streams t).finished = false).filter (· ≠ t) := by
      rw [filter_filter]
      refine filter_congr fun t' _ => ?_
      obtain ⟨h1, -, h3⟩ := hsame t'
      rw [h1, h3]
      by_cases heq : t' = t <;> simp [heq]
    unfold lastRegistered
    rw [hfilter, hbefore, filter_append, filter_cons_of_pos (by simp [hne]), filter_nil, getLast?_concat]
  · rw [hhas, (hsame t').2.1]
    exact hm.logged t' ht'
  · obtain ⟨h1, h2, -⟩ := hsame t'
    rw [h1, h.options]
    exact hm.owned t' ((hhas t').1 ht') (h2 ▸ hregistered)

/-! ### One step of a shard -/

theorem onDone_ends (hm : m.Tabled registrations) (hx : (m.streams t).route.token = t)
    (h : m.onDone t = some m') : m.Ends m' t := by
  unfold onDone at h
  dsimp only at h
  split at h
  · cases h
    refine ⟨rfl, rfl, ?_, ?_, ?_, fun key => ?_, fun t' ht' => ?_⟩
    · simp [setStream]
    · simp [setStream]
    · simp [setStream]
    · rw [hx]
      dsimp only
      -- the table names the stream under its own key if at all
      by_cases hkey : m.registered key = some t
      · obtain ⟨-, -, hregistered, hroute⟩ := hm.entries key t hkey
        rw [if_pos hkey, if_pos ⟨hregistered, hroute ▸ hkey⟩, hroute, update_self]
      split
      · rename_i hown
        rw [update_of_ne]
        rintro rfl
        exact hkey hown.2
      · rfl
    · simp only [setStream]
      rw [update_of_ne ht']
  · cases h

theorem connect_connects (m : MessageServer) (link : Option ℕ) (peerIdentities : List String) :
    m.Connects (m.connect link peerIdentities) := by
  have hnew : ∀ x : Stream, x.registered = false → x.frame = none →
      x.stop.registered = false ∧ x.stop.frame = none := by
    intro x hregistered hframe
    unfold Stream.stop Stream.finish
    split
    · exact ⟨hregistered, hframe⟩
    · split <;> exact ⟨hregistered, hframe⟩
  have hstream : ((m.connect link peerIdentities).streams (m.nextToken + 1)).registered = false ∧
      ((m.connect link peerIdentities).streams (m.nextToken + 1)).frame = none := by
    simp only [connect, setStream, update_self]
    split
    · exact hnew _ rfl rfl
    · exact ⟨rfl, rfl⟩
  refine ⟨rfl, rfl, rfl, rfl, fun t ht => ?_, hstream.1, hstream.2⟩
  exact update_of_ne (by have := ht.2; omega) _ _

theorem processFrame_cases (hm : m.Tabled registrations) (hx : (m.streams t).route.token = t)
    (halive : (m.streams t).finished = false) (frame : GatewayToMessageFrame) :
    m.Still (m.processFrame t frame) ∨ m.Registers (m.processFrame t frame) t := by
  cases frame with
  | registerGateway registration => exact registerStream_registers hm hx halive registration
  | _ =>
    left
    simp only [processFrame]
    split
    · exact stopStream_still m t
    first
      | exact submitCommand_still m _ _
      | exact .refl m
      | exact stopStream_still m t
      | split
        · rename_i h
          exact enqueue_still h
        · exact stopStream_still m t

theorem process_cases (hm : m.Tabled registrations) (hx : (m.streams t).Sound t)
    (h : m.process t = some m') : m.Still m' ∨ m.Registers m' t := by
  unfold process at h
  split at h
  · cases h
  rename_i frame _
  have hclear : m.Still (m.setStream t { m.streams t with frame := none }) :=
    still_set rfl rfl
  dsimp only at h
  split at h
  · cases h
    exact .inl (hclear.trans (stopStream_still _ t))
  rename_i hrun
  cases h
  have halive : (m.streams t).finished = false := by
    refine Bool.eq_false_iff.2 fun hdone => hrun (.inl ?_)
    rw [streams_setStream]
    exact hx.done hdone
  obtain ⟨hroute, -, hfinished⟩ := hclear.stream t
  rcases processFrame_cases (hm.still hclear) (by rw [hroute, hx.token])
      (by rw [hfinished, halive]) frame with hstill | hregisters
  · exact .inl ((hclear.trans hstill).trans (startRead_still _ t))
  · exact .inr (hclear.registers (hregisters.still (startRead_still _ t)))

/-- What a step does to the table. -/
theorem step_places (hm : m.Tabled registrations) (hs : m.Sound) {e : MessageEvent}
    (h : m.step e = some m') : m.Still m' ∨ (∃ peerIdentities, e = .connect peerIdentities ∧ m.Connects m') ∨
      (∃ t, e = .stream t .process ∧ m.Has t ∧ m.Registers m' t) ∨ ∃ t, e = .stream t .done ∧ m.Ends m' t := by
  cases e with
  | connect peerIdentities =>
    cases h
    exact .inr (.inl ⟨peerIdentities, rfl, connect_connects m none peerIdentities⟩)
  | stream t e =>
    simp only [step] at h
    split at h
    · rename_i ht
      have hx := hs.streams t ht
      cases e with
      | process =>
        rcases process_cases hm hx h with h | hregisters
        · exact .inl h
        · exact .inr (.inr (.inl ⟨t, rfl, ht, hregisters⟩))
      | readFailed =>
        simp only [stepStream] at h
        split at h
        · cases h
          exact .inl (still_set rfl (place_stop _))
        · cases h
      | cancelled =>
        cases h
        exact .inl (stopStream_still m t)
      | write => exact .inl (write_still h)
      | written ok => exact .inl (written_still h)
      | done => exact .inr (.inr (.inr ⟨t, rfl, onDone_ends hm hx.token h⟩))
    · cases h
  | respond k response =>
    simp only [step, respond] at h
    split at h
    · cases h
    split at h
    · cases h
    cases h
    exact .inl (serviceReply_still m _ _ _)
  | finish k =>
    simp only [step, MessageServer.finish] at h
    split at h
    · split at h
      · cases h
      cases h
      exact .inl ⟨rfl, rfl, rfl, fun _ => rfl⟩
    · cases h
  | forward lease envelope =>
    cases h
    exact .inl (forward_still m lease envelope)
  | beginStop =>
    cases h
    exact .inl ⟨rfl, rfl, rfl, fun _ => place_stop _⟩
  | stopService =>
    cases h
    exact .inl ⟨rfl, rfl, rfl, fun _ => rfl⟩

theorem step_tabled (hm : m.Tabled registrations) (hs : m.Sound) {e : MessageEvent} (h : m.step e = some m') :
    m'.options = m.options ∧ m'.Tabled (registrations ++ m.registering m' e) := by
  rcases step_places hm hs h with hstill | ⟨peerIdentities, rfl, hconnects⟩ | ⟨t, rfl, ht, hregisters⟩ |
    ⟨t, rfl, hends⟩
  · have hnone : m.registering m' e = [] := by
      unfold registering
      split
      · rw [(hstill.stream _).2.1]
        simp
      · rfl
    rw [hnone, append_nil]
    exact ⟨hstill.options, hm.still hstill⟩
  · rw [show m.registering m' (.connect peerIdentities) = [] from rfl, append_nil]
    exact ⟨hconnects.options, hm.connects hconnects⟩
  · have hone : m.registering m' (.stream t .process) = [t] := by
      simp [registering, hregisters.before, hregisters.after]
    rw [hone]
    exact ⟨hregisters.options, hm.registers ht hregisters⟩
  · have hnone : m.registering m' (.stream t .done) = [] := by
      simp [registering, hends.registered]
    rw [hnone, append_nil]
    exact ⟨hends.options, hm.ends hends⟩

/-- Only reading brings commands. -/
theorem step_received (hm : m.Tabled registrations) (hs : m.Sound) {e : MessageEvent}
    (h : m.step e = some m') (ht : m'.Has t) :
    m.Has t ∧ (m'.received t).Sublist (m.received t) ∨ m'.received t = [] := by
  have hadvances (ht : m.Has t) : m.Has t ∧ (m'.received t).Sublist (m.received t) ∨ m'.received t = [] :=
    .inl ⟨ht, (step_fares hs h).2.received t ht⟩
  rcases step_places hm hs h with hstill | ⟨peerIdentities, rfl, hconnects⟩ | ⟨t', rfl, -, hregisters⟩ |
    ⟨t', rfl, hends⟩
  · exact hadvances (hstill.has.1 ht)
  · by_cases hold : m.Has t
    · exact hadvances hold
    -- the new stream: no request came on it
    have hnew : t = m'.nextToken := by
      have htokens := hconnects.tokens
      have hle := ht.2
      have hlt : ¬ t ≤ m.nextToken := fun h => hold ⟨ht.1, h⟩
      omega
    have hnone : m'.requestsOf t = [] := by
      rw [requestsOf_congr hconnects.requests, requestsOf, filter_eq_nil_iff]
      intro q hq htoken
      exact hold (by simpa [of_decide_eq_true htoken] using (hs.origins q hq).1)
    have hsilent : (m'.streams t).commands = [] := by
      rw [Stream.commands, hnew, hconnects.silent]
      rfl
    exact .inr (by simp [received, hnone, hsilent])
  · refine hadvances ?_
    unfold Has at ht ⊢
    rwa [hregisters.tokens] at ht
  · refine hadvances ?_
    unfold Has at ht ⊢
    rwa [hends.tokens] at ht

theorem start_tabled (options : MessageOptions) : (start options).Tabled [] where
  entries key t h := by cases h
  last key t h := by cases h
  logged t h := by cases h
  owned t h := absurd h.2 (Nat.not_le.2 h.1)

theorem forward_spec {lease : SessionLease} (envelope : ClientForwardEnvelope) (hm : m.Tabled registrations)
    (ht : m.registered (lease.gatewayId, lease.instanceId, lease.shardId) = some t) :
    ((m.forward lease envelope).2 = .QUEUED ∧
      (m.forward lease envelope).1.streams = update m.streams t
        { m.streams t with queued := (m.streams t).queued ++ [.clientForward envelope] }) ∨
    ((m.forward lease envelope).1 = m ∧ ((m.forward lease envelope).2 = .OFFLINE ∧
        (m.stopping = true ∨ (m.streams t).stopping = true) ∨
      (m.forward lease envelope).2 = .BACKPRESSURED ∧
        m.writes.acquire (m.options.frameSize (.clientForward envelope)) = none)) := by
  obtain ⟨hhas, hfinished, -, -⟩ := hm.entries _ t ht
  have hthere : ¬ ((m.streams t).finished = true ∨ ¬ m.Has t) := by
    rintro (h | h)
    · rw [hfinished] at h
      cases h
    · exact h hhas
  unfold forward
  by_cases hstop : m.stopping = true
  · rw [if_pos hstop]
    exact .inr ⟨rfl, .inl ⟨rfl, .inl hstop⟩⟩
  rw [if_neg hstop, ht]
  dsimp only
  unfold enqueue
  rw [if_neg hthere]
  by_cases hstopping : (m.streams t).stopping = true
  · rw [if_pos hstopping]
    exact .inr ⟨rfl, .inl ⟨rfl, .inr hstopping⟩⟩
  rw [if_neg hstopping]
  cases hwrites : m.writes.acquire (m.options.frameSize (.clientForward envelope)) with
  | none => exact .inr ⟨rfl, .inr ⟨rfl, rfl⟩⟩
  | some writes => exact .inl ⟨rfl, rfl⟩

end MessageServer

/-! ### Whole runs -/

namespace MessageNode

variable {n n' : MessageNode}

structure Sound (n : MessageNode) : Prop where
  configured : ∀ i, (n.servers i).options.shards = n.shards ∧ (n.servers i).options.shardId = i
  servers : ∀ i, (n.servers i).Sound
  tables : ∀ i, (n.servers i).Tabled (n.registrations i)
  /-- every command that a shard has was read from its stream -/
  heard : ∀ i t, (n.servers i).Has t → ∀ c ∈ (n.servers i).received t, (t, .command c) ∈ n.reads i

theorem Sound.set (hn : n.Sound) {i : ℕ} {m : MessageServer} {registrations : List ℕ}
    (reads : List (ℕ × GatewayToMessageFrame)) (hoptions : m.options = (n.servers i).options)
    (hsound : m.Sound) (htabled : m.Tabled registrations)
    (hheard : ∀ t, m.Has t → ∀ c ∈ m.received t, (t, .command c) ∈ reads) :
    ({ n.setServer i m with
        registrations := update n.registrations i registrations
        reads := update n.reads i reads } : MessageNode).Sound := by
  refine ⟨fun j => ?_, fun j => ?_, fun j => ?_, fun j => ?_⟩ <;> simp only [setServer] <;> by_cases h : j = i
  · subst h
    rw [update_self, hoptions]
    exact hn.configured j
  · rw [update_of_ne h]
    exact hn.configured j
  · subst h
    rwa [update_self]
  · rw [update_of_ne h]
    exact hn.servers j
  · subst h
    rwa [update_self, update_self]
  · rw [update_of_ne h, update_of_ne h]
    exact hn.tables j
  · subst h
    rwa [update_self, update_self]
  · rw [update_of_ne h, update_of_ne h]
    exact hn.heard j

theorem Sound.server (hn : n.Sound) {i : ℕ} {e : MessageEvent} {m : MessageServer}
    (h : (n.servers i).step e = some m) :
    ({ n.setServer i m with
        registrations := update n.registrations i
          (n.registrations i ++ (n.servers i).registering m e) } : MessageNode).Sound := by
  obtain ⟨hoptions, htabled⟩ := MessageServer.step_tabled (hn.tables i) (hn.servers i) h
  have hset := hn.set (n.reads i) hoptions (MessageServer.step_fares (hn.servers i) h).1 htabled
    fun t ht c hc => by
      rcases MessageServer.step_received (hn.tables i) (hn.servers i) h ht with ⟨hhas, hsub⟩ | hnone
      · exact hn.heard i t hhas c (hsub.subset hc)
      rw [hnone] at hc
      cases hc
  rwa [Function.update_eq_self] at hset

theorem step_sound (hn : n.Sound) {e : NodeEvent} (h : n.step e = some n') :
    n'.Sound ∧ n'.shards = n.shards := by
  cases e with
  | server i e =>
    simp only [step] at h
    split at h
    · obtain ⟨m, hm, rfl⟩ := Option.map_eq_some_iff.1 h
      exact ⟨hn.server hm, rfl⟩
    · cases h
  | read i t frame =>
    simp only [step] at h
    split at h
    · obtain ⟨m, hm, rfl⟩ := Option.map_eq_some_iff.1 h
      have hreads := MessageServer.read_reads (hn.servers i) hm
      have hstill := MessageServer.read_still hm
      refine ⟨?_, rfl⟩
      have hset := hn.set (n.reads i ++ [(t, frame)])
        hstill.options hreads.sound ((hn.tables i).still hstill) fun t' ht' c hc => by
          have hhas := hstill.has.1 ht'
          by_cases heq : t' = t
          · subst heq
            rcases mem_append.1 (hreads.received.subset hc) with hc | hc
            · exact mem_append_left _ (hn.heard i t' hhas c hc)
            have hframe : frame = .command c := by
              cases frame <;> simp_all [GatewayToMessageFrame.command?]
            exact mem_append_right _ (by simp [hframe])
          · have hsame : m.received t' = (n.servers i).received t' := by
              unfold MessageServer.received
              rw [MessageServer.requestsOf_congr hreads.requests, hreads.others t' heq]
            exact mem_append_left _ (hn.heard i t' hhas c (hsame ▸ hc))
      rwa [Function.update_eq_self] at hset
    · cases h
  | forward lease envelope =>
    cases h
    refine ⟨?_, rfl⟩
    have hset := hn.server (i := ownerShard lease.gatewayId n.shards) (e := .forward lease envelope) rfl
    rw [show (n.servers (ownerShard lease.gatewayId n.shards)).registering _ (.forward lease envelope) = []
      from rfl, append_nil, Function.update_eq_self] at hset
    exact hset

theorem start_sound (shards : ℕ) (options : MessageOptions) : (start shards options).Sound where
  configured _ := ⟨rfl, rfl⟩
  servers _ := MessageServer.start_sound _
  tables _ := MessageServer.start_tabled _
  heard _ _ h := absurd h.2 (Nat.not_le.2 h.1)

theorem Sound.owner (hn : n.Sound) {i t : ℕ} (ht : (n.servers i).Has t)
    (hregistered : ((n.servers i).streams t).registered = true) :
    ownerShard ((n.servers i).streams t).route.gatewayId n.shards = i := by
  have howned := (hn.tables i).owned t ht hregistered
  rwa [(hn.configured i).1, (hn.configured i).2] at howned

/-- The stream of a lease, if there is one, is at the shard that is asked. -/
theorem Sound.lease_owner (hn : n.Sound) {i t : ℕ} {lease : SessionLease}
    (ht : (n.servers i).registered (lease.gatewayId, lease.instanceId, lease.shardId) = some t) :
    ownerShard lease.gatewayId n.shards = i := by
  obtain ⟨hhas, -, hregistered, hkey⟩ := (hn.tables i).entries _ t ht
  have howner := hn.owner hhas hregistered
  rwa [show ((n.servers i).streams t).route.gatewayId = lease.gatewayId from congrArg Prod.fst hkey] at howner

end MessageNode

open MessageNode in
/-- What the tables of a node hold after every run. An entry names a stream that is there and registered
    under that key, the last one to do so of those that are not done; the end of another stream leaves
    it alone; a Gateway's streams register at one shard. So a push reaches the stream of its lease, and
    every result on a stream answers a command that was read from it. -/
theorem stream_tables (shards : ℕ) (options : MessageOptions) {events : List NodeEvent} {n : MessageNode}
    (h : events.foldlM step (start shards options) = some n) :
    (∀ i key t, (n.servers i).registered key = some t →
      ((n.servers i).Has t ∧ ((n.servers i).streams t).finished = false ∧
        ((n.servers i).streams t).registered = true ∧ ((n.servers i).streams t).route.key = key) ∧
      (n.servers i).lastRegistered (n.registrations i) key = some t) ∧
    (∀ i t m key t', (n.servers i).step (.stream t .done) = some m →
      (n.servers i).registered key = some t' → t' ≠ t → m.registered key = some t') ∧
    (∀ i t, (n.servers i).Has t → ((n.servers i).streams t).registered = true →
      i = ownerShard ((n.servers i).streams t).route.gatewayId shards) ∧
    (∀ i t (lease : SessionLease) envelope,
      (n.servers i).registered (lease.gatewayId, lease.instanceId, lease.shardId) = some t →
      (n.forward lease envelope).2 = .QUEUED ∧ (n.forward lease envelope).1.servers =
          update n.servers i ((n.servers i).forward lease envelope).1 ∧
        ((n.forward lease envelope).1.servers i).streams = update (n.servers i).streams t
          { (n.servers i).streams t with
            queued := ((n.servers i).streams t).queued ++ [.clientForward envelope] } ∨
      (n.forward lease envelope).1 = n ∧ ((n.forward lease envelope).2 = .OFFLINE ∧
          ((n.servers i).stopping = true ∨ ((n.servers i).streams t).stopping = true) ∨
        (n.forward lease envelope).2 = .BACKPRESSURED ∧ (n.servers i).writes.acquire
          ((n.servers i).options.frameSize (.clientForward envelope)) = none)) ∧
    (∀ i t, (n.servers i).Has t → ∀ r ∈ ((n.servers i).streams t).results,
      ∃ q ∈ (n.servers i).requests, q.origin = ((n.servers i).streams t).route ∧
        (t, .command q.command) ∈ n.reads i ∧
        ∃ response, q.response = some response ∧ r = MessageServer.resultOf q.command response) := by
  obtain ⟨hn, hshards⟩ : n.Sound ∧ n.shards = shards :=
    run_invariant (P := fun n => n.Sound ∧ n.shards = shards) ⟨start_sound shards options, rfl⟩
      (fun _ _ _ hn hstep => ⟨(step_sound hn.1 hstep).1, (step_sound hn.1 hstep).2.trans hn.2⟩) h
  refine ⟨fun i key t ht => ⟨(hn.tables i).entries key t ht, (hn.tables i).last key t ht⟩,
    fun i t m key t' hstep ht' hne => ?_, fun i t ht hregistered => ?_, fun i t lease envelope ht => ?_,
    fun i t ht r hr => ?_⟩
  · simp only [MessageServer.step] at hstep
    split at hstep
    · rename_i hhas
      have hends := MessageServer.onDone_ends (hn.tables i) ((hn.servers i).streams t hhas).token hstep
      rw [hends.table, ht', if_neg (by simpa using hne)]
    · cases hstep
  · rw [← hshards, hn.owner ht hregistered]
  · unfold forward
    dsimp only
    rw [hn.lease_owner ht]
    rcases MessageServer.forward_spec envelope (hn.tables i) ht with ⟨hstatus, hstreams⟩ | ⟨hsame, hrefused⟩
    · refine .inl ⟨hstatus, rfl, ?_⟩
      rw [← hstreams]
      simp [setServer]
    refine .inr ⟨?_, hrefused⟩
    rw [hsame, setServer, Function.update_eq_self]
  · obtain ⟨q, hq, response, hresponse, hr⟩ := (hn.servers i).results t ht r hr
    obtain ⟨hmem, htoken⟩ := MessageServer.mem_requestsOf.1 hq
    obtain ⟨-, -, horigin⟩ := (hn.servers i).origins q hmem
    refine ⟨q, hmem, ?_, ?_, response, hresponse, hr⟩
    · rw [← htoken, horigin]
    · exact hn.heard i t ht q.command (mem_append_left _ (mem_map.2 ⟨q, hq, rfl⟩))

namespace MessageNode

def gatewayRegistration : GatewayToMessageFrame :=
  .registerGateway {
    protocolVersion := 1, gatewayId := "g", instanceId := "i", streamEpoch := 1, shardId := 0, capacity := 1 }

/-- A Gateway registers, comes back on another stream, and only then the first one is done. -/
def reconnecting : List NodeEvent := [
  .server 0 (.connect []),
  .read 0 1 gatewayRegistration,
  .server 0 (.stream 1 .process),
  .server 0 (.connect []),
  .read 0 2 gatewayRegistration,
  .server 0 (.stream 2 .process),
  .server 0 (.stream 1 .done)]

def nodeOptions : MessageOptions where
  nodeId := "m"
  shards := 2
  shardId := 0
  frameSize := fun _ => 120
  requestSize := fun _ => 200
  parses := fun _ _ => true

end MessageNode

open MessageNode in
theorem stream_tables_reconnecting : ∃ n, reconnecting.foldlM step (start 2 nodeOptions) = some n ∧
    (n.servers 0).registered ("g", "i", 0) = some 2 ∧ n.registrations 0 = [1, 2] ∧
    ownerShard "g" 2 = 0 ∧ (n.servers 0).lastRegistered (n.registrations 0) ("g", "i", 0) = some 2 := by
  obtain ⟨n, hrun, hn⟩ := (Option.any_eq_true _ _).1 (show (reconnecting.foldlM step (start 2 nodeOptions)).any
    (fun n => decide ((n.servers 0).registered ("g", "i", 0) = some 2 ∧ n.registrations 0 = [1, 2] ∧
      ((n.servers 0).streams 2).route.gatewayId = "g")) = true by decide +kernel)
  obtain ⟨hregistered, hregistrations, hroute⟩ := of_decide_eq_true hn
  obtain ⟨htable, -, howner, -⟩ := stream_tables 2 nodeOptions hrun
  obtain ⟨⟨hhas, -, hstream, -⟩, hlast⟩ := htable 0 _ 2 hregistered
  exact ⟨n, hrun, hregistered, hregistrations, hroute ▸ (howner 0 2 hhas hstream).symm, hlast⟩

end Imm
