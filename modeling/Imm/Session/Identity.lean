import Imm.Link.Frames
import Imm.Session.Fencing
import Imm.Session.Logins

/-! One connection with all that its client can do to it: the frames it sends, the logins they start, and
    the commands that are forwarded in the background. Redis, MySQL and the Message service may answer
    anything at any time, or not at all. `history` is what has happened: the answers that a login got
    and the commands that were submitted. -/

namespace Imm

open Remote List

/-- `ClientRequest`; `login` and `receipt` are read from its packet where the operation has one. -/
structure ClientRequest where
  requestId : String
  operation : ClientOperation
  packet : Bytes := []
  conversationId : ℤ := 0
  login : LoginRequest := { uid := 0, authToken := "", deviceId := "" }
  /-- seq, conversation_id and conversation_seq -/
  receipt : ℤ × ℤ × ℤ := (0, 0, 0)

/-- What `decode` accepts; every operation but one is registered. -/
def ClientRequest.decoded (r : ClientRequest) : Bool :=
  decide (r.requestId ≠ "" ∧ r.operation ≠ .UNSPECIFIED)

structure ClientResponse where
  requestId : String
  operation : ClientOperation
  error : ErrorCodes

/-- Where a forwarded command is. -/
inductive ForwardStage where
  | starting
  | refreshing (call : ℕ)
  | refreshed
  | waiting
  | ended
  deriving DecidableEq

structure Forwarding where
  request : ClientRequest
  stage : ForwardStage := .starting

inductive Happening where
  /-- `validate_token` returned true -/
  | validated (uid : ℤ) (token : String)
  /-- `register_device` returned true -/
  | registered (uid : ℤ) (deviceId : String)
  /-- `bind_session` returned -/
  | bound (uid : ℤ) (deviceId : String) (generation : ℕ)
  /-- `send_command` was submitted -/
  | submitted (command : CommandEnvelope)

structure Dialogue where
  id : ConnectionId
  conn : Connection
  calls : List RedisCall := []
  reliable : List ℤ := []
  commands : ℕ := 0
  rateStarted : ℕ := 0
  closeAfterWrite : Bool := false
  forwards : List Forwarding := []
  responses : List ClientResponse := []
  history : List Happening := []

/-- What `admit` does. -/
inductive Admission where
  | granted
  | overloaded
  | stopped

inductive ForwardEvent where
  | start (now : ℕ)
  | refreshed (now : ℕ)
  | submit
  /-- the result, whose packet may not be readable -/
  | answered (error : ErrorCodes) (parsed : Bool)
  | fault (overloaded : Bool)

inductive DialogueEvent where
  /-- a frame is read, and decoded or not -/
  | frame (request : Option ClientRequest) (now : ℕ) (admission : Admission)
  /-- a login goes on, or the connection comes to its end -/
  | own (e : ConnectionEvent)
  /-- the connection that had the lease is closed, which may be this one -/
  | closedPrevious (self : Bool)
  | reply (call : ℕ) (r : RedisReply)
  | push (sequence : ℤ)
  | forward (k : ℕ) (e : ForwardEvent)

namespace Dialogue

variable (limit : ℕ) (d : Dialogue)

/-- Nothing is sent on a closed connection. -/
def respond (r : ClientRequest) (error : ErrorCodes) : Dialogue :=
  if d.conn.closed then d
  else { d with responses := d.responses ++ [⟨r.requestId, r.operation, error⟩] }

def error (r : ClientRequest) (code : ErrorCodes) : Dialogue :=
  if r.operation = .ACKNOWLEDGE then d else d.respond r code

def close : Dialogue := { d with conn := { d.conn with closed := true } }

/-- The count of commands in the current second. -/
def counted (r : ClientRequest) (now : ℕ) : Dialogue :=
  if r.operation = .ACKNOWLEDGE then d
  else
    let d := if 1000 ≤ now - d.rateStarted then { d with commands := 0, rateStarted := now } else d
    if limit ≠ 0 then { d with commands := d.commands + 1 } else d

/-- `connection::forward`; `limit` is the command rate limit, if it is not 0. -/
def forward (r : ClientRequest) (now : ℕ) (admission : Admission) : Dialogue :=
  let d := d.counted limit r now
  if r.operation ≠ .ACKNOWLEDGE ∧ limit ≠ 0 ∧ limit < d.commands then d.error r .ResourceExhausted
  else match admission with
    | .granted => { d with forwards := d.forwards ++ [{ request := r }] }
    | .overloaded => d.error r .ResourceExhausted
    | .stopped => d.error r .DependencyUnavailable

/-- A step of the connection itself, and the command it sends. -/
def moves (e : ConnectionEvent) : Option Dialogue :=
  (d.conn.step d.id.value d.calls e).map fun (conn, command) =>
    { d with conn, calls := d.calls ++ command.toList.map fun c => ⟨.connection d.id.value, c, none⟩ }

/-- `connection::process` -/
def process (r : ClientRequest) (now : ℕ) (admission : Admission) : Option Dialogue :=
  if r.operation ≠ .LOGIN ∧ d.conn.uid = 0 then some (d.error r .AuthenticationRequired)
  else match r.operation with
    | .LOGIN => d.moves (.request r.login)
    | .PING => some (d.respond r .Success)
    | .QUIT => some { (d.respond r .Success).close with closeAfterWrite := true }
    | .ACKNOWLEDGE =>
      let d := { d with reliable := d.reliable.filter (· ≠ r.receipt.1) }
      if 0 < r.receipt.2.1 ∧ 0 < r.receipt.2.2 then some (d.forward limit r now admission) else some d
    | _ => some (d.forward limit r now admission)

/-- What the answer to a step of a login says. -/
def learns : ConnectionEvent → List Happening
  | .checked true =>
    match d.conn.stage with
    | .validating login => [.validated login.uid login.authToken]
    | .registering login => [.registered login.uid login.deviceId]
    | _ => []
  | .resume _ =>
    match d.conn.stage with
    | .binding login call =>
      match replyTo d.calls call with
      | some (.bound generation _) => [.bound login.uid login.deviceId generation]
      | _ => []
    | _ => []
  | _ => []

/-- The events of the read loop, and those from outside. The end of a connection waits for its commands. -/
def ofOwn : ConnectionEvent → Bool
  | .checked _ | .resume _ | .fault _ | .close | .finish => true
  | .drain => d.forwards.all (·.stage = .ended)
  | .request _ | .refresh _ | .refreshed _ _ | .unrefreshed _ => false

/-- The command of a request, for whoever the connection belongs to now. -/
def envelope (r : ClientRequest) : CommandEnvelope where
  requestId := r.requestId
  actorUid := d.conn.uid
  actorDeviceId := d.conn.lease.deviceId
  connectionId := d.id
  connectionGeneration := d.conn.lease.generation
  operation := r.operation
  conversationId := r.conversationId
  packet := r.packet

def setForward (k : ℕ) (f : Forwarding) (stage : ForwardStage) : Dialogue :=
  { d with forwards := d.forwards.set k { f with stage } }

/-- `service::forward` -/
def forwardStep (k : ℕ) (f : Forwarding) : ForwardEvent → Option Dialogue
  | .start now =>
    match f.stage with
    | .starting =>
      if d.conn.closed then some (d.setForward k f .ended)
      else if now - d.conn.lastRefresh < 20 * 1000 then some (d.setForward k f .refreshed)
      else (d.moves (.refresh now)).map (·.setForward k f (.refreshing d.calls.length))
    | _ => none
  | .refreshed now =>
    match f.stage with
    | .refreshing call => (d.moves (.refreshed call now)).map fun d' =>
        d'.setForward k f (if d'.conn.closed then .ended else .refreshed)
    | _ => none
  | .submit =>
    match f.stage with
    | .refreshed =>
      some { d.setForward k f .waiting with history := d.history ++ [.submitted (d.envelope f.request)] }
    | _ => none
  | .answered code parsed =>
    match f.stage with
    | .waiting =>
      let d := d.setForward k f .ended
      if d.conn.closed then some d
      else if code = .AuthenticationRequired then some d.close
      else if f.request.operation = .ACKNOWLEDGE then some d
      else if parsed then some (d.respond f.request code)
      else some (d.error f.request .ProtobufPacket)
    | _ => none
  | .fault overloaded =>
    let code := if overloaded then ErrorCodes.ResourceExhausted else .DependencyUnavailable
    match f.stage with
    | .ended => none
    | .refreshing call => (d.moves (.unrefreshed call)).map fun d' => (d'.setForward k f .ended).error f.request code
    | _ => some ((d.setForward k f .ended).error f.request code)

def step : DialogueEvent → Option Dialogue
  | .frame request now admission =>
    match d.conn.stage with
    | .reading =>
      match request with
      | some r => if r.decoded then d.process limit r now admission else d.moves .finish
      | none => d.moves .finish
    | _ => none
  | .own e =>
    if d.ofOwn e then (d.moves e).map fun d' => { d' with history := d.history ++ d.learns e } else none
  | .closedPrevious self =>
    match d.conn.stage with
    | .closingPrevious login _ =>
      let conn := { d.conn with stage := .closedPrevious login }
      some { d with conn := if self then { conn with closed := true } else conn }
    | _ => none
  | .reply call r => d.calls[call]?.bind fun c =>
      match c.reply with
      | none => some { d with calls := answer d.calls call r }
      | some _ => none
  | .push sequence => if d.conn.closed then none else some { d with reliable := d.reliable ++ [sequence] }
  | .forward k e => d.forwards[k]?.bind fun f => d.forwardStep k f e

/-- A connection that was just accepted. -/
def accepted (id : ConnectionId) (inst : Instance) (shardId : ℕ) : Dialogue where
  id := id
  conn := { inst, shardId }

/-! ### What is known -/

/-- The three answers that an identity rests on. -/
structure Vouched (h : List Happening) (uid : ℤ) (deviceId : String) (generation : ℕ) : Prop where
  validated : ∃ token, .validated uid token ∈ h
  registered : .registered uid deviceId ∈ h
  bound : .bound uid deviceId generation ∈ h

/-- What a login has got so far. -/
def Learned (h : List Happening) : Stage → Prop
  | .preparing login | .registering login => ∃ token, .validated login.uid token ∈ h
  | .binding login _ => (∃ token, .validated login.uid token ∈ h) ∧ .registered login.uid login.deviceId ∈ h
  | _ => True

/-- `mark` is the identity that the connection had at some time, if it had one. -/
structure Known (mark : Option (ℤ × SessionLease)) (d : Dialogue) : Prop where
  fits : d.conn.Fits
  learned : Learned d.history d.conn.stage
  identity : d.conn.uid ≠ 0 → Vouched d.history d.conn.uid d.conn.lease.deviceId d.conn.lease.generation
  idle : d.conn.uid = 0 → d.forwards = []
  submitted : ∀ i command, d.history[i]? = some (.submitted command) →
    Vouched (d.history.take i) command.actorUid command.actorDeviceId command.connectionGeneration
  marked : ∀ x ∈ mark, x.1 ≠ 0 ∧ d.conn.uid = x.1 ∧ d.conn.lease = x.2

variable {limit} {d} {d' : Dialogue} {h h' : List Happening} {mark : Option (ℤ × SessionLease)}

theorem Vouched.mono {uid : ℤ} {deviceId : String} {generation : ℕ} (hv : Vouched h uid deviceId generation)
    (hsub : h ⊆ h') : Vouched h' uid deviceId generation :=
  ⟨hv.validated.imp fun _ ht => hsub ht, hsub hv.registered, hsub hv.bound⟩

theorem Learned.mono {stage : Stage} (hl : Learned h stage) (hsub : h ⊆ h') : Learned h' stage := by
  cases stage with
  | preparing login | registering login => exact hl.imp fun _ ht => hsub ht
  | binding login n => exact ⟨hl.1.imp fun _ ht => hsub ht, hsub hl.2⟩
  | _ => trivial

theorem learned_of_idle {stage : Stage} (hidle : stage.Idle) : Learned h stage := by
  cases stage with
  | preparing login | registering login | binding login n => exact hidle.elim
  | _ => trivial

/-- What happens next does not change what was there when a command was submitted. -/
theorem Known.submitted_append (hk : d.Known mark) {ls : List Happening}
    (hls : ∀ (i : ℕ) command, ls[i]? = some (.submitted command) → Vouched d.history command.actorUid
      command.actorDeviceId command.connectionGeneration) :
    ∀ (i : ℕ) command, (d.history ++ ls)[i]? = some (.submitted command) → Vouched ((d.history ++ ls).take i)
      command.actorUid command.actorDeviceId command.connectionGeneration := by
  intro i command hi
  rcases Nat.lt_or_ge i d.history.length with hlt | hge
  · rw [getElem?_append_left hlt] at hi
    rw [take_append_of_le_length hlt.le]
    exact hk.submitted i command hi
  rw [getElem?_append_right hge] at hi
  refine (hls _ command hi).mono fun x hx => ?_
  rw [take_append, take_of_length_le hge]
  exact mem_append_left _ hx

theorem Known.quiet (hk : d.Known mark) (hforwards : d.conn.uid = 0 → d'.forwards = [])
    (hsame : (d'.conn.stage, d'.conn.uid, d'.conn.lease, d'.history) =
      (d.conn.stage, d.conn.uid, d.conn.lease, d.history)) : d'.Known mark := by
  simp only [Prod.mk.injEq] at hsame
  obtain ⟨hstage, huid, hlease, hhistory⟩ := hsame
  refine ⟨?_, ?_, ?_, ?_, ?_, ?_⟩
  · have hfits := hk.fits
    unfold Connection.Fits at hfits ⊢
    rwa [hstage, huid]
  · rw [hhistory, hstage]
    exact hk.learned
  · rw [hhistory, huid, hlease]
    exact hk.identity
  · rwa [huid]
  · rw [hhistory]
    exact hk.submitted
  · rw [huid, hlease]
    exact hk.marked

theorem learns_not_submitted (e : ConnectionEvent) (i : ℕ) (command : CommandEnvelope) :
    (d.learns e)[i]? ≠ some (.submitted command) := by
  intro hi
  have hmem := mem_of_getElem? hi
  unfold learns at hmem
  split at hmem
  · split at hmem <;> simp at hmem
  · split at hmem
    · split at hmem <;> simp at hmem
    · cases hmem
  · cases hmem

theorem Known.moves (hk : d.Known mark) {e : ConnectionEvent} (hmoves : d.moves e = some d') :
    ({ d' with history := d.history ++ d.learns e } : Dialogue).Known mark := by
  obtain ⟨⟨conn, command⟩, hstep, rfl⟩ := Option.map_eq_some_iff.1 hmoves
  have hadvances := Connection.step_advances hstep
  have hsub : d.history ⊆ d.history ++ d.learns e := subset_append_left _ _
  refine ⟨hk.fits.advance hadvances, ?_, ?_, ?_, hk.submitted_append fun i command hi =>
    absurd hi (learns_not_submitted e i command), fun x hx => ?_⟩
  · cases hadvances with
    | stays hstage _ =>
      simp only [hstage]
      exact hk.learned.mono hsub
    | leaves hidle _ => exact learned_of_idle hidle
    | asks => trivial
    | @validated login hstage _ =>
      exact ⟨login.authToken, mem_append_right _ (by simp [learns, hstage])⟩
    | prepared hstage =>
      have hlearned := hk.learned.mono hsub
      rw [hstage] at hlearned
      exact hlearned
    | registered hstage =>
      have hlearned := hk.learned.mono hsub
      rw [hstage] at hlearned
      exact ⟨hlearned, mem_append_right _ (by simp [learns, hstage])⟩
    | @bound _ _ _ _ previous _ _ => cases previous <;> trivial
    | refreshes => trivial
  · have kept : d.conn.SameIdentity conn → conn.uid ≠ 0 →
        Vouched (d.history ++ d.learns e) conn.uid conn.lease.deviceId conn.lease.generation := by
      rintro ⟨huid, hlease⟩ hne
      rw [huid, hlease]
      exact (hk.identity (huid ▸ hne)).mono hsub
    cases hadvances with
    | stays _ hsame => exact kept hsame
    | leaves _ hsame => exact kept hsame
    | bound hstage hreply =>
      intro _
      have hlearned := hk.learned.mono hsub
      rw [hstage] at hlearned
      exact ⟨hlearned.1, hlearned.2, mem_append_right _ (by simp [learns, hstage, hreply, Connection.route])⟩
    | _ => exact kept ⟨rfl, rfl⟩
  · intro huid
    refine hk.idle ?_
    by_contra hne
    exact hne ((hk.fits.bound_once hadvances hne).1 ▸ huid)
  · obtain ⟨hne, huid, hlease⟩ := hk.marked x hx
    obtain ⟨huid', hlease'⟩ := hk.fits.bound_once hadvances (huid ▸ hne)
    exact ⟨hne, huid'.trans huid, hlease'.trans hlease⟩

/-! ### Steps -/

theorem respond_eq (r : ClientRequest) (code : ErrorCodes) :
    ∃ responses, d.respond r code = { d with responses } := by
  unfold respond
  split
  · exact ⟨d.responses, rfl⟩
  · exact ⟨_, rfl⟩

theorem error_eq (r : ClientRequest) (code : ErrorCodes) : ∃ responses, d.error r code = { d with responses } := by
  unfold error
  split
  · exact ⟨d.responses, rfl⟩
  · exact respond_eq r code

theorem Known.respond (hk : d.Known mark) (r : ClientRequest) (code : ErrorCodes) :
    (d.respond r code).Known mark := by
  obtain ⟨responses, heq⟩ := respond_eq r code
  rw [heq]
  exact hk.quiet hk.idle rfl

theorem Known.error (hk : d.Known mark) (r : ClientRequest) (code : ErrorCodes) : (d.error r code).Known mark := by
  obtain ⟨responses, heq⟩ := error_eq r code
  rw [heq]
  exact hk.quiet hk.idle rfl

theorem Known.close (hk : d.Known mark) : d.close.Known mark := hk.quiet hk.idle rfl

theorem counted_eq (limit : ℕ) (d : Dialogue) (r : ClientRequest) (now : ℕ) :
    ∃ commands rateStarted, d.counted limit r now = { d with commands, rateStarted } := by
  unfold counted
  split
  · exact ⟨d.commands, d.rateStarted, rfl⟩
  · split_ifs <;> exact ⟨_, _, rfl⟩

theorem Known.forward (hk : d.Known mark) (hbound : d.conn.uid ≠ 0) (r : ClientRequest) (now : ℕ)
    (admission : Admission) : (d.forward limit r now admission).Known mark := by
  obtain ⟨commands, rateStarted, hcounted⟩ := counted_eq limit d r now
  have hk' : (d.counted limit r now).Known mark := by
    rw [hcounted]
    exact hk.quiet hk.idle rfl
  unfold Dialogue.forward
  simp only
  split
  · exact hk'.error r _
  cases admission with
  | granted =>
    refine hk'.quiet (fun huid => ?_) rfl
    rw [hcounted] at huid
    exact absurd huid hbound
  | overloaded => exact hk'.error r _
  | stopped => exact hk'.error r _

theorem Known.moves_on (hk : d.Known mark) {e : ConnectionEvent} (hlearns : d.learns e = [])
    (hmoves : d.moves e = some d') : d'.Known mark := by
  have hk' := hk.moves hmoves
  obtain ⟨⟨conn, command⟩, -, rfl⟩ := Option.map_eq_some_iff.1 hmoves
  rwa [hlearns, append_nil] at hk'

theorem Known.process (hk : d.Known mark) {r : ClientRequest} {now : ℕ} {admission : Admission}
    (hprocess : d.process limit r now admission = some d') : d'.Known mark := by
  unfold Dialogue.process at hprocess
  split at hprocess
  · cases hprocess
    exact hk.error r _
  rename_i hallowed
  have hbound : r.operation ≠ .LOGIN → d.conn.uid ≠ 0 := fun hop huid => hallowed ⟨hop, huid⟩
  split at hprocess
  · exact hk.moves_on rfl hprocess
  · cases hprocess
    exact hk.respond r _
  · cases hprocess
    exact ((hk.respond r _).close).quiet (hk.respond r _).close.idle rfl
  · rename_i hop
    have hk' : ({ d with reliable := d.reliable.filter (· ≠ r.receipt.1) } : Dialogue).Known mark :=
      hk.quiet hk.idle rfl
    split at hprocess <;> cases hprocess
    · exact hk'.forward (hbound (by simp [hop])) r now admission
    · exact hk'
  · rename_i hlogin _ _ _
    cases hprocess
    exact hk.forward (hbound hlogin) r now admission

theorem Known.setForward (hk : d.Known mark) {k : ℕ} {f : Forwarding} (hf : d.forwards[k]? = some f)
    (stage : ForwardStage) : (d.setForward k f stage).Known mark :=
  hk.quiet (fun huid => by simp [hk.idle huid] at hf) rfl

theorem moves_forwards {e : ConnectionEvent} (hmoves : d.moves e = some d') : d'.forwards = d.forwards := by
  obtain ⟨⟨conn, command⟩, -, rfl⟩ := Option.map_eq_some_iff.1 hmoves
  rfl

theorem Known.forwardStep (hk : d.Known mark) {k : ℕ} {f : Forwarding} (hf : d.forwards[k]? = some f)
    {e : ForwardEvent} (hstep : d.forwardStep k f e = some d') : d'.Known mark := by
  have hbound : d.conn.uid ≠ 0 := fun huid => by simp [hk.idle huid] at hf
  have moved : ∀ {e d'} (stage : ForwardStage), d.learns e = [] → d.moves e = some d' →
      (d'.setForward k f stage).Known mark := fun stage hlearns hmoves =>
    (hk.moves_on hlearns hmoves).setForward ((moves_forwards hmoves).symm ▸ hf) stage
  cases e with
  | start now =>
    simp only [Dialogue.forwardStep] at hstep
    split at hstep
    · split at hstep
      · cases hstep
        exact hk.setForward hf _
      split at hstep
      · cases hstep
        exact hk.setForward hf _
      obtain ⟨d₁, hmoves, rfl⟩ := Option.map_eq_some_iff.1 hstep
      exact moved _ rfl hmoves
    · cases hstep
  | refreshed now =>
    simp only [Dialogue.forwardStep] at hstep
    split at hstep
    · obtain ⟨d₁, hmoves, rfl⟩ := Option.map_eq_some_iff.1 hstep
      exact moved _ rfl hmoves
    · cases hstep
  | submit =>
    simp only [Dialogue.forwardStep] at hstep
    split at hstep <;> cases hstep
    have hk' := hk.setForward hf .waiting
    refine ⟨hk'.fits, hk'.learned.mono (subset_append_left _ _), fun huid =>
      (hk'.identity huid).mono (subset_append_left _ _), hk'.idle, hk.submitted_append fun i command hi => ?_,
      hk'.marked⟩
    -- the identity of the command is the one the connection has now
    have hmem := mem_of_getElem? hi
    rw [mem_singleton] at hmem
    cases hmem
    exact hk.identity hbound
  | answered code parsed =>
    simp only [Dialogue.forwardStep] at hstep
    have hk' := hk.setForward hf .ended
    split at hstep
    · split_ifs at hstep <;> cases hstep
      · exact hk'
      · exact hk'.close
      · exact hk'
      · exact hk'.respond _ _
      · exact hk'.error _ _
    · cases hstep
  | fault overloaded =>
    simp only [Dialogue.forwardStep] at hstep
    split at hstep
    · cases hstep
    · obtain ⟨d₁, hmoves, rfl⟩ := Option.map_eq_some_iff.1 hstep
      exact (moved _ rfl hmoves).error _ _
    cases hstep
    exact (hk.setForward hf _).error _ _

theorem Known.step (hk : d.Known mark) {e : DialogueEvent} (hstep : d.step limit e = some d') : d'.Known mark := by
  cases e with
  | frame request now admission =>
    simp only [Dialogue.step] at hstep
    split at hstep
    · split at hstep
      · split at hstep
        · exact hk.process hstep
        · exact hk.moves_on rfl hstep
      · exact hk.moves_on rfl hstep
    · cases hstep
  | own e =>
    simp only [Dialogue.step] at hstep
    split at hstep
    · obtain ⟨d₁, hmoves, rfl⟩ := Option.map_eq_some_iff.1 hstep
      exact hk.moves hmoves
    · cases hstep
  | closedPrevious self =>
    simp only [Dialogue.step] at hstep
    split at hstep
    · rename_i login previous hstage
      have hfits := hk.fits
      rw [Connection.Fits, hstage] at hfits
      cases hstep
      cases self <;> exact ⟨hfits, trivial, hk.identity, hk.idle, hk.submitted, hk.marked⟩
    · cases hstep
  | reply call r =>
    obtain ⟨c, -, hstep⟩ := Option.bind_eq_some_iff.1 hstep
    split at hstep <;> cases hstep
    exact hk.quiet hk.idle rfl
  | push sequence =>
    simp only [Dialogue.step] at hstep
    split at hstep <;> cases hstep
    exact hk.quiet hk.idle rfl
  | forward k e =>
    obtain ⟨f, hf, hstep⟩ := Option.bind_eq_some_iff.1 hstep
    exact hk.forwardStep hf hstep

theorem run_known {es : List DialogueEvent} (hk : d.Known mark)
    (hrun : es.foldlM (Dialogue.step limit) d = some d') : d'.Known mark :=
  Steps.run_invariant hk (fun _ _ _ hk hstep => hk.step hstep) hrun

theorem accepted_known (id : ConnectionId) (inst : Instance) (shardId : ℕ) :
    (accepted id inst shardId).Known none :=
  ⟨trivial, trivial, fun h => absurd rfl h, fun _ => rfl, by simp [accepted], by simp⟩

/-- A frame of an unbound connection that is no login is answered, or ends the connection. -/
theorem unbound_frame (huid : d.conn.uid = 0) {r : ClientRequest} (hop : r.operation ≠ .LOGIN) {now : ℕ}
    {admission : Admission} (hstep : d.step limit (.frame (some r) now admission) = some d') :
    d' = d.error r .AuthenticationRequired ∨
      d' = { d with conn := { d.conn with closed := true, stage := .draining } } := by
  simp only [step] at hstep
  split at hstep
  · rename_i hstage
    split at hstep
    · rw [process, if_pos ⟨hop, huid⟩] at hstep
      exact .inl (Option.some.inj hstep).symm
    obtain ⟨⟨conn, command⟩, hfinish, rfl⟩ := Option.map_eq_some_iff.1 hstep
    simp only [Connection.step, hstage, Option.some.injEq, Prod.mk.injEq] at hfinish
    obtain ⟨rfl, rfl⟩ := hfinish
    exact .inr (by simp)
  · cases hstep

end Dialogue

open Dialogue

/-- Every command is submitted for an identity that this connection has proved, a connection without one
    does nothing but log in, and one that has an identity keeps it. -/
theorem authenticated_identity {limit : ℕ} {id : ConnectionId} {inst : Instance} {shardId : ℕ}
    {es : List DialogueEvent} {d : Dialogue}
    (hrun : es.foldlM (Dialogue.step limit) (accepted id inst shardId) = some d) :
    (∀ i command, d.history[i]? = some (.submitted command) →
      (∃ token, .validated command.actorUid token ∈ d.history.take i) ∧
      .registered command.actorUid command.actorDeviceId ∈ d.history.take i ∧
      .bound command.actorUid command.actorDeviceId command.connectionGeneration ∈ d.history.take i) ∧
    (d.conn.uid = 0 → d.forwards = [] ∧ ∀ (r : ClientRequest) now admission d', r.operation ≠ .LOGIN →
      d.step limit (.frame (some r) now admission) = some d' →
        d' = d.error r .AuthenticationRequired ∨
        d' = { d with conn := { d.conn with closed := true, stage := .draining } }) ∧
    ∀ (es' : List DialogueEvent) d', es'.foldlM (Dialogue.step limit) d = some d' → d.conn.uid ≠ 0 →
      d'.conn.uid = d.conn.uid ∧ d'.conn.lease = d.conn.lease := by
  have hk := run_known (accepted_known id inst shardId) hrun
  refine ⟨fun i command hi => ?_, fun huid => ⟨hk.idle huid, fun r now admission d' hop hstep =>
    unbound_frame huid hop hstep⟩, fun es' d' hrun' huid => ?_⟩
  · obtain ⟨hvalidated, hregistered, hbound⟩ := hk.submitted i command hi
    exact ⟨hvalidated, hregistered, hbound⟩
  · have hmarked : d.Known (some (d.conn.uid, d.conn.lease)) :=
      { hk with marked := by rintro x ⟨⟩; exact ⟨huid, rfl, rfl⟩ }
    exact ((run_known hmarked hrun').marked _ rfl).2

/-- A login, and a text that is sent after it. -/
def sendsText : List DialogueEvent :=
  [.frame (some { requestId := "1", operation := .LOGIN, login := ⟨1, "token", "phone", false, "", 0, "", ""⟩ }) 0
    .granted, .own (.checked true), .own (.checked true), .own (.checked true), .reply 0 (.bound 7 none),
   .own (.resume 0), .own (.resume 0), .reply 1 (.integer 1), .own (.resume 0),
   .frame (some { requestId := "2", operation := .SEND_TEXT }) 1 .granted, .forward 0 (.start 1),
   .forward 0 .submit]

theorem authenticated_identity_sends_text : ∃ (d : Dialogue) (command : CommandEnvelope),
    sendsText.foldlM (Dialogue.step 0) (accepted ⟨"a", by decide⟩ ⟨"g", "i"⟩ 0) = some d ∧
      d.history[3]? = some (.submitted command) ∧ command.actorUid = 1 ∧ command.actorDeviceId = "phone" ∧
      command.connectionGeneration = 7 ∧ .bound 1 "phone" 7 ∈ d.history.take 3 := by
  have hrun : ∃ (d : Dialogue) (command : CommandEnvelope),
      sendsText.foldlM (Dialogue.step 0) (accepted ⟨"a", by decide⟩ ⟨"g", "i"⟩ 0) = some d ∧
        d.history[3]? = some (.submitted command) ∧ command.actorUid = 1 ∧ command.actorDeviceId = "phone" ∧
        command.connectionGeneration = 7 := ⟨_, _, rfl, rfl, rfl, rfl, rfl⟩
  obtain ⟨d, command, hrun, hsubmitted, huid, hdevice, hgeneration⟩ := hrun
  obtain ⟨-, -, hbound⟩ := (authenticated_identity hrun).1 3 command hsubmitted
  rw [huid, hdevice, hgeneration] at hbound
  exact ⟨d, command, hrun, hsubmitted, huid, hdevice, hgeneration, hbound⟩

end Imm
