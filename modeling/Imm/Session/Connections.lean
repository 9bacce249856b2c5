import Imm.Session.Redis
import Imm.Store.Schema

/-! Connections of clients to the Gateways, and the leases they keep in Redis. A connection reads one
    request after the other. A login checks the client, binds a lease, closes the connection that had
    it before and makes sure that the lease is still its own; forwarded commands refresh the lease in
    the background; the end of a connection clears it. The Message service looks the leases of a user
    up to push to them.

        reading ─▶ validating ─▶ preparing ─▶ registering ─▶ binding ─▶ closingPrevious
           ▲            │ any step may fail: an answer, and back          │
           ├────────────┘                                                 ▼
           ├───────────────────────────────────── refreshing ◀──── closedPrevious
           ▼
        draining ─▶ clearing ─▶ ended

    Every arrow out of a stage that waits may be taken at any later time, so any number of connections
    on any number of Gateways interleave, and a connection may be closed in every stage. -/

namespace Imm

open Remote

/-- A Gateway process. -/
structure Instance where
  gatewayId : String
  instanceId : String
  deriving DecidableEq

structure LoginRequest where
  uid : ℤ
  authToken : String
  deviceId : String
  initProfile : Bool := false
  name : String := ""
  age : ℤ := 0
  sex : String := ""
  headImageUrl : String := ""

/-- `gateway_protocol::validate` -/
def LoginRequest.validate (login : LoginRequest) : ErrorCodes :=
  if login.uid ≤ 0 ∨ login.deviceId = "" ∨ 36 < login.deviceId.utf8ByteSize ∨
      login.deviceId.toList.any ("\r\n".toList.contains ·) ∨ login.authToken = "" then .TokenInvalid
  else if login.initProfile ∧ (64 < login.name.utf8ByteSize ∨ 16 < login.sex.utf8ByteSize ∨
      512 < login.headImageUrl.utf8ByteSize ∨ login.age < 0 ∨ 32767 < login.age) then .ProtobufPacket
  else .Success

/-- What the read loop of a connection is doing; `call` is the Redis command it waits for. -/
inductive Stage where
  | reading
  | validating (login : LoginRequest)
  | preparing (login : LoginRequest)
  | registering (login : LoginRequest)
  | binding (login : LoginRequest) (call : ℕ)
  | closingPrevious (login : LoginRequest) (previous : SessionLease)
  | closedPrevious (login : LoginRequest)
  | refreshing (login : LoginRequest) (call : ℕ)
  | draining
  | clearing (call : ℕ)
  | ended

/-- Where a login is after its bind. -/
def Stage.afterBind (login : LoginRequest) : Option SessionLease → Stage
  | some previous => .closingPrevious login previous
  | none => .closedPrevious login

/-- A response to a login. -/
inductive LoginAnswer where
  | loggedIn (uid : ℤ)
  | refused (error : ErrorCodes)

/-- `refreshes` are the refreshes that forwarded commands wait for, `lastRefresh` is a reading of the
    process's own clock. -/
structure Connection where
  inst : Instance
  shardId : ℕ
  uid : ℤ := 0
  lease : SessionLease := {}
  closed : Bool := false
  stage : Stage := .reading
  refreshes : List ℕ := []
  lastRefresh : ℕ := 0
  answers : List LoginAnswer := []

/-- Who sends a Redis command. -/
inductive Caller where
  | connection (id : String)
  | message
  deriving DecidableEq

abbrev RedisCall := Call Caller RedisCommand RedisReply

/-- The reply to a call, if it has been carried out. -/
def replyTo (calls : List RedisCall) (n : ℕ) : Option RedisReply := calls[n]?.bind (·.reply)

inductive ConnectionEvent where
  /-- a login is read -/
  | request (login : LoginRequest)
  /-- what `validate_token`, `prepare_profile` or `register_device` answers -/
  | checked (ok : Bool)
  /-- the read loop goes on with the reply it has waited for -/
  | resume (now : ℕ)
  /-- the read loop gets an exception instead -/
  | fault (overloaded : Bool)
  /-- a forwarded command looks after the lease -/
  | refresh (now : ℕ)
  /-- and gets the reply, -/
  | refreshed (call now : ℕ)
  /-- or an exception -/
  | unrefreshed (call : ℕ)
  /-- the client has gone, does not read, or sends what cannot be read -/
  | close
  /-- the read loop ends -/
  | finish
  /-- and so have the commands in progress -/
  | drain

namespace Connection

variable (id : String) (calls : List RedisCall) (c : Connection)

def answer (a : LoginAnswer) : Connection := { c with stage := .reading, answers := c.answers ++ [a] }

def route (deviceId : String) : SessionLease where
  deviceId := deviceId
  gatewayId := c.inst.gatewayId
  instanceId := c.inst.instanceId
  connectionId := id
  shardId := c.shardId

/-- One step of a connection, and the Redis command it sends. -/
def step : ConnectionEvent → Option (Connection × Option RedisCommand)
  | .request login =>
    match c.stage with
    | .reading =>
      if login.validate ≠ .Success then some (c.answer (.refused login.validate), none)
      else if 0 < c.uid ∧ (c.uid ≠ login.uid ∨ c.lease.deviceId ≠ login.deviceId) then
        some (c.answer (.refused .UidInvalid), none)
      else some ({ c with stage := .validating login }, none)
    | _ => none
  | .checked ok =>
    match c.stage with
    | .validating login =>
      if !ok then some (c.answer (.refused .TokenInvalid), none)
      else if c.closed then some ({ c with stage := .reading }, none)
      else if c.uid = 0 then some ({ c with stage := .preparing login }, none)
      else some (c.answer (.loggedIn login.uid), none)
    | .preparing login =>
      if !ok then some (c.answer (.refused .NotFound), none)
      else if c.closed then some ({ c with stage := .reading }, none)
      else some ({ c with stage := .registering login }, none)
    | .registering login =>
      if !ok then some (c.answer (.refused .AuthenticationRequired), none)
      else if c.closed then some ({ c with stage := .reading }, none)
      else some ({ c with stage := .binding login calls.length },
        some (.bindSession login.uid (c.route id login.deviceId)))
    | _ => none
  | .resume now =>
    match c.stage with
    | .binding login call =>
      match replyTo calls call with
      | some (.bound generation previous) =>
        -- the connection is bound even if it has been closed meanwhile
        some ({ c with
          uid := login.uid, lease := { c.route id login.deviceId with generation }, lastRefresh := now
          stage := .afterBind login previous }, none)
      | _ => none
    | .closedPrevious login =>
      if c.closed then some ({ c with stage := .reading }, none)
      else some ({ c with stage := .refreshing login calls.length }, some (.refreshSession c.uid c.lease))
    | .refreshing login call =>
      match replyTo calls call with
      | some (.integer n) =>
        if n ≠ 1 then some ({ c with closed := true, stage := .reading }, none)
        else if c.closed then some ({ c with stage := .reading }, none)
        else some (c.answer (.loggedIn login.uid), none)
      | _ => none
    | .clearing call =>
      match replyTo calls call with
      | some _ => some ({ c with stage := .ended }, none)
      | none => none
    | _ => none
  | .fault overloaded =>
    match c.stage with
    | .validating _ | .preparing _ | .registering _ | .binding _ _ | .refreshing _ _ =>
      some (c.answer (.refused (if overloaded then .ResourceExhausted else .DependencyUnavailable)), none)
    | .clearing _ => some ({ c with stage := .ended }, none)
    | _ => none
  | .refresh now =>
    if c.uid = 0 ∨ c.closed ∨ now - c.lastRefresh < 20 * 1000 then some (c, none)
    else some ({ c with refreshes := calls.length :: c.refreshes }, some (.refreshSession c.uid c.lease))
  | .refreshed call now =>
    if call ∈ c.refreshes then
      match replyTo calls call with
      | some (.integer n) =>
        let rest := { c with refreshes := c.refreshes.erase call }
        if n = 1 then some ({ rest with lastRefresh := now }, none)
        else some ({ rest with closed := true }, none)
      | _ => none
    else none
  | .unrefreshed call =>
    if call ∈ c.refreshes then some ({ c with refreshes := c.refreshes.erase call }, none) else none
  | .close => some ({ c with closed := true }, none)
  | .finish =>
    match c.stage with
    | .reading => some ({ c with closed := true, stage := .draining }, none)
    | _ => none
  | .drain =>
    match c.stage with
    | .draining =>
      if c.refreshes ≠ [] then none
      else if 0 < c.uid ∧ c.lease.generation ≠ 0 then
        some ({ c with stage := .clearing calls.length }, some (.clearSession c.uid c.lease))
      else some ({ c with stage := .ended }, none)
    | _ => none

end Connection

/-! ### Lookups of the Message service -/

/-- Where a run of `get_sessions` is: `todo` are the devices it has not looked at. -/
inductive LookupStage where
  | listing (call : ℕ)
  | reading (call : ℕ) (deviceId : String) (todo : List String)
  | removing (call : ℕ) (todo : List String)
  | done
  | failed

structure Lookup where
  uid : ℤ
  found : List SessionLease := []
  stage : LookupStage

namespace Lookup

variable (calls : List RedisCall) (q : Lookup)

/-- The loop over the devices. -/
def next : List String → Lookup × Option RedisCommand
  | [] => ({ q with stage := .done }, none)
  | deviceId :: todo => ({ q with stage := .reading calls.length deviceId todo }, some (.get q.uid deviceId))

/-- A device without a lease is removed from the index, by a command of its own. -/
def step : Option (Lookup × Option RedisCommand) :=
  match q.stage with
  | .listing call =>
    match replyTo calls call with
    | some (.devices ids) => some (q.next calls ids)
    | _ => none
  | .reading call deviceId todo =>
    match replyTo calls call with
    | some (.lease value) =>
      let lease := value.getD {}
      if lease.connectionId = "" then
        some ({ q with stage := .removing calls.length todo }, some (.remove q.uid deviceId))
      else some ({ q with found := q.found ++ [lease] }.next calls todo)
    | _ => none
  | .removing call todo =>
    match replyTo calls call with
    | some _ => some (q.next calls todo)
    | none => none
  | .done | .failed => none

end Lookup

/-! ### All of them -/

structure Sessions where
  redis : Redis := {}
  calls : List RedisCall := []
  connections : Table String Connection := ∅
  lookups : List Lookup := []

inductive SessionEvent where
  | accept (id : String) (inst : Instance) (shardId : ℕ)
  | connection (id : String) (e : ConnectionEvent)
  /-- the login of `id` has the connection closed that held the lease before -/
  | closePrevious (id : String)
  /-- Redis carries a command out -/
  | execute (call : ℕ)
  | elapse (ms : ℕ)
  /-- a run of `get_sessions` begins, -/
  | lookup (uid : ℤ)
  /-- goes on with the reply it has waited for, -/
  | lookupResume (i : ℕ)
  /-- or gets an exception -/
  | lookupFault (i : ℕ)

namespace Sessions

/-- The command goes out, if there is one. -/
def sent (s : Sessions) (w : Caller) : Option RedisCommand → Sessions
  | some command => { s with calls := send s.calls w command }
  | none => s

def put (s : Sessions) (id : String) (c : Connection) : Sessions :=
  { s with connections := s.connections.set id (some c) }

/-- `server::close_connection`, on the shard that has the connection -/
def closeConnection (s : Sessions) (inst : Instance) (shardId : ℕ) (id : String) : Sessions :=
  match s.connections.get id with
  | some c => if c.inst = inst ∧ c.shardId = shardId then s.put id { c with closed := true } else s
  | none => s

/-- `server::close_previous`: only a connection of this process can be closed. -/
def closePrevious (shards : Instance → ℕ) (s : Sessions) (inst : Instance) (previous : SessionLease) :
    Sessions :=
  if previous.gatewayId ≠ inst.gatewayId ∨ previous.instanceId ≠ inst.instanceId then s
  else if shards inst ≤ previous.shardId then s
  else s.closeConnection inst previous.shardId previous.connectionId

/-- One step; `shards` is the number of shards of each process. -/
def step (shards : Instance → ℕ) (s : Sessions) : SessionEvent → Option Sessions
  | .accept id inst shardId =>
    -- the id is a new UUID
    if id ≠ "" ∧ s.connections.get id = none ∧ shardId < shards inst then
      some (s.put id { inst, shardId })
    else none
  | .connection id e => (s.connections.get id).bind fun c =>
      (c.step id s.calls e).map fun (c', command) => (s.put id c').sent (.connection id) command
  | .closePrevious id => (s.connections.get id).bind fun c =>
      match c.stage with
      | .closingPrevious login previous =>
        some ((s.put id { c with stage := .closedPrevious login }).closePrevious shards c.inst previous)
      | _ => none
  | .execute n => s.calls[n]?.bind fun call =>
      match call.reply with
      | none =>
        let (reply, redis) := s.redis.execute call.command
        some { s with redis, calls := answer s.calls n reply }
      | some _ => none
  | .elapse ms => some { s with redis := s.redis.elapse ms }
  | .lookup uid =>
    let q : Lookup := { uid, stage := .listing s.calls.length }
    some ({ s with lookups := s.lookups ++ [q] }.sent .message (some (.members uid)))
  | .lookupResume i => s.lookups[i]?.bind fun q =>
      (q.step s.calls).map fun (q', command) =>
        { s with lookups := s.lookups.set i q' }.sent .message command
  | .lookupFault i => s.lookups[i]?.bind fun q =>
      match q.stage with
      | .done | .failed => none
      | _ => some { s with lookups := s.lookups.set i { q with stage := .failed } }

/-- A run of all of them, from the start of the deployment. -/
def Runs (shards : Instance → ℕ) (s : Sessions) : Prop :=
  ∃ evs : List SessionEvent, evs.foldlM (step shards) ({} : Sessions) = some s

end Sessions

end Imm
