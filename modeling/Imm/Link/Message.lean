import Imm.Link.Frames
import Imm.Session.Redis

/-! The Message end of the streams: the `transport::server` of one shard with its streams, and the part
    of `transaction::service` that takes commands in and answers them. Streams are numbered by their
    tokens; one that is `finished` is no longer in `_streams`. `requests` are the commands dispatched
    so far, `replies` the calls of `service::reply`, each with the number of its request. What handling
    a command does to the store is the subject of the transaction modules; here it ends with any
    packet, at any later time. -/

namespace Imm

structure StreamRoute where
  gatewayId : String := ""
  instanceId : String := ""
  shardId : ℕ := 0
  token : ℕ := 0
  deriving DecidableEq

abbrev StreamKey := String × String × ℕ

def StreamRoute.key (route : StreamRoute) : StreamKey := (route.gatewayId, route.instanceId, route.shardId)

structure Stream where
  route : StreamRoute := {}
  /-- the link at the other end; the streams of other Gateways have none here -/
  link : Option ℕ := none
  peerIdentities : List String := []
  registered : Bool := false
  stopping : Bool := false
  finishing : Bool := false
  finished : Bool := false
  reading : Bool := false
  /-- read, and waiting for `process` -/
  frame : Option GatewayToMessageFrame := none
  queued : List MessageToGatewayFrame := []
  writing : Option MessageToGatewayFrame := none
  wire : List MessageToGatewayFrame := []

namespace Stream

variable (x : Stream)

def finish : Stream :=
  if x.finishing = false ∧ x.finished = false ∧ x.writing.isNone then { x with finishing := true } else x

def stop : Stream := if x.stopping ∨ x.finished then x else { x with stopping := true }.finish

end Stream

/-- The sizes are those of the encoded frames; `parses` tells whether the bytes are a packet with the
    request of the operation. -/
structure MessageOptions where
  nodeId : String
  shards : ℕ
  shardId : ℕ
  mtls : Bool := false
  maxWrites : ℕ := 65536
  maxWriteBytes : ℕ := 512 * 1024 * 1024
  maxRequests : ℕ := 512
  maxRequestBytes : ℕ := 64 * 1024 * 1024
  frameSize : MessageToGatewayFrame → ℕ
  requestSize : CommandEnvelope → ℕ
  parses : ClientOperation → Bytes → Bool

/-- `request_context`, with the response once it is there. -/
structure RequestContext where
  origin : StreamRoute
  command : CommandEnvelope
  response : Option Packet := none

structure MessageServer where
  options : MessageOptions
  stopping : Bool := false
  nextToken : ℕ := 0
  streams : ℕ → Stream := fun _ => {}
  registered : StreamKey → Option ℕ := fun _ => none
  writes : Budget
  /-- `_stopping` of the transaction service -/
  serviceStopping : Bool := false
  requestsBudget : Budget
  /-- the bytes held by requests that have not ended -/
  permits : List (ℕ × ℕ) := []
  requests : List RequestContext := []
  replies : List (ℕ × CommandResult) := []

/-- `message_route::owner_shard` -/
def ownerShard (gatewayId : String) (shardCount : ℕ) : ℕ :=
  (gatewayId.toUTF8.data.toList.foldl
    (fun hash byte => (hash ^^^ byte.toNat) * 1099511628211 % 2 ^ 64) 14695981039346656037) % shardCount

def isRetryableError : ErrorCodes → Bool
  | .RPCFailed | .MysqlFailed | .InternalError | .ResourceExhausted | .DependencyUnavailable => true
  | _ => false

namespace MessageServer

variable (m : MessageServer)

def start (options : MessageOptions) : MessageServer where
  options := options
  writes := ⟨options.maxWrites, options.maxWriteBytes⟩
  requestsBudget := ⟨options.maxRequests, options.maxRequestBytes⟩

/-- The tokens given out so far. -/
def Has (t : ℕ) : Prop := 0 < t ∧ t ≤ m.nextToken

instance (t : ℕ) : Decidable (m.Has t) := inferInstanceAs (Decidable (_ ∧ _))

def setStream (t : ℕ) (x : Stream) : MessageServer := { m with streams := Function.update m.streams t x }

def stopStream (t : ℕ) : MessageServer := m.setStream t (m.streams t).stop

/-- `Connect`: the stream gets the next token. -/
def connect (link : Option ℕ) (peerIdentities : List String) : MessageServer :=
  let stream : Stream := { route := { token := m.nextToken + 1 }, link, peerIdentities }
  let stream := if m.stopping then stream.stop else { stream with reading := true }
  { m.setStream (m.nextToken + 1) stream with nextToken := m.nextToken + 1 }

/-- `_streams.at(token)->enqueue(frame)` -/
def enqueue (t : ℕ) (frame : MessageToGatewayFrame) : Except LinkError MessageServer :=
  if (m.streams t).finished ∨ ¬ m.Has t then .error .outOfRange
  else if (m.streams t).stopping then .error .stopped
  else
    match m.writes.acquire (m.options.frameSize frame) with
    | none => .error .overloaded
    | some writes =>
      .ok { m.setStream t { m.streams t with queued := (m.streams t).queued ++ [frame] } with
        writes := writes }

/-- The checks of `register_stream`. -/
def accepts (source : Stream) (registration : RegisterGateway) : Bool :=
  !m.stopping && !source.registered && registration.protocolVersion == 1 &&
    registration.gatewayId != "" && registration.instanceId != "" &&
    ownerShard registration.gatewayId m.options.shards == m.options.shardId &&
    (!m.options.mtls || source.peerIdentities.contains registration.gatewayId)

/-- The key of a stream comes to name it. -/
def claim (t : ℕ) (route : StreamRoute) : MessageServer :=
  { m.setStream t { m.streams t with route } with
    registered := Function.update m.registered route.key (some route.token) }

/-- `_streams.at(old)->stop()` for the stream that had the key. -/
def stopReplaced : Option ℕ → Except LinkError MessageServer
  | none => .ok m
  | some old =>
    if (m.streams old).finished ∨ ¬ m.Has old then .error .outOfRange
    else .ok (m.stopStream old)

/-- `register_stream`: the table is switched to the new stream before the old one is stopped. An
    exception ends in the stop of the stream that registers. -/
def registerStream (t : ℕ) (registration : RegisterGateway) : MessageServer :=
  if !m.accepts (m.streams t) registration then m.stopStream t
  else
    let route : StreamRoute := {
      gatewayId := registration.gatewayId
      instanceId := registration.instanceId
      shardId := registration.shardId
      token := (m.streams t).route.token }
    match (m.claim t route).stopReplaced (m.registered route.key) with
    | .error _ => (m.claim t route).stopStream t
    | .ok m =>
      let m := m.setStream t { m.streams t with registered := true }
      match m.enqueue t (.registerResult true m.options.nodeId registration.streamEpoch) with
      | .ok m => m
      | .error _ => m.stopStream t

/-- `server::reply`: only to the stream that the request came on. -/
def reply (route : StreamRoute) (frame : MessageToGatewayFrame) : MessageServer :=
  if m.stopping ∨ m.registered route.key ≠ some route.token then m
  else
    match m.enqueue route.token frame with
    | .ok m => m
    | .error .overloaded => m.stopStream route.token
    | .error _ => m

/-- `message_protocol::decode` -/
def decode (command : CommandEnvelope) : ErrorCodes :=
  if command.actorUid ≤ 0 ∨ command.requestId = "" ∨ command.connectionId.value = "" ∨
      command.connectionGeneration = 0 ∨ command.actorDeviceId = "" ∨
      36 < command.actorDeviceId.utf8ByteSize then .AuthenticationRequired
  else if !m.options.parses command.operation command.packet then .ProtobufPacket
  else if !command.operation.routed then .NotFound
  else .Success

/-- The result of a command. -/
def resultOf (command : CommandEnvelope) (response : Packet) : CommandResult where
  requestId := command.requestId
  error := response.error
  retryable := isRetryableError response.error
  packet := response
  ticket := command.ticket

/-- `service::reply` for request `n`. -/
def serviceReply (n : ℕ) (context : RequestContext) (response : Packet) : MessageServer :=
  let result := resultOf context.command response
  { m.reply context.origin (.commandResult result) with
    requests := m.requests.set n { context with response := some response }
    replies := m.replies ++ [(n, result)] }

/-- `service::submit` -/
def submitCommand (origin : StreamRoute) (command : CommandEnvelope) : MessageServer :=
  let n := m.requests.length
  let context : RequestContext := { origin, command }
  let m' := { m with requests := m.requests ++ [context] }
  if m.serviceStopping then m'.serviceReply n context { error := .DependencyUnavailable }
  else
    match m.requestsBudget.acquire (m.options.requestSize command) with
    | none => m'.serviceReply n context { error := .ResourceExhausted }
    | some requestsBudget =>
      if m.decode command ≠ .Success then m'.serviceReply n context { error := m.decode command }
      else
        { m' with
          requestsBudget
          permits := m.permits ++ [(n, m.options.requestSize command)] }

/-- The body of `process` for a frame of a stream that is not stopping. -/
def processFrame (t : ℕ) (frame : GatewayToMessageFrame) : MessageServer :=
  match frame with
  | .registerGateway registration => m.registerStream t registration
  | frame =>
    if !(m.streams t).registered then m.stopStream t
    else
      match frame with
      | .heartbeat sentAtUnixMs sequence =>
        match m.enqueue t (.heartbeatAck sentAtUnixMs sequence) with
        | .ok m => m
        | .error _ => m.stopStream t
      | .command command => m.submitCommand (m.streams t).route command
      | .clientForwardAck _ => m
      | _ => m.stopStream t

/-- Read on, unless the stream is stopping. -/
def startRead (t : ℕ) : MessageServer :=
  if (m.streams t).stopping then m else m.setStream t { m.streams t with reading := true }

/-- `server::process` -/
def process (t : ℕ) : Option MessageServer :=
  match (m.streams t).frame with
  | none => none
  | some frame =>
    let m := m.setStream t { m.streams t with frame := none }
    if (m.streams t).stopping ∨ m.stopping then some (m.stopStream t)
    else some ((m.processFrame t frame).startRead t)

/-- `OnReadDone(true)` -/
def read (t : ℕ) (frame : GatewayToMessageFrame) : Option MessageServer :=
  let x := m.streams t
  if m.Has t ∧ x.reading then
    some (m.setStream t { x with
      reading := false
      frame := if x.stopping then none else some frame })
  else none

/-- `server::forward` -/
def forward (lease : SessionLease) (envelope : ClientForwardEnvelope) :
    MessageServer × ClientForwardStatus :=
  if m.stopping then (m, .OFFLINE)
  else
    match m.registered (lease.gatewayId, lease.instanceId, lease.shardId) with
    | none => (m, .OFFLINE)
    | some t =>
      match m.enqueue t (.clientForward envelope) with
      | .ok m => (m, .QUEUED)
      | .error .overloaded => (m, .BACKPRESSURED)
      | .error _ => (m, .OFFLINE)

/-- The writer of the first frame that waits. -/
def write (t : ℕ) : Option MessageServer :=
  let x := m.streams t
  match x.queued with
  | [] => none
  | frame :: queued =>
    if x.stopping then
      some { m.setStream t { x with queued } with
        writes := m.writes.release (m.options.frameSize frame) }
    else if x.writing.isSome then none
    else some (m.setStream t { x with queued, writing := some frame, wire := x.wire ++ [frame] })

/-- `OnWriteDone`, and the end of the writer. -/
def written (t : ℕ) (ok : Bool) : Option MessageServer :=
  let x := m.streams t
  match x.writing with
  | none => none
  | some frame =>
    let x := { x with writing := none }
    let x := if ok then x else x.stop
    some { m.setStream t (if x.stopping then x.finish else x) with
      writes := m.writes.release (m.options.frameSize frame) }

/-- `OnDone`: the table forgets the stream only if it still names it. -/
def onDone (t : ℕ) : Option MessageServer :=
  let x := m.streams t
  if x.finishing ∧ x.finished = false then
    some { m.setStream t { x with finished := true } with
      registered :=
        if x.registered ∧ m.registered x.route.key = some x.route.token then
          Function.update m.registered x.route.key none
        else m.registered }
  else none

end MessageServer

/-- What happens to a stream, but for the frames it reads. -/
inductive StreamEvent where
  | process
  /-- `OnReadDone(false)` -/
  | readFailed
  /-- `OnCancel` -/
  | cancelled
  /-- a writer gets the slot, or learns that it never will -/
  | write
  /-- `OnWriteDone` -/
  | written (ok : Bool)
  /-- `OnDone`, after `Finish` -/
  | done

inductive MessageEvent where
  /-- the call of another Gateway -/
  | connect (peerIdentities : List String)
  | stream (t : ℕ) (e : StreamEvent)
  /-- a request has its response, -/
  | respond (n : ℕ) (response : Packet)
  /-- and its coroutine ends after the deliveries -/
  | finish (n : ℕ)
  /-- a push, of this or another shard -/
  | forward (lease : SessionLease) (envelope : ClientForwardEnvelope)
  | beginStop
  | stopService

namespace MessageServer

variable (m : MessageServer)

/-- The second half of `service::process`. -/
def respond (n : ℕ) (response : Packet) : Option MessageServer :=
  match m.requests[n]? with
  | none => none
  | some context =>
    if context.response.isSome then none else some (m.serviceReply n context response)

/-- The permit is returned. -/
def finish (n : ℕ) : Option MessageServer :=
  match m.requests[n]?, m.permits.lookup n with
  | some context, some bytes =>
    if context.response.isNone then none
    else
      some { m with
        permits := m.permits.filter (·.1 ≠ n)
        requestsBudget := m.requestsBudget.release bytes }
  | _, _ => none

def stepStream (t : ℕ) : StreamEvent → Option MessageServer
  | .process => m.process t
  | .readFailed =>
    let x := m.streams t
    if x.reading then some (m.setStream t { x with reading := false }.stop) else none
  | .cancelled => some (m.stopStream t)
  | .write => m.write t
  | .written ok => m.written t ok
  | .done => m.onDone t

def step : MessageEvent → Option MessageServer
  | .connect peerIdentities => some (m.connect none peerIdentities)
  | .stream t e => if m.Has t then m.stepStream t e else none
  | .respond n response => m.respond n response
  | .finish n => m.finish n
  | .forward lease envelope => some (m.forward lease envelope).1
  | .beginStop => some { m with stopping := true, streams := fun t => (m.streams t).stop }
  | .stopService => some { m with serviceStopping := true }

end MessageServer

end Imm
