import Imm.Link.Frames

/-! The Gateway's end of the streams: one `driver` with its `message_link`s. A link is an object the
    driver makes for a Message node; its number stands for its address. Frames wait at the link for
    the write slot (`queued`), one of them is being written (`writing`), and what has been written is
    on its way (`wire`). A command that was sent has an entry in `pending` until its promise is
    completed: by a result, by the end of the link it was sent on, or because its connection has gone.
    The number of a command is its place in `sent`, and `completions` are the promises completed so
    far. -/

namespace Imm

structure Endpoint where
  host : String
  port : ℕ
  deriving DecidableEq

structure MessageLink where
  nodeId : String := ""
  address : Endpoint := ⟨"", 0⟩
  stopping : Bool := false
  finished : Bool := false
  healthy : Bool := false
  inflight : ℕ := 0
  /-- a read has been started -/
  reading : Bool := false
  queued : List GatewayToMessageFrame := []
  writing : Option GatewayToMessageFrame := none
  wire : List GatewayToMessageFrame := []
  /-- the Message shard that took the call, and its number of the stream -/
  peer : Option (ℕ × ℕ) := none

/-- `healthy()` -/
def MessageLink.isHealthy (link : MessageLink) : Bool := link.healthy && !link.stopping

/-- `message_link::stop` -/
def MessageLink.stop (link : MessageLink) : MessageLink :=
  if link.stopping then link else { link with stopping := true, healthy := false }

/-- What the shard is configured with; the sizes are those of the encoded frames, `hash` is
    `std::hash<std::string>`. -/
structure GatewayOptions where
  gatewayId : String
  instanceId : String
  shardId : ℕ
  maxWrites : ℕ := 65536
  maxWriteBytes : ℕ := 512 * 1024 * 1024
  maxPending : ℕ := 32768
  maxPendingBytes : ℕ := 256 * 1024 * 1024
  hash : String → ℕ
  commandSize : CommandEnvelope → ℕ
  frameSize : GatewayToMessageFrame → ℕ

structure PendingCommand where
  link : ℕ
  clientRequestId : String
  bytes : ℕ
  ticket : ℕ

/-- What a promise is completed with. -/
inductive Completion where
  | result (result : CommandResult)
  | streamClosed
  | stopped

structure GatewayDriver where
  options : GatewayOptions
  stopping : Bool := false
  created : ℕ := 0
  links : ℕ → MessageLink := fun _ => {}
  messageLinks : List (String × ℕ) := []
  pending : List (String × PendingCommand) := []
  pendingBudget : Budget
  writes : Budget
  sent : List (ℕ × CommandEnvelope) := []
  completions : List (ℕ × Completion) := []

/-- What `deliver` answers for a push, and whether it had to close the connection. -/
structure Forwarded where
  status : ClientForwardStatus
  closed : Bool := false

namespace GatewayDriver

variable (d : GatewayDriver)

def start (options : GatewayOptions) : GatewayDriver where
  options := options
  pendingBudget := ⟨options.maxPending, options.maxPendingBytes⟩
  writes := ⟨options.maxWrites, options.maxWriteBytes⟩

def setLink (l : ℕ) (link : MessageLink) : GatewayDriver :=
  { d with links := Function.update d.links l link }

def stopLink (l : ℕ) : GatewayDriver := d.setLink l (d.links l).stop

/-- `message_link::enqueue` -/
def enqueue (l : ℕ) (frame : GatewayToMessageFrame) : Except LinkError GatewayDriver :=
  if (d.links l).stopping then .error .stopped
  else
    match d.writes.acquire (d.options.frameSize frame) with
    | none => .error .overloaded
    | some writes =>
      .ok { d.setLink l { d.links l with queued := (d.links l).queued ++ [frame] } with writes := writes }

/-- `message_link::start` of a new link. The first frame registers the shard. -/
def openLink (nodeId : String) (address : Endpoint) (streamEpoch : ℕ) : GatewayDriver :=
  let d' := {
    d.setLink d.created { nodeId, address, reading := true } with
    created := d.created + 1
    messageLinks := d.messageLinks ++ [(nodeId, d.created)] }
  let registration := .registerGateway {
    protocolVersion := 1
    gatewayId := d.options.gatewayId
    instanceId := d.options.instanceId
    streamEpoch
    shardId := d.options.shardId
    capacity := d.options.maxWrites }
  match d'.enqueue d.created registration with
  | .ok d'' => d''
  | .error _ => d'.stopLink d.created

/-- One turn of the loop of `select_grpc_link`: the link chosen so far, and its score. -/
def consider (conversationId : ℤ) : Option ℕ × ℕ → String × ℕ → Option ℕ × ℕ
  | (selected, highest), (id, l) =>
    if !(d.links l).isHealthy then (selected, highest)
    else if 0 < conversationId then
      let score := d.options.hash (toString conversationId ++ ":" ++ id)
      if selected.isNone ∨ highest < score then (some l, score) else (selected, highest)
    else
      match selected with
      | none => (some l, highest)
      | some k =>
        if (d.links l).inflight < (d.links k).inflight then (some l, highest) else (some k, highest)

def selectGrpcLink (conversationId : ℤ) : Option ℕ :=
  (d.messageLinks.foldl (d.consider conversationId) (none, 0)).1

/-- Complete the promises of the entries that satisfy `P`, and forget them. -/
def settle (P : String × PendingCommand → Bool) (completion : PendingCommand → Completion) :
    GatewayDriver :=
  let settled := d.pending.filter P
  { d with
    pending := d.pending.filter fun entry => !P entry
    links := fun l =>
      { d.links l with inflight := (d.links l).inflight - settled.countP (·.2.link = l) }
    pendingBudget := settled.foldl (fun b entry => b.release entry.2.bytes) d.pendingBudget
    completions := d.completions ++ settled.map fun entry => (entry.2.ticket, completion entry.2) }

def cancel (connectionId : ConnectionId) : GatewayDriver :=
  d.settle (fun entry => ofConnection connectionId entry.1) fun _ => .stopped

def onGrpcDone (l : ℕ) : GatewayDriver := d.settle (fun entry => entry.2.link = l) fun _ => .streamClosed

/-- `on_grpc_frame`. A push may close the connection it is for. -/
def onGrpcFrame (l : ℕ) (frame : MessageToGatewayFrame) (forwarded : Forwarded) :
    GatewayDriver × Except LinkError Unit :=
  match frame with
  | .commandResult r =>
    match d.pending.find? (·.1 = r.requestId) with
    | none => (d, .ok ())
    | some found =>
      if found.2.link ≠ l then (d, .ok ())
      else
        (d.settle (fun entry => entry.1 = r.requestId) fun p =>
          .result { r with requestId := p.clientRequestId }, .ok ())
  | .clientForward envelope =>
    let d' := if forwarded.closed then d.cancel envelope.expectedConnectionId else d
    let ack := .clientForwardAck {
      forwardId := envelope.forwardId
      status := forwarded.status
      gatewayId := d.options.gatewayId
      instanceId := d.options.instanceId
      recipientDeviceId := envelope.recipientDeviceId }
    match d'.enqueue l ack with
    | .ok d'' => (d'', .ok ())
    | .error e => (d', .error e)
  | _ => (d, .ok ())

/-- Read on, unless the link is stopping. -/
def startRead (l : ℕ) : GatewayDriver :=
  if (d.links l).stopping then d else d.setLink l { d.links l with reading := true }

/-- `OnReadDone(true)` -/
def onReadDone (l : ℕ) (frame : MessageToGatewayFrame) (forwarded : Forwarded) : GatewayDriver :=
  let d := d.setLink l { d.links l with reading := false }
  match frame with
  | .drainNotice => d.stopLink l
  | .registerResult accepted _ _ =>
    let d := d.setLink l { d.links l with healthy := accepted }
    if accepted then d.startRead l else d.stopLink l
  | frame =>
    match d.onGrpcFrame l frame forwarded with
    | (d', .ok ()) => d'.startRead l
    | (d', .error _) => d'.stopLink l

/-- The command as it is sent, with the number of its ticket. -/
def stamp (command : CommandEnvelope) : CommandEnvelope :=
  { command with
    requestId := correlation command.connectionId command.requestId
    ticket := d.sent.length }

/-- `execute(send_command)`: an exception leaves everything as it was. -/
def sendCommand (command : CommandEnvelope) : Except LinkError GatewayDriver :=
  if d.stopping then .error .stopped
  else
    match d.selectGrpcLink command.conversationId with
    | none => .error .noHealthyStream
    | some l =>
      match d.pendingBudget.acquire (d.options.commandSize command) with
      | none => .error .overloaded
      | some budget =>
        let sent := d.stamp command
        if d.pending.any (·.1 = sent.requestId) then .error .overloaded
        else
          match d.enqueue l (.command sent) with
          | .error e => .error e
          | .ok d' =>
            let link := d'.links l
            .ok { d'.setLink l { link with inflight := link.inflight + 1 } with
              pendingBudget := budget
              pending := d.pending ++ [(sent.requestId, {
                link := l
                clientRequestId := command.requestId
                bytes := d.options.commandSize command
                ticket := d.sent.length })]
              sent := d.sent ++ [(l, sent)] }

end GatewayDriver

/-- What happens at the Gateway, but for the frames it reads. `grpc_control` opens, closes and erases
    links, and sends heartbeats. -/
inductive GatewayEvent where
  | openLink (nodeId : String) (address : Endpoint) (streamEpoch : ℕ)
  | closeLink (nodeId : String)
  | eraseLink (nodeId : String)
  /-- the table of links is iterated in another order -/
  | rehash (table : List (String × ℕ))
  | heartbeat (nodeId : String) (sentAtUnixMs : ℤ) (sequence : ℕ)
  /-- the sockets of the clients, which share the budget of writes, take or return units -/
  | sockets (writes : Budget)
  | sendCommand (command : CommandEnvelope)
  | cancel (connectionId : ConnectionId)
  | abort
  /-- a writer gets the slot, or learns that it never will -/
  | write (l : ℕ)
  /-- `OnWriteDone` -/
  | written (l : ℕ) (ok : Bool)
  /-- `OnReadDone(false)` -/
  | readFailed (l : ℕ)
  /-- `OnDone`, once the link has given up its hold -/
  | done (l : ℕ)

namespace GatewayDriver

variable (d : GatewayDriver)

/-- The writer of the first frame that waits. -/
def write (l : ℕ) : Option GatewayDriver :=
  let link := d.links l
  match link.queued with
  | [] => none
  | frame :: queued =>
    if link.stopping then
      some { d.setLink l { link with queued } with
        writes := d.writes.release (d.options.frameSize frame) }
    else if link.writing.isSome then none
    else some (d.setLink l { link with queued, writing := some frame, wire := link.wire ++ [frame] })

/-- `OnWriteDone`, and the end of the writer. -/
def written (l : ℕ) (ok : Bool) : Option GatewayDriver :=
  let link := d.links l
  match link.writing with
  | none => none
  | some frame =>
    let link := { link with writing := none }
    some { d.setLink l (if ok then link else link.stop) with
      writes := d.writes.release (d.options.frameSize frame) }

/-- `OnDone` -/
def onDone (l : ℕ) : Option GatewayDriver :=
  let link := d.links l
  if l < d.created ∧ link.stopping ∧ link.finished = false then
    some ((d.setLink l { link with healthy := false, finished := true }).onGrpcDone l)
  else none

def step : GatewayEvent → Option GatewayDriver
  | .openLink nodeId address streamEpoch =>
    if d.messageLinks.any (·.1 = nodeId) then none else some (d.openLink nodeId address streamEpoch)
  | .closeLink nodeId => (d.messageLinks.lookup nodeId).map d.stopLink
  | .eraseLink nodeId =>
    match d.messageLinks.lookup nodeId with
    | none => none
    | some l =>
      let link := d.links l
      -- `close` waits for `OnDone` and for the writers
      if link.finished ∧ link.queued = [] ∧ link.writing.isNone then
        some { d with messageLinks := d.messageLinks.filter (·.1 ≠ nodeId) }
      else none
  | .rehash table => if table.Perm d.messageLinks then some { d with messageLinks := table } else none
  | .heartbeat nodeId sentAtUnixMs sequence =>
    match d.messageLinks.lookup nodeId with
    | none => none
    | some l =>
      if !(d.links l).isHealthy then none
      else
        match d.enqueue l (.heartbeat sentAtUnixMs sequence) with
        | .ok d' => some d'
        | .error _ => some d
  | .sockets writes => some { d with writes }
  | .sendCommand command =>
    match d.sendCommand command with
    | .ok d' => some d'
    | .error _ => some d
  | .cancel connectionId => some (d.cancel connectionId)
  | .abort =>
    -- links that are no longer in the table have stopped long ago
    some { d with stopping := true, links := fun l => (d.links l).stop }
  | .write l => d.write l
  | .written l ok => d.written l ok
  | .readFailed l =>
    let link := d.links l
    if link.reading then some (d.setLink l { link with reading := false }.stop) else none
  | .done l => d.onDone l

/-- The shard and the connection of the small runs. -/
def shardOptions : GatewayOptions where
  gatewayId := "g"
  instanceId := "i"
  shardId := 0
  hash := fun _ => 0
  commandSize := fun _ => 100
  frameSize := fun _ => 120

def alice : ConnectionId := ⟨"a", by decide⟩

end GatewayDriver

end Imm
