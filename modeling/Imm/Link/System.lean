import Imm.Link.Gateway
import Imm.Link.Message
import Imm.Schemes.Paths

/-! A shard of a Gateway and any number of Message shards, joined by streams. A link calls a shard once
    and both ends read the frames of the other in their order; a stream that breaks is one whose frames
    are no longer read. The Message shards also serve other Gateways, which may send what they like. -/

namespace Imm

structure LinkSystem where
  gateway : GatewayDriver
  servers : ℕ → MessageServer

inductive LinkEvent where
  | gateway (e : GatewayEvent)
  | message (i : ℕ) (e : MessageEvent)
  /-- the call of a link reaches a shard -/
  | connect (l i : ℕ) (peerIdentities : List String)
  /-- the other end of a link reads a frame -/
  | toMessage (l : ℕ)
  /-- a link reads a frame -/
  | toGateway (l : ℕ) (forwarded : Forwarded)
  /-- a frame of another Gateway is read -/
  | foreign (i t : ℕ) (frame : GatewayToMessageFrame)

namespace LinkSystem

variable (s : LinkSystem)

def start (options : GatewayOptions) (servers : ℕ → MessageOptions) : LinkSystem where
  gateway := .start options
  servers i := .start (servers i)

def setServer (i : ℕ) (m : MessageServer) : LinkSystem := { s with servers := Function.update s.servers i m }

/-- The next frame that a link may read. -/
def incoming (l : ℕ) : Option MessageToGatewayFrame :=
  match (s.gateway.links l).peer with
  | none => none
  | some (i, t) => ((s.servers i).streams t).wire.head?

def step : LinkEvent → Option LinkSystem
  | .gateway e => (s.gateway.step e).map fun d => { s with gateway := d }
  | .message i e => ((s.servers i).step e).map (s.setServer i)
  | .connect l i peerIdentities =>
    let link := s.gateway.links l
    let m := s.servers i
    if l < s.gateway.created ∧ link.peer = none then
      some { s.setServer i (m.connect (some l) peerIdentities) with
        gateway := s.gateway.setLink l { link with peer := some (i, m.nextToken + 1) } }
    else none
  | .toMessage l =>
    let link := s.gateway.links l
    match link.peer, link.wire with
    | some (i, t), frame :: wire =>
      ((s.servers i).read t frame).map fun m =>
        { s.setServer i m with gateway := s.gateway.setLink l { link with wire } }
    | _, _ => none
  | .toGateway l forwarded =>
    let link := s.gateway.links l
    match link.peer with
    | none => none
    | some (i, t) =>
      let m := s.servers i
      let x := m.streams t
      match x.wire with
      | [] => none
      | frame :: wire =>
        if link.reading then
          some { s.setServer i (m.setStream t { x with wire }) with
            gateway := s.gateway.onReadDone l frame forwarded }
        else none
  | .foreign i t frame =>
    let m := s.servers i
    if (m.streams t).link = none then (m.read t frame).map (s.setServer i) else none

end LinkSystem

/-! ### What is under way on a stream -/

/-- A command or result is told apart by its request id and the number of its ticket. -/
def CommandEnvelope.label (c : CommandEnvelope) : String × ℕ := (c.requestId, c.ticket)

def CommandResult.label (r : CommandResult) : String × ℕ := (r.requestId, r.ticket)

/-- The commands at a link, in the order they were sent. -/
def MessageLink.commands (link : MessageLink) : List CommandEnvelope :=
  (link.wire ++ link.queued).filterMap GatewayToMessageFrame.command?

/-- The command that waits for `process`. -/
def Stream.commands (x : Stream) : List CommandEnvelope :=
  x.frame.toList.filterMap GatewayToMessageFrame.command?

/-- The results at a stream. -/
def Stream.results (x : Stream) : List CommandResult :=
  (x.wire ++ x.queued).filterMap MessageToGatewayFrame.result?

namespace MessageServer

variable (m : MessageServer) (t : ℕ)

/-- The requests that came on a stream. -/
def requestsOf : List RequestContext := m.requests.filter (·.origin.token = t)

/-- Every command that was read from a stream. -/
def received : List CommandEnvelope := (m.requestsOf t).map (·.command) ++ (m.streams t).commands

/-- The commands of a stream that have no response yet. -/
def running : List CommandEnvelope := ((m.requestsOf t).filter (·.response.isNone)).map (·.command)

def holding : List (String × ℕ) :=
  ((m.streams t).commands ++ m.running t).map (·.label) ++ (m.streams t).results.map (·.label)

end MessageServer

namespace LinkSystem

variable (s : LinkSystem) (l : ℕ)

/-- The commands of a link: dispatched, on their way, or waiting to be written. -/
def track : List CommandEnvelope :=
  match (s.gateway.links l).peer with
  | none => (s.gateway.links l).commands
  | some (i, t) => (s.servers i).received t ++ (s.gateway.links l).commands

/-- Commands and results that are under way on the stream of a link. -/
def outstanding : List (String × ℕ) :=
  (s.gateway.links l).commands.map (·.label) ++
    match (s.gateway.links l).peer with
    | none => []
    | some (i, t) => (s.servers i).holding t

/-- One of the ends of the stream is stopping. -/
def Ending : Prop :=
  (s.gateway.links l).stopping = true ∨
    ∃ i t, (s.gateway.links l).peer = some (i, t) ∧ ((s.servers i).streams t).stopping = true

end LinkSystem

end Imm
