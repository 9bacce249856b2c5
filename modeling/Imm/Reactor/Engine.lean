import Mathlib.Data.List.Basic
import Mathlib.Data.Nat.Notation
import Mathlib.Logic.Function.Basic

/-! The event engine that gRPC runs on: `grpc_engine.cc`, on one reactor thread. A `Connect` is a task that
    calls the coroutine `connect`, a timer, and an entry of the table of connections:

                Run          fd.connect         future ready          resumed
        Connect ───▶ scheduled ─────▶ connecting ─────▶ ready status ─────▶ finished
                         │                │                  │
                         └── timeout: `expired`, the socket is shut down, the coroutine goes on
                         └── CancelConnect: `cancelled`, no entry any more, the coroutine goes on

    The coroutine is the last to know: it tells the callback, unless that was cancelled. Reads, writes, the
    loops that accept and the lookups are coroutines as well; `io` are those that were started and have not
    ended, `log` is what callbacks and callers were told, in order. Every event may come whenever it can.
    Calls from another thread than the owner's end the process. -/

namespace Imm.EventEngine

/-- `absl::Status` -/
inductive Status where | ok | unavailable | cancelled | deadlineExceeded | notFound
  deriving DecidableEq, Repr

/-- `ConnectionHandle` and `TaskHandle`: the engine, and `keys[0]` -/
structure Handle where
  engine : ℕ
  key : ℕ
  deriving DecidableEq, Repr

/-- The counters are `unsigned` in the source. They agree with these below 2^32; `active_io` stays there as long as
    fewer than 2^32 operations, each with a coroutine of its own, are outstanding at once. -/
structure Observations where
  connects : ℕ := 0
  reads : ℕ := 0
  writes : ℕ := 0
  tasks : ℕ := 0
  timers : ℕ := 0
  endpoints : ℕ := 0
  activeIo : ℕ := 0
  activeTasks : ℕ := 0
  dnsLookups : ℕ := 0
  resolvers : ℕ := 0
  listeners : ℕ := 0
  deriving DecidableEq, Repr

/-- Where the coroutine `connect` is. -/
inductive Stage where
  | scheduled
  | connecting
  /-- `fd.connect` is done, the coroutine has not been resumed -/
  | ready (status : Status)
  | finished
  deriving DecidableEq, Repr

structure PendingConnection where
  /-- the callback has neither been moved nor dropped -/
  callback : Bool := true
  /-- the timer is armed -/
  timeout : Bool := true
  cancelled : Bool := false
  expired : Bool := false
  stage : Stage := .scheduled
  deriving DecidableEq, Repr

/-- Somebody waits in a loop for something to be over. -/
inductive Waiting where | idle | polling | returned
  deriving DecidableEq, Repr

/-- `reactor_engine`: the keys of its tables. -/
structure Engine where
  timers : List ℕ := []
  connections : List ℕ := []
  nextId : ℕ := 0
  dnsClosing : Bool := false
  /-- `close_grpc_engine` -/
  closing : Waiting := .idle
  deriving DecidableEq, Repr

def Engine.pendingCount (e : Engine) : ℕ := e.timers.length + e.connections.length

/-- `reactor_endpoint::state` -/
structure EndpointState where
  closing : Bool := false
  reading : Bool := false
  writing : Bool := false
  deriving DecidableEq, Repr

/-- `reactor_listener::state` -/
structure ListenerState where
  shutdown : Bool := true
  sockets : ℕ := 0
  active : ℕ := 0
  closing : Bool := false
  started : Bool := false
  status : Status := .ok
  deriving DecidableEq, Repr

/-- A coroutine that counts as active I/O. -/
inductive Operation where
  | connect (h : Handle)
  | read (endpoint : ℕ)
  | write (endpoint : ℕ)
  | accept (listener socket : ℕ)
  | lookup (number engine : ℕ)
  deriving DecidableEq, Repr

inductive Task where
  | connect (h : Handle)
  | closure
  deriving DecidableEq, Repr

/-- What callbacks are called with and what callers are answered. -/
inductive Effect where
  /-- the callback of a `Connect`, with its endpoint or an error -/
  | connected (h : Handle) (result : Except Status ℕ)
  | cancelConnect (h : Handle) (answer : Bool)
  /-- the timeout of a `Connect` fired -/
  | timedOut (h : Handle)
  /-- the callback of a `RunAfter` -/
  | fired (h : Handle)
  | cancel (h : Handle) (answer : Bool)
  | readDone (endpoint : ℕ) (status : Status)
  | writeDone (endpoint : ℕ) (status : Status)
  | accepted (listener endpoint : ℕ)
  | listenerShutdown (listener : ℕ) (status : Status)
  | resolved (number : ℕ) (status : Status)
  deriving DecidableEq

structure Reactor where
  observed : Observations := {}
  engines : ℕ → Engine := fun _ => {}
  pending : Handle → Option PendingConnection := fun _ => none
  madeEndpoints : ℕ := 0
  endpoints : ℕ → EndpointState := fun _ => {}
  madeListeners : ℕ := 0
  listeners : ℕ → ListenerState := fun _ => {}
  madeLookups : ℕ := 0
  io : List Operation := []
  tasks : List Task := []
  /-- `drain_local_grpc` -/
  draining : Waiting := .idle
  log : List Effect := []

namespace Reactor

variable (r : Reactor)

def setEngine (engine : ℕ) (e : Engine) : Reactor := { r with engines := Function.update r.engines engine e }

def setPending (h : Handle) (p : PendingConnection) : Reactor :=
  { r with pending := Function.update r.pending h (some p) }

def setEndpoint (endpoint : ℕ) (s : EndpointState) : Reactor :=
  { r with endpoints := Function.update r.endpoints endpoint s }

def setListener (listener : ℕ) (s : ListenerState) : Reactor :=
  { r with listeners := Function.update r.listeners listener s }

def tell (effect : Effect) : Reactor := { r with log := r.log ++ [effect] }

/-- A coroutine is called, or will be by a task; it counts from now on. -/
def begin (op : Operation) : Reactor :=
  { r with
    observed := { r.observed with activeIo := r.observed.activeIo + 1 }
    io := r.io ++ [op] }

/-- A coroutine comes to its end. -/
def finish (op : Operation) : Reactor :=
  { r with
    observed := { r.observed with activeIo := r.observed.activeIo - 1 }
    io := r.io.erase op }

/-! ### `reactor_engine` -/

/-- `Run` -/
def run (task : Task) : Reactor :=
  { r with
    observed := { r.observed with
      tasks := r.observed.tasks + 1
      activeTasks := r.observed.activeTasks + 1 }
    tasks := r.tasks ++ [task] }

/-- The callback of a task returns. The task of a `Connect` has called its coroutine by then. -/
def taskDone (task : Task) : Option Reactor :=
  let called : Bool := match task with
    | .connect h => decide ((r.pending h).map (·.stage) ≠ some .scheduled)
    | .closure => true
  if task ∈ r.tasks ∧ called then
    some { r with
      observed := { r.observed with activeTasks := r.observed.activeTasks - 1 }
      tasks := r.tasks.erase task }
  else none

def runAfter (engine : ℕ) : Reactor :=
  let e := r.engines engine
  { r.setEngine engine { e with nextId := e.nextId + 1, timers := e.timers ++ [e.nextId + 1] } with
    observed := { r.observed with timers := r.observed.timers + 1 } }

/-- The callback of a timer takes the entry from the table and calls the callback of `RunAfter`. -/
def fire (h : Handle) : Option Reactor :=
  let e := r.engines h.engine
  if h.key ∈ e.timers then
    some ((r.setEngine h.engine { e with timers := e.timers.filter (· ≠ h.key) }).tell (.fired h))
  else none

/-- `Cancel`: a timer that is erased is disarmed. -/
def cancel (h : Handle) : Reactor :=
  let e := r.engines h.engine
  if h.key ∈ e.timers then
    (r.setEngine h.engine { e with timers := e.timers.filter (· ≠ h.key) }).tell (.cancel h true)
  else r.tell (.cancel h false)

/-- `Connect`. `fd`: `make_pollable_fd` does not throw. -/
def connect (engine : ℕ) (fd : Bool) : Reactor :=
  let e := r.engines engine
  let id := e.nextId + 1
  let observed := { r.observed with connects := r.observed.connects + 1 }
  if fd then
    let r := { r with observed }.setEngine engine { e with nextId := id, connections := e.connections ++ [id] }
    ((r.begin (.connect ⟨engine, id⟩)).setPending ⟨engine, id⟩ {}).run (.connect ⟨engine, id⟩)
  else
    { r with observed := { observed with activeIo := observed.activeIo + 1 } }.setEngine engine
      { e with nextId := id }

/-- The task of a `Connect` calls `connect`. -/
def start (h : Handle) : Option Reactor :=
  match r.pending h with
  | none => none
  | some p => if p.stage = .scheduled then some (r.setPending h { p with stage := .connecting }) else none

/-- `fd.connect` is done. -/
def complete (h : Handle) (ok : Bool) : Option Reactor :=
  match r.pending h with
  | none => none
  | some p =>
    if p.stage = .connecting then
      some (r.setPending h { p with stage := .ready (if ok then .ok else .unavailable) })
    else none

/-- The timer of a `Connect` fires. -/
def timeout (h : Handle) : Option Reactor :=
  match r.pending h with
  | none => none
  | some p =>
    if p.timeout then some ((r.setPending h { p with timeout := false, expired := true }).tell (.timedOut h))
    else none

/-- A new `reactor_endpoint`. -/
def attach : Reactor :=
  { r with
    observed := { r.observed with endpoints := r.observed.endpoints + 1 }
    madeEndpoints := r.madeEndpoints + 1 }

/-- `connect`, from where it is resumed. `attached`: the constructor of `reactor_endpoint`, which asks the
    kernel for the addresses of the socket, does not throw. -/
def resume (h : Handle) (attached : Bool) : Option Reactor :=
  match r.pending h with
  | none => none
  | some p =>
    match p.stage with
    | .ready status =>
      let e := r.engines h.engine
      let r := (r.finish (.connect h)).setEngine h.engine
        { e with connections := e.connections.filter (· ≠ h.key) }
      let p := { p with timeout := false, stage := .finished }
      if p.cancelled then some (r.setPending h p)
      else if !p.callback then none
      else
        let r := r.setPending h { p with callback := false }
        if p.expired then some (r.tell (.connected h (.error .deadlineExceeded)))
        else if status ≠ .ok then some (r.tell (.connected h (.error status)))
        else if attached then some (r.attach.tell (.connected h (.ok r.madeEndpoints)))
        -- the exception leaves the coroutine; nobody looks at its future
        else some r
    | _ => none

def cancelConnect (h : Handle) : Option Reactor :=
  let e := r.engines h.engine
  if h.key ∈ e.connections then
    match r.pending h with
    | none => none
    | some p =>
      some (((r.setEngine h.engine { e with connections := e.connections.filter (· ≠ h.key) }).setPending h
        { p with cancelled := true, callback := false, timeout := false }).tell (.cancelConnect h true))
  else some (r.tell (.cancelConnect h false))

/-! ### `reactor_endpoint` -/

/-- The endpoint has been made and not been destroyed. -/
def Alive (endpoint : ℕ) : Prop := endpoint < r.madeEndpoints ∧ (r.endpoints endpoint).closing = false

instance (endpoint : ℕ) : Decidable (r.Alive endpoint) := inferInstanceAs (Decidable (_ ∧ _))

/-- `Read`; a second one at a time aborts. -/
def read (endpoint : ℕ) : Option Reactor :=
  let s := r.endpoints endpoint
  if r.Alive endpoint ∧ s.reading = false then
    let r := { r with observed := { r.observed with reads := r.observed.reads + 1 } }
    some ((r.begin (.read endpoint)).setEndpoint endpoint { s with reading := true })
  else none

def write (endpoint : ℕ) : Option Reactor :=
  let s := r.endpoints endpoint
  if r.Alive endpoint ∧ s.writing = false then
    let r := { r with observed := { r.observed with writes := r.observed.writes + 1 } }
    some ((r.begin (.write endpoint)).setEndpoint endpoint { s with writing := true })
  else none

/-- What a callback of an endpoint or of a resolver is told. -/
def told (closing ok : Bool) (failure : Status) : Status :=
  if closing then .cancelled else if ok then .ok else failure

/-- The end of the coroutine `read`. -/
def readEnds (endpoint : ℕ) (ok : Bool) : Option Reactor :=
  let s := r.endpoints endpoint
  if .read endpoint ∈ r.io then
    some (((r.finish (.read endpoint)).setEndpoint endpoint { s with reading := false }).tell
      (.readDone endpoint (told s.closing ok .unavailable)))
  else none

def writeEnds (endpoint : ℕ) (ok : Bool) : Option Reactor :=
  let s := r.endpoints endpoint
  if .write endpoint ∈ r.io then
    some (((r.finish (.write endpoint)).setEndpoint endpoint { s with writing := false }).tell
      (.writeDone endpoint (told s.closing ok .unavailable)))
  else none

def destroyEndpoint (endpoint : ℕ) : Option Reactor :=
  if r.Alive endpoint then
    some { r.setEndpoint endpoint { r.endpoints endpoint with closing := true } with
      observed := { r.observed with endpoints := r.observed.endpoints - 1 } }
  else none

/-! ### `reactor_listener` -/

def createListener : Reactor :=
  { r with
    observed := { r.observed with listeners := r.observed.listeners + 1 }
    madeListeners := r.madeListeners + 1 }

/-- The listener has been made and not been destroyed. -/
def Listening (listener : ℕ) : Prop := listener < r.madeListeners ∧ (r.listeners listener).closing = false

instance (listener : ℕ) : Decidable (r.Listening listener) := inferInstanceAs (Decidable (_ ∧ _))

/-- `Bind`, if it succeeds -/
def bind (listener : ℕ) : Option Reactor :=
  let s := r.listeners listener
  if r.Listening listener ∧ s.started = false then
    some (r.setListener listener { s with sockets := s.sockets + 1 })
  else none

/-- One turn of the loop of `Start`. -/
def serve (listener : ℕ) (socket : ℕ) : Reactor :=
  let s := r.listeners listener
  (r.begin (.accept listener socket)).setListener listener { s with active := s.active + 1 }

def startListener (listener : ℕ) : Option Reactor :=
  let s := r.listeners listener
  if r.Listening listener ∧ s.started = false then
    some ((List.range s.sockets).foldl (fun r socket => r.serve listener socket)
      (r.setListener listener { s with started := true }))
  else none

/-- `state::complete` -/
def completeListener (listener : ℕ) : Reactor :=
  let s := r.listeners listener
  if s.closing ∧ s.active = 0 ∧ s.shutdown then
    { (r.setListener listener { s with shutdown := false }).tell (.listenerShutdown listener s.status) with
      observed := { r.observed with listeners := r.observed.listeners - 1 } }
  else r

/-- The end of the coroutine `accept`. -/
def acceptEnds (listener socket : ℕ) (status : Status) : Reactor :=
  let s := r.listeners listener
  ((r.finish (.accept listener socket)).setListener listener
    { s with active := s.active - 1, status }).completeListener listener

/-- What `socket.accept` gives to `accept`. -/
inductive Incoming where
  | failed
  /-- a socket, of which an endpoint can be made or not -/
  | socket (attached : Bool)
  deriving DecidableEq, Repr

/-- One turn of the loop of `accept`. -/
def accept (listener socket : ℕ) (incoming : Incoming) : Option Reactor :=
  let s := r.listeners listener
  if .accept listener socket ∈ r.io then
    if s.closing then some (r.acceptEnds listener socket s.status)
    else
      match incoming with
      | .socket true => some (r.attach.tell (.accepted listener r.madeEndpoints))
      | _ => some (r.acceptEnds listener socket .unavailable)
  else none

def destroyListener (listener : ℕ) : Option Reactor :=
  if r.Listening listener then
    some ((r.setListener listener { r.listeners listener with closing := true }).completeListener listener)
  else none

/-! ### `reactor_dns` -/

def getDnsResolver : Reactor :=
  { r with observed := { r.observed with resolvers := r.observed.resolvers + 1 } }

def destroyResolver : Option Reactor :=
  if 0 < r.observed.resolvers then
    some { r with observed := { r.observed with resolvers := r.observed.resolvers - 1 } }
  else none

/-- `LookupHostname`, of a resolver of the engine -/
def lookupHostname (engine : ℕ) : Option Reactor :=
  if 0 < r.observed.resolvers then
    let r := { r with observed := { r.observed with dnsLookups := r.observed.dnsLookups + 1 } }
    some { r.begin (.lookup r.madeLookups engine) with madeLookups := r.madeLookups + 1 }
  else none

def lookupEnds (number engine : ℕ) (ok : Bool) : Option Reactor :=
  if .lookup number engine ∈ r.io then
    some ((r.finish (.lookup number engine)).tell
      (.resolved number (told (r.engines engine).dnsClosing ok .notFound)))
  else none

/-! ### The end -/

/-- What the loop of `drain_local_grpc` waits for. -/
def Drained : Prop :=
  r.observed.activeIo = 0 ∧ r.observed.activeTasks = 0 ∧ r.observed.endpoints = 0 ∧ r.observed.resolvers = 0 ∧
    r.observed.listeners = 0

instance : Decidable r.Drained := inferInstanceAs (Decidable (_ ∧ _))

/-- `drain_local_grpc` looks at the counters, for the first time or after a sleep. -/
def drainLocalGrpc : Option Reactor :=
  if r.draining = .returned then none
  else some { r with draining := if r.Drained then .returned else .polling }

/-- `close_grpc_engine` looks at the tables. -/
def closeGrpcEngine (engine : ℕ) : Option Reactor :=
  let e := r.engines engine
  if e.closing = .returned then none
  else
    some (r.setEngine engine { e with
      dnsClosing := true
      closing := if e.pendingCount = 0 then .returned else .polling })

end Reactor

inductive Event where
  | run
  | taskDone (task : Task)
  | runAfter (engine : ℕ)
  | fire (h : Handle)
  | cancel (h : Handle)
  | connect (engine : ℕ) (fd : Bool)
  | start (h : Handle)
  | complete (h : Handle) (ok : Bool)
  | timeout (h : Handle)
  | resume (h : Handle) (attached : Bool)
  | cancelConnect (h : Handle)
  | read (endpoint : ℕ)
  | readEnds (endpoint : ℕ) (ok : Bool)
  | write (endpoint : ℕ)
  | writeEnds (endpoint : ℕ) (ok : Bool)
  | destroyEndpoint (endpoint : ℕ)
  | createListener
  | bind (listener : ℕ)
  | startListener (listener : ℕ)
  | accept (listener socket : ℕ) (incoming : Reactor.Incoming)
  | destroyListener (listener : ℕ)
  | getDnsResolver
  | destroyResolver
  | lookupHostname (engine : ℕ)
  | lookupEnds (number engine : ℕ) (ok : Bool)
  | closeGrpcEngine (engine : ℕ)
  | drainLocalGrpc
  deriving DecidableEq

namespace Reactor

def step (r : Reactor) : Event → Option Reactor
  | .run => some (r.run .closure)
  | .taskDone task => r.taskDone task
  | .runAfter engine => some (r.runAfter engine)
  | .fire h => r.fire h
  | .cancel h => some (r.cancel h)
  | .connect engine fd => some (r.connect engine fd)
  | .start h => r.start h
  | .complete h ok => r.complete h ok
  | .timeout h => r.timeout h
  | .resume h attached => r.resume h attached
  | .cancelConnect h => r.cancelConnect h
  | .read endpoint => r.read endpoint
  | .readEnds endpoint ok => r.readEnds endpoint ok
  | .write endpoint => r.write endpoint
  | .writeEnds endpoint ok => r.writeEnds endpoint ok
  | .destroyEndpoint endpoint => r.destroyEndpoint endpoint
  | .createListener => some r.createListener
  | .bind listener => r.bind listener
  | .startListener listener => r.startListener listener
  | .accept listener socket incoming => r.accept listener socket incoming
  | .destroyListener listener => r.destroyListener listener
  | .getDnsResolver => some r.getDnsResolver
  | .destroyResolver => r.destroyResolver
  | .lookupHostname engine => r.lookupHostname engine
  | .lookupEnds number engine ok => r.lookupEnds number engine ok
  | .closeGrpcEngine engine => r.closeGrpcEngine engine
  | .drainLocalGrpc => r.drainLocalGrpc

end Reactor

end Imm.EventEngine
