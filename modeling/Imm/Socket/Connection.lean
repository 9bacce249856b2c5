import Imm.Socket.Framing

/-! What a `connection` of the Gateway does with the envelopes it sends. `send` queues a frame and starts
    the write loop if none is running; the loop writes frame after frame and stops itself when there
    are no more. A push that the client has to acknowledge is kept (`reliable`) and sent again until it
    is, or until it has been sent three times. Whoever finds a limit exceeded closes the connection and
    with it drops what waits. Sums of sizes are `size_t`s. `sent` are the envelopes for which `send`
    returned true, `output` is what was handed to the socket, and `written` are the frames of it whose
    writes have completed. -/

namespace Imm

def maxConnectionWrites : ℕ := 1024

def maxConnectionBytes : ℕ := 16 * 1024 * 1024

/-- `size_t` -/
def sizeAdd (a b : ℕ) : ℕ := (a + b) % 2 ^ 64

def sizeSub (a b : ℕ) : ℕ := (a + (2 ^ 64 - b % 2 ^ 64)) % 2 ^ 64

/-- `budget::resize`: the bytes that an entry holds become others. -/
def Budget.resize (b : Budget) (old bytes : ℕ) : Option Budget :=
  if old < bytes then
    if bytes - old ≤ b.bytes then some { b with bytes := b.bytes - (bytes - old) } else none
  else some { b with bytes := b.bytes + (old - bytes) }

/-- A `write_loop` and where it is. -/
inductive WriteLoop where
  /-- about to look at the queue -/
  | ready
  /-- `write` and `flush` of a frame -/
  | busy (frame : Bytes)
  /-- it ended with an exception that has not been handled, or did not get past the gate -/
  | failed (frame : Option Bytes)
  deriving DecidableEq

/-- The frame a loop has taken from the queue. -/
def WriteLoop.frames : WriteLoop → List Bytes
  | .ready => []
  | .busy frame => [frame]
  | .failed frame => frame.toList

/-- It holds the gate. -/
def WriteLoop.inside : WriteLoop → Bool
  | .failed _ => false
  | _ => true

structure ReliableEntry where
  envelope : Octets
  /-- the bytes of its `capacity_units` -/
  units : ℕ
  attempts : ℕ := 1

structure Socket where
  closed : Bool := false
  writes : List Bytes := []
  writeBytes : ℕ := 0
  writing : Bool := false
  loops : List WriteLoop := []
  closeAfterWrite : Bool := false
  writerClosed : Bool := false
  /-- `quit` waits for the loops to leave the gate -/
  quitting : Bool := false
  reliable : Table ℤ ReliableEntry := ∅
  reliableBytes : ℕ := 0
  /-- the budgets of the shard -/
  writeBudget : Budget
  reliableBudget : Budget
  sent : List Octets := []
  output : Bytes := []
  written : List Bytes := []
  /-- the place in `sent` of the response to `quit` -/
  quitResponse : Option ℕ := none

inductive SocketEvent where
  /-- a response or a push -/
  | send (envelope : Octets)
  | sendReliable (envelope : Octets) (sequence : ℤ)
  /-- the timer of an entry -/
  | retry (sequence : ℤ)
  | acknowledge (sequence : ℤ)
  | quit (response : Octets)
  /-- `quit` goes on behind the gate -/
  | quitDone
  /-- loop `k` starts -/
  | start (k : ℕ)
  /-- `flush` returns to loop `k` -/
  | written (k : ℕ) (ok : Bool)
  /-- the exception of loop `k` is handled -/
  | handled (k : ℕ)
  /-- somebody else closes the connection -/
  | close
  /-- other connections take or return units -/
  | budgets (writeBudget reliableBudget : Budget)

namespace Socket

variable (s : Socket)

/-- A connection that was accepted just now. -/
def fresh (writeBudget reliableBudget : Budget) : Socket := { writeBudget, reliableBudget }

/-- The frames that loops have taken and not written yet. -/
def beingWritten : List Bytes := s.loops.flatMap WriteLoop.frames

/-- `connection::close` -/
def close : Socket :=
  if s.closed then s
  else
    { s with
      closed := true
      writes := []
      writeBytes := 0
      reliable := ∅
      reliableBytes := 0
      writeBudget := s.writes.foldl (fun b frame => b.release frame.length) s.writeBudget
      reliableBudget := s.reliable.rows.foldl (fun b row => b.release row.2.units) s.reliableBudget }

/-- A frame joins the queue, and a loop is started if none is running. -/
def queue (envelope : Octets) (writeBudget : Budget) : Socket :=
  { s with
    writeBudget
    writes := s.writes ++ [encodeFrame envelope.bytes]
    writeBytes := sizeAdd s.writeBytes (envelope.bytes.length + 4)
    sent := s.sent ++ [envelope]
    writing := true
    loops := if s.writing then s.loops else s.loops ++ [if s.writerClosed then .failed none else .ready] }

/-- `connection::send` -/
def send (envelope : Octets) : Socket × Bool :=
  let bytes := envelope.bytes.length
  if s.closed then (s, false)
  else if PROTOCOL_SEND_MSS < bytes ∨ maxConnectionWrites ≤ s.writes.length ∨
      sizeSub maxConnectionBytes s.writeBytes < sizeAdd bytes 4 then (s.close, false)
  else
    match s.writeBudget.acquire (bytes + 4) with
    | none => (s.close, false)
    | some writeBudget => (s.queue envelope writeBudget, true)

/-- `send_reliable` of a sequence number that has an entry. -/
def replaceReliable (envelope : Octets) (sequence : ℤ) (previous : ReliableEntry) : Socket × Bool :=
  let bytes := envelope.bytes.length
  let oldBytes := previous.envelope.bytes.length
  if sizeSub maxConnectionBytes (sizeSub s.reliableBytes oldBytes) < bytes then (s.close, false)
  else
    match s.reliableBudget.resize previous.units bytes with
    | none => (s.close, false)
    | some reliableBudget =>
      -- the entry holds other units before the send
      let resized := { s with
        reliableBudget
        reliable := s.reliable.set sequence (some { previous with units := bytes }) }
      match resized.send envelope with
      | (s, false) => (s, false)
      | (s, true) =>
        ({ s with
            reliableBytes := sizeAdd (sizeSub s.reliableBytes oldBytes) bytes
            reliable := s.reliable.set sequence (some { envelope, units := bytes }) }, true)

/-- `send_reliable` of a new sequence number. -/
def addReliable (envelope : Octets) (sequence : ℤ) : Socket × Bool :=
  let bytes := envelope.bytes.length
  if s.closed ∨ maxConnectionWrites ≤ s.reliable.rows.length ∨
      sizeSub maxConnectionBytes s.reliableBytes < bytes then (s.close, false)
  else
    match s.reliableBudget.acquire bytes with
    | none => (s.close, false)
    | some reliableBudget =>
      match ({ s with reliableBudget } : Socket).send envelope with
      | (s, false) => ({ s with reliableBudget := s.reliableBudget.release bytes }, false)
      | (s, true) =>
        ({ s with
            reliableBytes := sizeAdd s.reliableBytes bytes
            reliable := s.reliable.set sequence (some { envelope, units := bytes }) }, true)

/-- `connection::send_reliable` -/
def sendReliable (envelope : Octets) (sequence : ℤ) : Socket × Bool :=
  if sequence ≤ 0 then s.send envelope
  else
    match s.reliable.get sequence with
    | some previous => s.replaceReliable envelope sequence previous
    | none => s.addReliable envelope sequence

def acknowledge (sequence : ℤ) : Socket :=
  match s.reliable.get sequence with
  | none => s
  | some entry =>
    { s with
      reliableBytes := sizeSub s.reliableBytes entry.envelope.bytes.length
      reliable := s.reliable.set sequence none
      reliableBudget := s.reliableBudget.release entry.units }

def retry (sequence : ℤ) : Socket :=
  match s.reliable.get sequence with
  | none => s
  | some entry =>
    if s.closed then s
    else if 3 ≤ entry.attempts then s.acknowledge sequence
    else
      let again := { entry with attempts := entry.attempts + 1 }
      (({ s with reliable := s.reliable.set sequence (some again) } : Socket).send entry.envelope).1

/-- `connection::quit`, up to its wait. -/
def quit (response : Octets) : Socket :=
  let answered := ({ s with closeAfterWrite := true } : Socket).send response
  { answered.1 with
    writerClosed := true
    quitting := true
    quitResponse := if answered.2 then some s.sent.length else none }

/-- The head of the loop: it takes the next frame, or ends. -/
def loopHead (k : ℕ) : Socket :=
  match s.writes, s.closed with
  | frame :: writes, false =>
    { s with writes, loops := s.loops.set k (.busy frame), output := s.output ++ frame }
  | _, _ =>
    let ended := { s with loops := s.loops.eraseIdx k, writing := false }
    if s.closeAfterWrite then ended.close else ended

/-- The loop after `flush`, up to its next wait. -/
def flushed (k : ℕ) (frame : Bytes) : Socket :=
  let s := { s with
    written := s.written ++ [frame]
    writeBudget := s.writeBudget.release frame.length
    writeBytes := if s.closed then s.writeBytes else sizeSub s.writeBytes frame.length }
  s.loopHead k

def step : SocketEvent → Option Socket
  | .send envelope => some (s.send envelope).1
  | .sendReliable envelope sequence => some (s.sendReliable envelope sequence).1
  | .retry sequence => some (s.retry sequence)
  | .acknowledge sequence => some (s.acknowledge sequence)
  -- the read loop waits for `quit`
  | .quit response => if s.quitting then none else some (s.quit response)
  | .quitDone => if s.quitting ∧ s.loops.all (!·.inside) then some s.close else none
  | .start k =>
    match s.loops[k]? with
    | some .ready => some (s.loopHead k)
    | _ => none
  | .written k ok =>
    match s.loops[k]? with
    | some (.busy frame) =>
      if ok then some (s.flushed k frame)
      else
        some { s with
          loops := s.loops.set k (.failed (some frame))
          writeBudget := s.writeBudget.release frame.length }
    | _ => none
  | .handled k =>
    match s.loops[k]? with
    | some (.failed _) => some ({ s with loops := s.loops.eraseIdx k } : Socket).close
    | _ => none
  | .close => some s.close
  | .budgets writeBudget reliableBudget => some { s with writeBudget, reliableBudget }

end Socket

end Imm
