import Imm.Link.Books
import Imm.Socket.Timers

/-! A push at the Gateway. `server::deliver` hands it to the socket it is for, and the link it came on
    acknowledges it:

        link ── client_forward ──▶ deliver ──▶ socket      (queued, refused, or closed)
        link ◀── ack ── enqueue ◀── status

    The frames of the sockets and those of the links draw on one budget of writes. When it has nothing
    left for the acknowledgement, `enqueue` throws in the callback of the link; the whole stream is
    stopped, and with it end the commands of other clients. Otherwise a push ends no commands but those
    of a connection it had to close. A push that is queued takes units first; a connection that is closed
    returns those of its queue. -/

namespace Imm

/-- What `deliver` asks of protobuf: the reliable sequence of a packet that parses, and the envelope of
    a push with its delivery id. -/
structure PushCodec where
  reliableSequence : Bytes → Option ℤ
  serialize : ℤ → Bytes → Octets

/-- A `connection` as `deliver` sees it. -/
structure ClientConnection where
  socket : Socket
  uid : ℤ
  deviceId : String
  generation : ℕ

/-- A shard of the Gateway: the driver, whose `writes` the sockets share, the budget of the pushes that
    wait for an acknowledgement, and the connections. -/
structure GatewayShard where
  driver : GatewayDriver
  reliable : Budget
  connections : ConnectionId → Option ClientConnection

/-- The units of one frame taken. -/
def Budget.taken (b : Budget) (bytes : ℕ) : Budget := ⟨b.count - 1, b.bytes - bytes⟩

namespace Socket

/-- The limits of `send`, and the units it takes. -/
def Admits (s : Socket) (envelope : Octets) : Prop :=
  envelope.bytes.length ≤ PROTOCOL_SEND_MSS ∧ s.writes.length < maxConnectionWrites ∧
    sizeAdd envelope.bytes.length 4 ≤ sizeSub maxConnectionBytes s.writeBytes ∧
    0 < s.writeBudget.count ∧ envelope.bytes.length + 4 ≤ s.writeBudget.bytes

instance (s : Socket) (envelope : Octets) : Decidable (s.Admits envelope) := inferInstanceAs (Decidable (_ ∧ _))

/-- What is free once the connection has returned the units of its queue. -/
def freed (s : Socket) : Budget := s.writes.foldl (fun b frame => b.release frame.length) s.writeBudget

/-- An envelope that is taken is queued, and one that is not closes the connection. -/
def Answers (s : Socket) (taken : Prop) (envelope : Octets) (answer : Socket × Bool) : Prop :=
  (taken → answer.2 = true ∧ answer.1.writeBudget = s.writeBudget.taken (envelope.bytes.length + 4)) ∧
    (¬ taken → answer.2 = false ∧ answer.1.writeBudget = s.freed)

variable {s : Socket} (hopen : s.closed = false) (envelope : Octets)

include hopen

theorem close_writeBudget : s.close.writeBudget = s.freed := by simp [close, hopen, freed]

theorem send_answers : s.Answers (s.Admits envelope) envelope (s.send envelope) := by
  unfold send
  simp only [hopen, Bool.false_eq_true, if_false]
  split
  · rename_i hlimits
    refine ⟨fun h => ?_, fun _ => ⟨rfl, close_writeBudget hopen⟩⟩
    obtain ⟨hsize, hcount, hbytes, -⟩ := h
    omega
  · rename_i hlimits
    simp only [not_or, Nat.not_lt, Nat.not_le] at hlimits
    by_cases hunits : 0 < s.writeBudget.count ∧ envelope.bytes.length + 4 ≤ s.writeBudget.bytes
    · simp only [Budget.acquire, if_pos hunits]
      exact ⟨fun _ => ⟨rfl, rfl⟩, fun h => absurd ⟨hlimits.1, hlimits.2.1, hlimits.2.2, hunits⟩ h⟩
    simp only [Budget.acquire, if_neg hunits]
    exact ⟨fun h => absurd h.2.2.2 hunits, fun _ => ⟨rfl, close_writeBudget hopen⟩⟩

/-- `send_reliable` closes the connection before its `send`, or answers as that does. -/
theorem sendReliable_answers {sequence : ℤ} (hsequence : 0 < sequence) :
    s.Answers (s.offers envelope sequence = true ∧ s.Admits envelope) envelope
      (s.sendReliable envelope sequence) := by
  have hrefused : ¬ s.offers envelope sequence = true →
      s.Answers (s.offers envelope sequence = true ∧ s.Admits envelope) envelope (s.close, false) :=
    fun h => ⟨fun h' => absurd h'.1 h, fun _ => ⟨rfl, close_writeBudget hopen⟩⟩
  rw [sendReliable, if_neg (not_le.2 hsequence)]
  cases hget : s.reliable.get sequence with
  | none =>
    simp only [addReliable]
    split
    · rename_i hlimits
      refine hrefused ?_
      simp only [offers, hget, hopen, Bool.and_eq_true, decide_eq_true_eq, not_and]
      intro h
      simp only [hopen, Bool.false_eq_true, false_or] at hlimits
      omega
    · rename_i hlimits
      simp only [not_or, Nat.not_lt, Nat.not_le] at hlimits
      cases hbudget : s.reliableBudget.acquire envelope.bytes.length with
      | none => exact hrefused (by simp [offers, hget, hbudget])
      | some reliableBudget =>
        have hoffers : s.offers envelope sequence = true := by
          simp [offers, hget, hopen, hlimits.2.1, hlimits.2.2, hbudget]
        simp only [hoffers, true_and]
        have hsend := send_answers (s := { s with reliableBudget }) hopen envelope
        revert hsend
        generalize send _ envelope = answer
        obtain ⟨s', _ | _⟩ := answer
        · exact fun hsend => hsend
        · exact fun hsend => hsend
  | some previous =>
    simp only [replaceReliable]
    split
    · rename_i hlimit
      exact hrefused (by simp [offers, hget, hlimit])
    rename_i hlimit
    cases hbudget : s.reliableBudget.resize previous.units envelope.bytes.length with
    | none => exact hrefused (by simp [offers, hget, hbudget])
    | some reliableBudget =>
      have hoffers : s.offers envelope sequence = true := by
        simp [offers, hget, not_lt.1 hlimit, hbudget]
      simp only [hoffers, true_and]
      have hsend := send_answers (s := { s with
        reliableBudget
        reliable := s.reliable.set sequence (some { previous with units := envelope.bytes.length }) }) hopen envelope
      revert hsend
      generalize send _ envelope = answer
      obtain ⟨s', _ | _⟩ := answer
      · exact fun hsend => hsend
      · exact fun hsend => hsend

end Socket

namespace GatewayShard

variable (codec : PushCodec) (g : GatewayShard)

/-- The route that the push was given is the one of the connection. -/
def current (session : ClientConnection) (forward : ClientForwardEnvelope) : Bool :=
  !session.socket.closed && session.uid = forward.recipientUid &&
    session.deviceId = forward.recipientDeviceId &&
    session.generation = forward.expectedConnectionGeneration

/-- `send_reliable` or `send` of a push whose packet has this sequence. -/
def offer (session : ClientConnection) (forward : ClientForwardEnvelope) (sequence : ℤ) : Socket × Bool :=
  let deliveryId := if 0 < forward.messageId then forward.messageId else sequence
  let wire := codec.serialize deliveryId forward.packet
  let socket := { session.socket with writeBudget := g.driver.writes, reliableBudget := g.reliable }
  if 0 < sequence then socket.sendReliable wire sequence else socket.send wire

/-- `server::deliver`. A socket that is closed here is one the push closed; its commands are cancelled
    where the answer is taken. -/
def deliver (forward : ClientForwardEnvelope) : GatewayShard × Forwarded :=
  match g.connections forward.expectedConnectionId with
  | none => (g, ⟨.OFFLINE, false⟩)
  | some session =>
    if !current session forward then (g, ⟨.STALE_ROUTE, false⟩)
    else
      match codec.reliableSequence forward.packet with
      | none => (g, ⟨.BACKPRESSURED, false⟩)
      | some sequence =>
        let (socket, accepted) := g.offer codec session forward sequence
        ({ driver := { g.driver with writes := socket.writeBudget }
           reliable := socket.reliableBudget
           connections := Function.update g.connections forward.expectedConnectionId
             (some { session with socket }) },
          ⟨if accepted then .QUEUED else .BACKPRESSURED, socket.closed⟩)

/-- `OnReadDone` of a link that has read a push. -/
def onClientForward (l : ℕ) (forward : ClientForwardEnvelope) : GatewayShard :=
  let (g', forwarded) := g.deliver codec forward
  { g' with driver := g'.driver.onReadDone l (.clientForward forward) forwarded }

/-- The acknowledgement of a push. -/
def ackOf (forward : ClientForwardEnvelope) (status : ClientForwardStatus) : GatewayToMessageFrame :=
  .clientForwardAck {
    forwardId := forward.forwardId
    status
    gatewayId := g.driver.options.gatewayId
    instanceId := g.driver.options.instanceId
    recipientDeviceId := forward.recipientDeviceId }

/-- How a push will be answered, and what will be free then. -/
def room (forward : ClientForwardEnvelope) : ClientForwardStatus × Budget :=
  match g.connections forward.expectedConnectionId with
  | none => (.OFFLINE, g.driver.writes)
  | some session =>
    if !current session forward then (.STALE_ROUTE, g.driver.writes)
    else
      match codec.reliableSequence forward.packet with
      | none => (.BACKPRESSURED, g.driver.writes)
      | some sequence =>
        let wire := codec.serialize (if 0 < forward.messageId then forward.messageId else sequence) forward.packet
        let socket : Socket := { session.socket with writeBudget := g.driver.writes, reliableBudget := g.reliable }
        if (sequence ≤ 0 ∨ socket.offers wire sequence = true) ∧ socket.Admits wire then
          (.QUEUED, g.driver.writes.taken (wire.bytes.length + 4))
        else (.BACKPRESSURED, socket.freed)

/-- There will be room for the acknowledgement. -/
def AckFits (forward : ClientForwardEnvelope) : Prop :=
  let (status, free) := g.room codec forward
  0 < free.count ∧ g.driver.options.frameSize (g.ackOf forward status) ≤ free.bytes

instance (forward : ClientForwardEnvelope) : Decidable (g.AckFits codec forward) :=
  inferInstanceAs (Decidable (_ ∧ _))

variable {codec g} {l : ℕ} {forward : ClientForwardEnvelope}

/-- The driver notices of a delivery only that units have been taken or returned. -/
theorem deliver_driver (codec : PushCodec) (g : GatewayShard) (forward : ClientForwardEnvelope) :
    (g.deliver codec forward).1.driver =
      { g.driver with writes := (g.deliver codec forward).1.driver.writes } := by
  unfold deliver
  split
  · rfl
  split
  · rfl
  · split <;> rfl

theorem deliver_room (codec : PushCodec) (g : GatewayShard) (forward : ClientForwardEnvelope) :
    ((g.deliver codec forward).2.status, (g.deliver codec forward).1.driver.writes) = g.room codec forward := by
  unfold deliver room
  split
  · rfl
  rename_i session _
  split
  · rfl
  rename_i hcurrent
  have hopen : session.socket.closed = false := by
    simp only [current, Bool.not_eq_true', Bool.not_eq_false, Bool.and_eq_true] at hcurrent
    exact hcurrent.1.1.1
  split
  · rfl
  rename_i sequence _
  set socket : Socket := { session.socket with writeBudget := g.driver.writes, reliableBudget := g.reliable }
  set wire := codec.serialize (if 0 < forward.messageId then forward.messageId else sequence) forward.packet
  have hanswers : socket.Answers ((sequence ≤ 0 ∨ socket.offers wire sequence = true) ∧ socket.Admits wire)
      wire (g.offer codec session forward sequence) := by
    by_cases hsequence : 0 < sequence
    · simpa only [offer, if_pos hsequence, not_le.2 hsequence, false_or] using
        Socket.sendReliable_answers (s := socket) hopen wire hsequence
    simpa only [offer, if_neg hsequence, not_lt.1 hsequence, true_or, true_and] using
      Socket.send_answers (s := socket) hopen wire
  by_cases htaken : (sequence ≤ 0 ∨ socket.offers wire sequence = true) ∧ socket.Admits wire
  · obtain ⟨haccepted, hbudget⟩ := hanswers.1 htaken
    simp only [if_pos htaken, haccepted, hbudget, if_true]
    rfl
  obtain ⟨haccepted, hbudget⟩ := hanswers.2 htaken
  simp only [if_neg htaken, haccepted, hbudget, Bool.false_eq_true, if_false]

end GatewayShard

namespace GatewayDriver

variable {d : GatewayDriver} {l : ℕ}

@[simp] theorem options_setLink (d : GatewayDriver) (l : ℕ) (x : MessageLink) :
    (d.setLink l x).options = d.options := rfl

theorem Sound.open_of_pending (hd : d.Sound) {entry : String × PendingCommand} (he : entry ∈ d.pending) :
    entry.2.ticket ∉ d.completions.map (·.1) := by
  have hnodup := hd.tickets.nodup_iff.2 List.nodup_range
  exact fun h => (List.disjoint_of_nodup_append hnodup) (List.mem_map_of_mem he) h

theorem isHealthy_cancel (d : GatewayDriver) (c : ConnectionId) (l : ℕ) :
    ((d.cancel c).links l).isHealthy = (d.links l).isHealthy := rfl

theorem stopping_of_isHealthy (h : (d.links l).isHealthy = true) : (d.links l).stopping = false := by
  simpa using (Bool.and_eq_true_iff.1 h).2

theorem isHealthy_startRead (h : (d.links l).isHealthy = true) : ((d.startRead l).links l).isHealthy = true := by
  unfold startRead
  split
  · exact h
  · simpa [MessageLink.isHealthy] using h

/-- A push whose acknowledgement fits leaves its link healthy; any other stops it. -/
theorem onReadDone_clientForward (forward : ClientForwardEnvelope) (forwarded : Forwarded)
    (hhealthy : (d.links l).isHealthy = true) :
    let ack := .clientForwardAck {
      forwardId := forward.forwardId
      status := forwarded.status
      gatewayId := d.options.gatewayId
      instanceId := d.options.instanceId
      recipientDeviceId := forward.recipientDeviceId }
    let after := d.onReadDone l (.clientForward forward) forwarded
    if 0 < d.writes.count ∧ d.options.frameSize ack ≤ d.writes.bytes then (after.links l).isHealthy = true
    else (after.links l).stopping = true := by
  intro ack after
  -- the driver as the acknowledgement finds it
  obtain ⟨d', hd', hwrites, hoptions, hlink⟩ : ∃ d', d' = (if forwarded.closed then
        (d.setLink l { d.links l with reading := false }).cancel forward.expectedConnectionId
      else d.setLink l { d.links l with reading := false }) ∧
      d'.writes = d.writes ∧ d'.options = d.options ∧ (d'.links l).isHealthy = true := by
    refine ⟨_, rfl, ?_⟩
    split
    · refine ⟨rfl, rfl, ?_⟩
      rw [isHealthy_cancel, links_setLink]
      exact hhealthy
    refine ⟨rfl, rfl, ?_⟩
    rw [links_setLink]
    exact hhealthy
  have hrunning := stopping_of_isHealthy hlink
  have hafter : after = ((d'.enqueue l ack).toOption.map (·.startRead l)).getD (d'.stopLink l) := by
    simp only [after, onReadDone, onGrpcFrame, options_setLink, ← hd', ack]
    cases d'.enqueue l _ <;> rfl
  rw [hafter, ← hwrites, ← hoptions]
  simp only [enqueue, hrunning, Bool.false_eq_true, if_false, Budget.acquire]
  split
  · simp only [Except.toOption, Option.map_some, Option.getD_some]
    refine isHealthy_startRead ?_
    simpa [MessageLink.isHealthy, hrunning] using hlink
  show ((d'.stopLink l).links l).stopping = true
  rw [stopLink, links_setLink]
  unfold MessageLink.stop
  split <;> simp_all

end GatewayDriver

namespace GatewayShard

open GatewayDriver

/-- Packets that say nothing but that they are to be acknowledged as number 5. -/
def someCodec : PushCodec where
  reliableSequence := fun _ => some 5
  serialize := fun _ _ => ⟨[0], by decide⟩

/-- A push to `alice`. -/
def toAlice : ClientForwardEnvelope where
  forwardId := "f"
  recipientUid := 1
  expectedConnectionId := alice
  expectedConnectionGeneration := 1
  messageId := 5
  conversationId := 1
  conversationSeq := 1
  packet := []
  recipientDeviceId := "phone"

/-- A shard without room for one more push that is to be acknowledged. -/
def crowded (driver : GatewayDriver) : GatewayShard where
  driver := driver
  reliable := ⟨0, 0⟩
  connections := fun _ => some {
    socket := .fresh ⟨0, 0⟩ ⟨0, 0⟩
    uid := 1
    deviceId := "phone"
    generation := 1 }

/-- A shard on which nobody is connected. -/
def deserted (driver : GatewayDriver) : GatewayShard where
  driver := driver
  reliable := ⟨0, 0⟩
  connections := fun _ => none

end GatewayShard

end Imm
