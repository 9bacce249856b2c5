import Imm.Schemes.Texts
import Imm.Transaction.Packets

/-! The frames of `gateway_message.proto` that travel between a shard of a Gateway and a shard of a
    Message node, and the budgets their senders keep to. A packet is bytes on its way to Message; on
    its way back it stands for its bytes. Every command and every result carries the number of the
    `send_command` it belongs to: no function of either side looks at it, it is there to say which
    result answers which command. -/

namespace Imm

abbrev Bytes := List UInt8

/-- `protocol::Operation` -/
inductive ClientOperation where
  | UNSPECIFIED | PULL_FRIEND_LIST | PULL_FRIEND_APPLICATIONS | PULL_CONVERSATION_MESSAGES
  | PULL_GROUP_MEMBERS | PING | LOGIN | QUIT | UPDATE_USER_INFO | SEARCH_USER | ADD_FRIEND
  | REPLY_FRIEND | REMOVE_FRIEND | SEND_TEXT | SEND_FILE | UPLOAD_FILE | ACKNOWLEDGE | CREATE_GROUP
  | JOIN_GROUP | REPLY_JOIN_GROUP | QUIT_GROUP | SEND_GROUP_TEXT | UPLOAD_FILE_CHUNK
  | COMPLETE_FILE_UPLOAD | DOWNLOAD_FILE | KICK_GROUP_MEMBER | SEND_GROUP_FILE
  deriving DecidableEq

/-- The operations of `message_protocol::registry`. -/
def ClientOperation.routed : ClientOperation → Bool
  | .UNSPECIFIED | .PING | .LOGIN | .QUIT | .UPDATE_USER_INFO | .SEARCH_USER | .REMOVE_FRIEND => false
  | _ => true

/-- Connections are named by UUIDs, in which there is no colon. -/
structure ConnectionId where
  value : String
  noColon : ':' ∉ value.toList
  deriving DecidableEq

structure CommandEnvelope where
  requestId : String
  actorUid : ℤ
  connectionId : ConnectionId
  connectionGeneration : ℕ
  operation : ClientOperation
  conversationId : ℤ
  packet : Bytes
  actorDeviceId : String
  ticket : ℕ := 0
  deriving DecidableEq

structure CommandResult where
  requestId : String
  error : ErrorCodes
  retryable : Bool
  packet : Packet
  ticket : ℕ := 0
  deriving DecidableEq

structure RegisterGateway where
  protocolVersion : ℕ
  gatewayId : String
  instanceId : String
  streamEpoch : ℕ
  shardId : ℕ
  capacity : ℕ
  deriving DecidableEq

structure ClientForwardEnvelope where
  forwardId : String
  recipientUid : ℤ
  expectedConnectionId : ConnectionId
  expectedConnectionGeneration : ℕ
  messageId : ℤ
  conversationId : ℤ
  conversationSeq : ℤ
  packet : Bytes
  recipientDeviceId : String
  deriving DecidableEq

inductive ClientForwardStatus where | UNSPECIFIED | QUEUED | OFFLINE | STALE_ROUTE | BACKPRESSURED
  deriving DecidableEq

structure ClientForwardAck where
  forwardId : String
  status : ClientForwardStatus
  gatewayId : String
  instanceId : String
  recipientDeviceId : String
  deriving DecidableEq

inductive GatewayToMessageFrame where
  | registerGateway (registration : RegisterGateway)
  | command (command : CommandEnvelope)
  | clientForwardAck (ack : ClientForwardAck)
  | heartbeat (sentAtUnixMs : ℤ) (sequence : ℕ)
  | unset
  deriving DecidableEq

inductive MessageToGatewayFrame where
  | registerResult (accepted : Bool) (messageNodeId : String) (streamEpoch : ℕ)
  | commandResult (result : CommandResult)
  | clientForward (envelope : ClientForwardEnvelope)
  | heartbeatAck (sentAtUnixMs : ℤ) (sequence : ℕ)
  | drainNotice
  | unset
  deriving DecidableEq

def GatewayToMessageFrame.command? : GatewayToMessageFrame → Option CommandEnvelope
  | .command c => some c
  | _ => none

def MessageToGatewayFrame.result? : MessageToGatewayFrame → Option CommandResult
  | .commandResult r => some r
  | _ => none

/-- What `io` throws, and what `select_grpc_link` and `std::map::at` do. -/
inductive LinkError where | overloaded | stopped | noHealthyStream | outOfRange
  deriving DecidableEq

/-- `budget`: the units that are still free. -/
structure Budget where
  count : ℕ
  bytes : ℕ
  deriving DecidableEq

namespace Budget

/-- Both units or none. -/
def acquire (b : Budget) (bytes : ℕ) : Option Budget :=
  if 0 < b.count ∧ bytes ≤ b.bytes then some ⟨b.count - 1, b.bytes - bytes⟩ else none

def release (b : Budget) (bytes : ℕ) : Budget := ⟨b.count + 1, b.bytes + bytes⟩

end Budget

/-! ### Correlation ids -/

/-- The request id of a command on a stream. -/
def correlation (connectionId : ConnectionId) (clientId : String) : String :=
  connectionId.value ++ ":" ++ clientId

/-- `starts_with(connection_id + ":")` -/
def ofConnection (connectionId : ConnectionId) (key : String) : Bool :=
  (connectionId.value ++ ":").toList.isPrefixOf key.toList

theorem toList_correlation (c : ConnectionId) (r : String) :
    (correlation c r).toList = c.value.toList ++ ':' :: r.toList := by
  simp [correlation]

theorem ConnectionId.ext_toList {c c' : ConnectionId} (h : c.value.toList = c'.value.toList) : c = c' := by
  cases c
  cases c'
  simpa [String.toList_inj] using h

/-- The prefix that `cancel` looks for finds the commands of one connection. -/
theorem ofConnection_correlation (c c' : ConnectionId) (r : String) :
    ofConnection c (correlation c' r) = true ↔ c = c' := by
  unfold ofConnection
  rw [List.isPrefixOf_iff_prefix, toList_correlation]
  constructor
  · rintro ⟨rest, hrest⟩
    have hlist : c.value.toList ++ ':' :: rest = c'.value.toList ++ ':' :: r.toList := by
      rw [← hrest]
      simp
    exact ConnectionId.ext_toList (Texts.cut_first c.noColon c'.noColon hlist).1
  · rintro rfl
    exact ⟨r.toList, by simp⟩

end Imm
