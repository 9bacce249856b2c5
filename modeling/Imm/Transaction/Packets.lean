import Imm.File.Storage
import Imm.Store.Operations

/-! What the transaction layer of the message service receives and sends: the requests of
    `tcp_message.proto` that it handles, its responses, and the pushes it stages for other users.
    Fields a response never sets are left at their protobuf defaults. -/

namespace Imm

inductive ReceiptType where | UNSPECIFIED | DELIVERED | READ
  deriving DecidableEq

inductive GroupChangeKind where | UNSPECIFIED | JOINED | LEFT | KICKED | DISSOLVED
  deriving DecidableEq

/-- `FileInfo`, without the bytes -/
structure FileInfo where
  fileId : String
  fileName : String
  fileType : String
  fileSize : ℤ
  sha256 : String
  deriving DecidableEq

/-- `fill_file_info` -/
def FileObject.info (file : FileObject) : FileInfo where
  fileId := file.fileId
  fileName := file.fileName
  fileType := file.fileType
  fileSize := file.fileSize
  sha256 := file.sha256

/-- The packets of an upload; they have the same fields. -/
inductive UploadPacket where | upload | chunk | complete
  deriving DecidableEq

/-- The request of a packet. A field that may be missing is an option; of the file of a message or of
    a download only its id is read. -/
inductive Request where
  | sendText (toUid : ℤ) (content clientMessageId : String)
  | sendGroupText (groupId : ℤ) (content clientMessageId : String)
  | sendFile (toUid : ℤ) (fileId : Option String) (clientMessageId : String)
  | sendGroupFile (groupId : ℤ) (fileId : Option String) (clientMessageId : String)
  | receipt (seq conversationId conversationSeq : ℤ) (receiptType : ReceiptType)
  | pullConversationMessages (conversationId afterSeq limit : ℤ)
  | addFriend (toUid : ℤ) (requestMessage : String)
  | replyFriend (toUid : ℤ) (accept : Option Bool) (replyMessage : String)
  | pullFriendList
  | pullFriendApplyList
  | createGroup (groupName : String)
  | joinGroup (groupId : ℤ) (requestMessage : String)
  | replyJoinGroup (groupId requestorUid : ℤ) (accept : Option Bool)
  | pullGroupMembers (groupId : ℤ)
  | quitGroup (groupId : ℤ)
  | kickGroupMember (groupId memberUid : ℤ)
  | fileUpload (packet : UploadPacket) (file : Option FileInfo) (offset : ℤ) (data : FileService.Bytes)
      (complete : Bool)
  | fileDownload (fileId : Option String) (offset limit : ℤ)
  deriving DecidableEq

/-- `CommandEnvelope`: who asks for what. `clock` holds the readings of the clock while the command
    is handled, in their order, `uploaded` and `downloaded` what the File service answers to it. -/
structure Command where
  actorUid : ℤ
  actorDeviceId : String
  request : Request
  clock : ℕ → String := fun _ => ""
  uploaded : FileService.UploadResponse := {}
  downloaded : FileService.DownloadResponse := {}

/-- The response part of a packet. -/
inductive Payload where
  | none
  | sendMessage (messageId conversationId conversationSeq : ℤ)
  | pullConversationMessages (conversationId : ℤ) (sync : ConversationSyncResult)
  | addFriend
  | replyFriend
  | pullFriendList (friends : List (ℤ × UserInfo))
  | pullFriendApplyList (applications : List (ℤ × ApplyStatus × String))
  | createGroup (groupId conversationId : ℤ)
  | joinGroup
  | replyJoinGroup
  | pullGroupMembers (groupId conversationId masterUid : ℤ) (groupName : String)
      (members : List (ℤ × String × String)) (applications : List (ℤ × GroupApply))
  | quitGroup
  | kickGroupMember
  | fileUpload (packet : UploadPacket) (nextOffset : ℤ) (complete : Bool)
  | fileDownload (file : Option FileInfo) (data : FileService.Bytes) (nextOffset : ℤ) (complete : Bool)
  deriving DecidableEq

structure Packet where
  error : ErrorCodes := .Success
  message : String := ""
  payload : Payload := .none
  deriving DecidableEq

/-- The packets for other sessions. -/
inductive Push where
  | none
  | textMessage (messageId fromUid toUid groupId : ℤ) (content clientMessageId : String)
      (conversationId conversationSeq : ℤ) (sendDateTime : String)
  | fileMessage (messageId fromUid toUid groupId : ℤ) (file : FileInfo) (clientMessageId : String)
      (conversationId conversationSeq : ℤ)
  | readReceipt (messageId fromUid toUid conversationId conversationSeq : ℤ)
  | friendRequest (seq fromUid toUid : ℤ) (requestMessage : String)
  | friendReply (seq fromUid toUid : ℤ) (accept : Bool) (replyMessage : String)
  | groupJoinRequest (requestorUid groupId : ℤ) (requestMessage : String)
  | groupChange (groupId requestorUid replyorUid : ℤ) (accept : Bool) (change : GroupChangeKind)
      (groupName : String)
  deriving DecidableEq

structure Delivery where
  recipientUid : ℤ
  packet : Push
  excludedDeviceId : String := ""
  deriving DecidableEq

/-- What handling a command ends with: its response and the deliveries it staged. -/
structure Outcome where
  response : Packet
  deliveries : List Delivery := []
  deriving DecidableEq

/-- `getErrorCodeMsg`: three codes are not in its table. -/
def getErrorCodeMsg : ErrorCodes → String
  | .Success => "Success"
  | .JsonParser => "JsonParser"
  | .ProtobufPacket => ""
  | .RPCFailed => "RPCFailed"
  | .VerificationExpired => "VerificationExpired"
  | .VerificationCodeInvalid => "VerificationCodeInvalid"
  | .UserExist => "UserExist"
  | .PasswdErr => "PasswdErr"
  | .EmailNotMatch => "EmailNotMatch"
  | .PasswdUpFailed => "PasswdUpFailed"
  | .PasswdInvalid => "PasswdInvalid"
  | .TokenInvalid => "TokenInvalid"
  | .UidInvalid => "UidInvalid"
  | .UserNotOnline => "UserNotOnline"
  | .UserNotFriend => "UserNotFriend"
  | .UserOnline => "UserOnline"
  | .UserOffline => "UserOffline"
  | .NotFound => "NotFound"
  | .RepeatMessage => "RepeatMessage"
  | .MysqlFailed => "MysqlFailed"
  | .FileTypeError => "FileTypeError"
  | .InternalError => "InternalError"
  | .GroupAlreadyExists => "GroupAlreadyExists"
  | .GroupNotExists => "GroupNotExists"
  | .GroupNotifyFailed => ""
  | .GroupReplyFailed => ""
  | .AuthenticationRequired => "AuthenticationRequired"
  | .MessageOwnershipInvalid => "MessageOwnershipInvalid"
  | .ResourceExhausted => "ResourceExhausted"
  | .DependencyUnavailable => "DependencyUnavailable"
  | .IdempotencyConflict => "IdempotencyConflict"

end Imm
