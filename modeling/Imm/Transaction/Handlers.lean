import Imm.Transaction.Packets

/-! The handlers of `messages.cc`, `friends.cc`, `groups.cc` and `files.cc`, and the way
    `service::process` runs them. A handler submits operations of the store and ids to the operation queue
    one after the other; its connection may change in between, but no transaction is open then. -/

namespace Imm

open Txn MysqlStore

variable [Collation]

/-- `operation_queue::submit`: the queue may refuse the operation, and it may throw. -/
def submit {α : Type} (x : Operating α) : Operating α := do
  let _ ← Sql.ask
  Driver.execute x

/-- `generate_id`: the numbers come from Redis; they are positive. -/
def generateId : Operating ℤ := do
  let id ← Sql.ask
  pure (max 1 id)

/-- A call of the File service: the queue may refuse it, the call may fail, or there is an answer. -/
def submitFile {ρ α : Type} (_request : ρ) (answer : α) : Operating α := do
  let _ ← Sql.ask
  pure answer

/-! ### Messages -/

structure AcceptedMessage where
  response : Packet
  forwardPacket : Push := .none
  recipients : List ℤ := []
  shouldForward : Bool := false

/-- The common end of the four handlers that accept a message. -/
def AcceptedMessage.of (accepted : MessageAcceptResult) (message : String) (recipients : List ℤ)
    (push : Push) : AcceptedMessage :=
  if accepted.error = .Success then
    { response := {
        message
        payload := .sendMessage accepted.messageId accepted.conversationId accepted.conversationSeq }
      forwardPacket := push
      recipients
      shouldForward := !accepted.duplicate }
  else { response := { error := accepted.error, message, payload := .sendMessage 0 0 0 } }

def AcceptedMessage.refused (error : ErrorCodes) (message : String) : AcceptedMessage :=
  { response := { error, message, payload := .sendMessage 0 0 0 } }

namespace Messages

def acceptText (c : Command) (toUid : ℤ) (content clientMessageId : String) :
    Operating AcceptedMessage :=
  if c.actorUid ≤ 0 ∨ toUid ≤ 0 ∨ content = "" ∨ clientMessageId = "" then
    pure (.refused .JsonParser "actor, to, content and client_message_id are required")
  else do
    let sendDateTime := c.clock 0
    let accepted ← submit (acceptDirectText {
      senderId := c.actorUid, receiverId := toUid, clientMessageId, content, sendDateTime })
    pure (.of accepted
      (if accepted.error = .Success then ""
        else if accepted.diagnostic = "" then "persistent message accept failed"
        else accepted.diagnostic)
      [toUid]
      (.textMessage accepted.messageId c.actorUid toUid 0 content clientMessageId
        accepted.conversationId accepted.conversationSeq sendDateTime))

def acceptGroupText (c : Command) (groupId : ℤ) (content clientMessageId : String) :
    Operating AcceptedMessage :=
  if c.actorUid ≤ 0 ∨ groupId ≤ 0 ∨ content = "" ∨ clientMessageId = "" then
    pure (.refused .JsonParser "actor, group_id, content and client_message_id are required")
  else do
    let sendDateTime := c.clock 0
    let accepted ← submit (acceptGroupMessage {
      senderId := c.actorUid, groupId, clientMessageId, content, messageType := .TEXT, sendDateTime })
    pure (.of accepted.toMessageAcceptResult
      (if accepted.error = .Success then ""
        else if accepted.diagnostic = "" then getErrorCodeMsg accepted.error
        else accepted.diagnostic)
      accepted.recipientUids
      (.textMessage accepted.messageId c.actorUid 0 groupId content clientMessageId
        accepted.conversationId accepted.conversationSeq sendDateTime))

/-- The file must be ready and the sender's own; the message holds its id. -/
def acceptFile (c : Command) (toUid : ℤ) (fileId : Option String) (clientMessageId : String) :
    Operating AcceptedMessage :=
  match fileId with
  | none => pure (.refused .JsonParser "to, file and client_message_id are required")
  | some fileId =>
    if c.actorUid ≤ 0 ∨ toUid ≤ 0 ∨ clientMessageId = "" then
      pure (.refused .JsonParser "to, file and client_message_id are required")
    else do
      match ← submit (findReadyFile fileId c.actorUid (c.clock 0)) with
      | none => pure (.refused .NotFound "ready file not found")
      | some file =>
        let accepted ← submit (acceptDirectText {
          senderId := c.actorUid, receiverId := toUid, clientMessageId, content := file.fileId,
          sendDateTime := c.clock 1, messageType := .FILE })
        pure (.of accepted accepted.diagnostic [toUid]
          (.fileMessage accepted.messageId c.actorUid toUid 0 file.info clientMessageId
            accepted.conversationId accepted.conversationSeq))

/-- The store looks at the file once more, inside the transaction. -/
def acceptGroupFile (c : Command) (groupId : ℤ) (fileId : Option String) (clientMessageId : String) :
    Operating AcceptedMessage :=
  match fileId with
  | none => pure (.refused .JsonParser "group_id, file and client_message_id are required")
  | some fileId =>
    if c.actorUid ≤ 0 ∨ groupId ≤ 0 ∨ clientMessageId = "" then
      pure (.refused .JsonParser "group_id, file and client_message_id are required")
    else do
      match ← submit (findReadyFile fileId c.actorUid (c.clock 0)) with
      | none => pure (.refused .NotFound "ready file not found")
      | some file =>
        let accepted ← submit (acceptGroupMessage {
          senderId := c.actorUid, groupId, clientMessageId, content := file.fileId,
          messageType := .FILE, sendDateTime := c.clock 1, requireReadyOwnedFile := true })
        pure (.of accepted.toMessageAcceptResult accepted.diagnostic accepted.recipientUids
          (.fileMessage accepted.messageId c.actorUid 0 groupId file.info clientMessageId
            accepted.conversationId accepted.conversationSeq))

def acknowledge (c : Command) (seq conversationId conversationSeq : ℤ) (receiptType : ReceiptType) :
    Operating Outcome :=
  if seq ≤ 0 ∨ conversationId ≤ 0 ∨ conversationSeq ≤ 0 ∨
      (receiptType ≠ .DELIVERED ∧ receiptType ≠ .READ) then
    pure { response := { error := .JsonParser } }
  else do
    let acknowledged ← submit (acknowledgeConversationMessage {
      messageId := seq, uid := c.actorUid, deviceId := c.actorDeviceId, conversationId, conversationSeq
      status := if receiptType = .READ then .READ else .DELIVERED
      readDateTime := if receiptType = .READ then c.clock 0 else "" })
    if acknowledged.updated ≤ 0 then
      pure { response := {
        error := if acknowledged.updated = -1 then .MysqlFailed else .MessageOwnershipInvalid } }
    else
      pure {
        response := {}
        deliveries :=
          if receiptType = .READ ∧ acknowledged.directConversation ∧ acknowledged.readStateChanged ∧
              0 < acknowledged.senderUid then
            [{ recipientUid := acknowledged.senderUid
               packet := .readReceipt seq c.actorUid acknowledged.senderUid conversationId
                conversationSeq }]
          else [] }

def pullConversation (c : Command) (conversationId afterSeq limit : ℤ) : Operating Outcome :=
  if conversationId ≤ 0 then
    pure { response := { error := .JsonParser } }
  else do
    let sync ← submit (syncConversation {
      uid := c.actorUid, conversationId, afterSeq, pullCount := if 0 < limit then limit else 50
      now := c.clock 0 })
    let messages := if sync.error = .Success then sync.messages else []
    pure { response := {
      error := sync.error
      payload := .pullConversationMessages conversationId { sync with messages } } }

end Messages

/-! ### Friends -/

namespace Friends

def storeApplication (c : Command) (toUid : ℤ) (requestMessage : String) : Operating ℤ :=
  submit (insertFriendApply c.actorUid toUid {
    content := requestMessage, status := .Wait, createTime := "" })

def apply (c : Command) (toUid : ℤ) (requestMessage : String) : Operating Outcome := do
  let notificationId ← generateId
  if (← storeApplication c toUid requestMessage) = -1 then
    pure { response := {
      error := .MysqlFailed, message := "数据库修改异常", payload := .addFriend } }
  else
    pure {
      response := { payload := .addFriend }
      deliveries := [{
        recipientUid := toUid
        packet := .friendRequest notificationId c.actorUid toUid requestMessage }] }

/-- Whether there is an application to reply to is not looked at. The row of the friendship has the
    time at which it is stored. -/
def storeReply (c : Command) (toUid : ℤ) (accept : Bool) (replyMessage : String) : Operating ℤ := do
  let time := c.clock 0
  if accept then
    let friendshipId ← generateId
    let conversationId ← generateId
    let result ← submit (insertFriend friendshipId conversationId c.actorUid toUid (c.clock 1))
    if result = -1 then pure (-1)
    else
      submit (updateFriendApplyStatus c.actorUid toUid {
        content := replyMessage, status := .Agree, createTime := time })
  else
    submit (updateFriendApplyStatus c.actorUid toUid {
      content := replyMessage, status := .Refuse, createTime := time })

def reply (c : Command) (toUid : ℤ) (accept : Option Bool) (replyMessage : String) :
    Operating Outcome :=
  match accept with
  | none => pure { response := {
      error := .JsonParser, message := "accept is required", payload := .replyFriend } }
  | some accept => do
    let notificationId ← generateId
    if (← storeReply c toUid accept replyMessage) = -1 then
      pure { response := {
        error := .MysqlFailed, message := "数据库修改发送异常", payload := .replyFriend } }
    else
      pure {
        response := { payload := .replyFriend }
        deliveries := [{
          recipientUid := toUid
          packet := .friendReply notificationId c.actorUid toUid accept replyMessage }] }

def pullApplications (c : Command) : Operating Outcome := do
  let applyList ← submit (getFriendApplyList c.actorUid)
  let applications := (applyList.getD []).map fun e => (e.1.1, e.2.status, e.2.content)
  pure { response := { payload := .pullFriendApplyList applications } }

/-- The loop over the friend list: a friend without a row of `userInfo` is left out. -/
def friendInfos : List FriendRecord → Operating (List (ℤ × UserInfo))
  | [] => pure []
  | friend :: friendList => do
    let friendInfo ← submit (getUserInfo friend.peerUid)
    let infos ← friendInfos friendList
    pure ((friendInfo.map fun info => (friend.peerUid, info)).toList ++ infos)

def pullFriends (c : Command) : Operating Outcome := do
  let friendList ← submit (getFriendList c.actorUid)
  let infos ← friendInfos (friendList.getD [])
  pure { response := { payload := .pullFriendList infos } }

end Friends

/-! ### Groups -/

/-- The response to a group operation. -/
def GroupOperationResult.packet (result : GroupOperationResult) (payload : Payload) : Packet where
  error := result.error
  message := result.diagnostic
  payload := payload

namespace Groups

def notifyApplication (masterUid requestorUid groupId : ℤ) (requestMessage : String) : List Delivery :=
  [{ recipientUid := masterUid, packet := .groupJoinRequest requestorUid groupId requestMessage }]

def notifyChange (result : GroupOperationResult) (change : GroupChangeKind) (accept : Bool) :
    List Delivery :=
  result.recipientUids.map fun uid => {
    recipientUid := uid
    packet := .groupChange result.groupId result.targetUid result.actorUid accept change
      result.groupName }

/-- A request that a group handler refuses before it asks the store. -/
def refused (error : ErrorCodes) (message : String) : Operating Outcome :=
  pure { response := { error, message } }

def create (c : Command) (groupName : String) : Operating Outcome :=
  if c.actorUid ≤ 0 ∨ groupName = "" then refused .JsonParser ""
  else do
    let groupId ← generateId
    let conversationId ← generateId
    let result ← submit (createGroup groupId {
      masterUid := c.actorUid, name := groupName, conversationId, createTime := c.clock 0 })
    pure { response := result.packet (.createGroup groupId conversationId) }

def apply (c : Command) (groupId : ℤ) (requestMessage : String) : Operating Outcome :=
  if c.actorUid ≤ 0 ∨ groupId ≤ 0 then refused .JsonParser ""
  else do
    let result ← submit (requestGroupJoin groupId c.actorUid requestMessage (c.clock 0))
    pure {
      response := result.packet .joinGroup
      deliveries :=
        if result.error = .Success ∧ result.recipientUids ≠ [] then
          notifyApplication result.masterUid c.actorUid groupId requestMessage
        else [] }

def pull (c : Command) (groupId : ℤ) : Operating Outcome :=
  if c.actorUid ≤ 0 ∨ groupId ≤ 0 then refused .JsonParser ""
  else do
    let result ← submit (pullGroup groupId c.actorUid)
    let found := decide (result.error = .Success)
    pure { response := result.packet (.pullGroupMembers groupId result.conversationId
      result.masterUid result.groupName (if found then result.members else [])
      (if found then result.applies else [])) }

def reply (c : Command) (groupId requestorUid : ℤ) (accept : Option Bool) : Operating Outcome :=
  match accept with
  | none => refused .JsonParser ""
  | some accept =>
    if c.actorUid ≤ 0 ∨ groupId ≤ 0 ∨ requestorUid ≤ 0 then refused .JsonParser ""
    else do
      let result ← submit (replyGroupJoin groupId c.actorUid requestorUid accept (c.clock 0))
      pure {
        response := result.packet .replyJoinGroup
        deliveries :=
          if result.error = .Success then
            notifyChange result (if accept then .JOINED else .UNSPECIFIED) accept
          else [] }

def quit (c : Command) (groupId : ℤ) : Operating Outcome :=
  if c.actorUid ≤ 0 ∨ groupId ≤ 0 then refused .JsonParser ""
  else do
    let result ← submit (removeGroupMember groupId c.actorUid c.actorUid true)
    pure {
      response := result.packet .quitGroup
      deliveries :=
        if result.error = .Success then
          notifyChange result (if result.targetUid = result.masterUid then .DISSOLVED else .LEFT) false
        else [] }

/-- The one place that keeps a master from leaving the group behind. -/
def kick (c : Command) (groupId memberUid : ℤ) : Operating Outcome :=
  if c.actorUid ≤ 0 ∨ groupId ≤ 0 ∨ memberUid ≤ 0 then refused .JsonParser ""
  else if c.actorUid = memberUid then refused .MessageOwnershipInvalid "master cannot kick itself"
  else do
    let result ← submit (removeGroupMember groupId c.actorUid memberUid false)
    pure {
      response := result.packet .kickGroupMember
      deliveries := if result.error = .Success then notifyChange result .KICKED false else [] }

end Groups

/-! ### Files -/

namespace Files

/-- The call an upload makes. -/
def uploadRequest (c : Command) (file : FileInfo) (offset : ℤ) (data : FileService.Bytes) (complete : Bool) :
    FileService.UploadRequest where
  file := some {
    fileId := file.fileId, fileName := file.fileName, fileType := file.fileType, fileSize := file.fileSize
    sha256 := file.sha256 }
  userId := c.actorUid
  offset := offset
  data := data
  complete := complete

/-- The row of a file whose upload is complete. It describes the file as the request does; the third
    reading of the clock is 30 days ahead. -/
def object (c : Command) (file : FileInfo) : FileObject where
  fileId := file.fileId
  ownerUid := c.actorUid
  fileName := file.fileName
  fileType := file.fileType
  fileSize := file.fileSize
  sha256 := file.sha256
  state := 1
  createdTime := c.clock 1
  expiresTime := c.clock 2

def upload (c : Command) (packet : UploadPacket) (file : Option FileInfo) (offset : ℤ)
    (data : FileService.Bytes) (complete : Bool) : Operating Outcome :=
  match file with
  | none => pure { response := {
      error := .JsonParser, message := "file metadata is required", payload := .fileUpload packet 0 false } }
  | some file =>
    if c.actorUid ≤ 0 then
      pure { response := {
        error := .JsonParser, message := "file metadata is required", payload := .fileUpload packet 0 false } }
    else do
      let rpc ← submitFile (uploadRequest c file offset data complete) c.uploaded
      if rpc.status ≠ .FAILED then
        let complete := decide (rpc.status = .SUCCESS) && complete
        let payload := .fileUpload packet rpc.nextOffset complete
        if (← submit (saveFileUploadProgress c.actorUid file.fileId ⟨rpc.nextOffset, complete, c.clock 0⟩)) ≠ 0 then
          pure { response := { error := .MysqlFailed, message := "file progress write failed", payload } }
        else if complete then
          if (← submit (upsertReadyFile (object c file))) ≠ 0 then
            pure { response := {
              error := .MysqlFailed, message := "file persisted but metadata write failed", payload } }
          else pure { response := { payload } }
        else pure { response := { payload } }
      else
        pure { response := {
          error := .FileTypeError, message := rpc.message, payload := .fileUpload packet 0 false } }

/-- The call a download makes: for the object of the owner, whoever asks. -/
def downloadRequest (file : FileObject) (offset limit : ℤ) : FileService.DownloadRequest where
  file := some {
    fileId := file.fileId, fileName := file.fileName, fileType := file.fileType, fileSize := file.fileSize
    sha256 := file.sha256 }
  userId := file.ownerUid
  offset := offset
  limit := if 0 < limit then limit else 1024 * 1024

def download (c : Command) (fileId : Option String) (offset limit : ℤ) : Operating Outcome :=
  match fileId with
  | none => pure { response := { error := .JsonParser, payload := .fileDownload none [] 0 false } }
  | some fileId =>
    if c.actorUid ≤ 0 ∨ fileId = "" then
      pure { response := { error := .JsonParser, payload := .fileDownload none [] 0 false } }
    else do
      match ← submit (findDownloadableFile fileId c.actorUid (c.clock 0)) with
      | none => pure { response := {
          error := .MessageOwnershipInvalid, message := "file is unavailable or not owned by this conversation"
          payload := .fileDownload none [] 0 false } }
      | some file =>
        let rpc ← submitFile (downloadRequest file offset limit) c.downloaded
        if rpc.status = .FAILED then
          pure { response := {
            error := .RPCFailed, message := rpc.message, payload := .fileDownload none [] 0 false } }
        else
          pure { response := {
            payload := .fileDownload (some file.info) rpc.data rpc.nextOffset rpc.complete } }

end Files

/-! ### The service -/

namespace Service

/-- `stage_message`: to the recipients, and to the other devices of the sender. -/
def stageMessage (c : Command) (accepted : AcceptedMessage) : Outcome where
  response := accepted.response
  deliveries :=
    if accepted.shouldForward then
      accepted.recipients.map (fun uid => { recipientUid := uid, packet := accepted.forwardPacket }) ++
        [{ recipientUid := c.actorUid, packet := accepted.forwardPacket
           excludedDeviceId := c.actorDeviceId }]
    else []

def handle (c : Command) : Operating Outcome :=
  match c.request with
  | .sendText toUid content clientMessageId => do
    pure (stageMessage c (← Messages.acceptText c toUid content clientMessageId))
  | .sendGroupText groupId content clientMessageId => do
    pure (stageMessage c (← Messages.acceptGroupText c groupId content clientMessageId))
  | .sendFile toUid fileId clientMessageId => do
    pure (stageMessage c (← Messages.acceptFile c toUid fileId clientMessageId))
  | .sendGroupFile groupId fileId clientMessageId => do
    pure (stageMessage c (← Messages.acceptGroupFile c groupId fileId clientMessageId))
  | .receipt seq conversationId conversationSeq receiptType =>
    Messages.acknowledge c seq conversationId conversationSeq receiptType
  | .pullConversationMessages conversationId afterSeq limit =>
    Messages.pullConversation c conversationId afterSeq limit
  | .addFriend toUid requestMessage => Friends.apply c toUid requestMessage
  | .replyFriend toUid accept replyMessage => Friends.reply c toUid accept replyMessage
  | .pullFriendList => Friends.pullFriends c
  | .pullFriendApplyList => Friends.pullApplications c
  | .createGroup groupName => Groups.create c groupName
  | .joinGroup groupId requestMessage => Groups.apply c groupId requestMessage
  | .replyJoinGroup groupId requestorUid accept => Groups.reply c groupId requestorUid accept
  | .pullGroupMembers groupId => Groups.pull c groupId
  | .quitGroup groupId => Groups.quit c groupId
  | .kickGroupMember groupId memberUid => Groups.kick c groupId memberUid
  | .fileUpload packet file offset data complete => Files.upload c packet file offset data complete
  | .fileDownload fileId offset limit => Files.download c fileId offset limit

/-- The text of `io::overloaded`. -/
def overloaded : String := "I/O queue full"

/-- `service::process`: the actor's lease is read first, and it is not the one the command came with
    when the number read is 0. An exception becomes an error response. -/
def process (c : Command) : Prog Db Key Write Outcome :=
  Sql.outcome
    (do
      if (← Sql.ask) = 0 then pure { response := { error := .AuthenticationRequired } }
      else handle c)
    fun
      | .ok outcome => outcome
      | .error e =>
        { response := {
            error := if e = overloaded then .ResourceExhausted else .DependencyUnavailable } }

end Service

/-- The store with its sessions, each handling one command. -/
abbrev ServiceStore := Sys Db Key Write Outcome Command

/-- A session of the service. -/
abbrev Handling := Session Db Key Write Outcome Command

/-- The error code of the response, once there is one. -/
def answeredWith (σ : Handling) : Option ErrorCodes :=
  match σ.prog with
  | .ret o => some o.response.error
  | _ => none

omit [Collation] in
theorem answeredWith_eq_some {σ : Handling} {e : ErrorCodes} (h : answeredWith σ = some e) :
    ∃ o, σ.prog = .ret o ∧ o.response.error = e := by
  unfold answeredWith at h
  split at h
  · rename_i o ho
    exact ⟨o, ho, Option.some.inj h⟩
  · cases h

/-- The command is begun as session `i` and goes on by one action for each of the numbers `ns`. -/
def handled (i : ℕ) (c : Command) (ns : List ℕ) : List (Event Command) := .begin c :: ns.map (.act i)

end Imm
