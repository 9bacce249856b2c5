import Imm.Store.Statements

/-! The operations of `mysql_store.cc`, statement by statement. Results carry the fields the source
    fills in, also on failure: `guarded r` is the catch block of an operation whose result so far is
    `r`, so it is entered anew each time a field is assigned. The current time, which some operations
    read from the clock, is a field of the operation. -/

namespace Imm

open Txn

variable [Collation]

abbrev Operating (α : Type) := Sql Db Key Write α

/-! ### Parameters and results -/

structure AcceptDirectText where
  senderId : ℤ
  receiverId : ℤ
  clientMessageId : String
  content : String
  sendDateTime : String
  messageType : MessageType := .TEXT
  deriving DecidableEq

structure AcceptGroupMessage where
  senderId : ℤ
  groupId : ℤ
  clientMessageId : String
  content : String
  messageType : MessageType
  sendDateTime : String
  requireReadyOwnedFile : Bool := false
  deriving DecidableEq

structure SyncConversation where
  uid : ℤ
  conversationId : ℤ
  afterSeq : ℤ
  pullCount : ℤ
  now : String
  deriving DecidableEq

structure AcknowledgeConversationMessage where
  messageId : ℤ
  uid : ℤ
  deviceId : String
  conversationId : ℤ
  conversationSeq : ℤ
  status : MessageStatus
  readDateTime : String := ""
  deriving DecidableEq

structure MessageAcceptResult where
  error : ErrorCodes := .MysqlFailed
  diagnostic : String := ""
  duplicate : Bool := false
  messageId : ℤ := 0
  conversationId : ℤ := 0
  conversationSeq : ℤ := 0
  deriving DecidableEq

structure GroupMessageAcceptResult extends MessageAcceptResult where
  groupId : ℤ := 0
  recipientUids : List ℤ := []
  deriving DecidableEq

structure GroupOperationResult where
  error : ErrorCodes := .MysqlFailed
  diagnostic : String := ""
  groupId : ℤ := 0
  conversationId : ℤ := 0
  masterUid : ℤ := 0
  targetUid : ℤ := 0
  actorUid : ℤ := 0
  groupName : String := ""
  targetJoinTime : String := ""
  recipientUids : List ℤ := []
  members : List (ℤ × String × String) := []
  applies : List (ℤ × GroupApply) := []
  deriving DecidableEq

structure ConversationSyncResult where
  error : ErrorCodes := .MysqlFailed
  conversationType : Option ConversationType := none
  latestSeq : ℤ := 0
  nextSeq : ℤ := 0
  hasMore : Bool := false
  messages : List ConversationMessageRecord := []
  deriving DecidableEq

structure ConversationAckResult where
  updated : ℤ := -1
  senderUid : ℤ := 0
  directConversation : Bool := false
  readStateChanged : Bool := false
  deriving DecidableEq

/-- The values of INSERT INTO messages. -/
def AcceptDirectText.message (op : AcceptDirectText) (conversationId : ℤ) (seq : ℕ) : Message where
  senderId := op.senderId
  receiverId := op.receiverId
  conversationId := conversationId
  conversationSeq := seq
  clientMessageId := some op.clientMessageId
  type := op.messageType
  content := op.content
  status := .WAIT
  sendDateTime := op.sendDateTime
  readDateTime := ""

def AcceptGroupMessage.message (op : AcceptGroupMessage) (conversationId : ℤ) (seq : ℕ) : Message where
  senderId := op.senderId
  receiverId := op.groupId
  conversationId := conversationId
  conversationSeq := seq
  clientMessageId := some op.clientMessageId
  type := op.messageType
  content := op.content
  status := .WAIT
  sendDateTime := op.sendDateTime
  readDateTime := ""

/-- The row it stores for the command. -/
abbrev AcceptDirectText.stored (op : AcceptDirectText) (conversationId : ℤ) (seq : ℕ) : Message :=
  (op.message conversationId seq).stored

abbrev AcceptGroupMessage.stored (op : AcceptGroupMessage) (conversationId : ℤ) (seq : ℕ) : Message :=
  (op.message conversationId seq).stored

def MessageAcceptResult.failed (r : MessageAcceptResult) (e : String) : MessageAcceptResult :=
  { r with error := .MysqlFailed, diagnostic := e }

def GroupMessageAcceptResult.failed (r : GroupMessageAcceptResult) (e : String) :
    GroupMessageAcceptResult :=
  { r with error := .MysqlFailed, diagnostic := e }

/-- The error stays what it was, `MysqlFailed` by default. -/
def GroupOperationResult.failed (r : GroupOperationResult) (e : String) : GroupOperationResult :=
  { r with diagnostic := e }

namespace MysqlStore

/-- `catch (const std::exception& error)`: drop the connection and report the result so far. -/
def guarded {α : Type} (failed : String → α) (x : Operating α) : Operating α :=
  Sql.catching x fun e => do
    Sql.abort
    pure (failed e)

/-- `catch (...)`: drop the connection and throw on. -/
def rethrowing {α : Type} (x : Operating α) : Operating α :=
  Sql.catching x fun e => do
    Sql.abort
    Sql.throw e

/-! ### Friends -/

/-- The application is stored twice, once for each side, by two statements that commit alone. -/
def insertFriendApply (fromUid toUid : ℤ) (data : FriendApply) : Operating ℤ := do
  Sql.exec (SQL.insertFriendApply fromUid toUid data)
  Sql.exec (SQL.insertFriendApply toUid fromUid data)
  pure 0

def updateFriendApplyStatus (fromUid toUid : ℤ) (data : FriendApply) : Operating ℤ := do
  Sql.exec (SQL.updateFriendApply fromUid toUid data)
  Sql.exec (SQL.updateFriendApply toUid fromUid data)
  pure 0

def insertFriend (friendshipId conversationId uidA uidB : ℤ) (dateTime : String) : Operating ℤ := do
  let uid_a := min uidA uidB
  let uid_b := max uidA uidB
  Sql.start
  rethrowing do
    Sql.exec (SQL.insertFriend friendshipId ⟨uid_a, uid_b, dateTime⟩)
    Sql.exec (SQL.insertConversation conversationId .direct friendshipId dateTime)
    Sql.exec (SQL.insertUserStates conversationId [uid_a, uid_b])
    Sql.commit
    pure 0

def deleteFriend (uidA uidB : ℤ) : Operating ℤ := do
  Sql.exec (SQL.deleteFriend (min uidA uidB) (max uidA uidB))
  pure 0

/-- An empty list is reported as a null pointer. -/
def getFriendList (uid : ℤ) : Operating (Option (List FriendRecord)) := do
  let rows ← Sql.select (SQL.friendList uid)
  pure (if rows.isEmpty then none else some rows)

def getFriendApplyList (fromUid : ℤ) : Operating (Option (List ((ℤ × ℤ) × FriendApply))) := do
  let rows ← Sql.select (SQL.waitingApplys fromUid)
  pure (if rows.isEmpty then none else some rows)

/-! ### Users -/

def getUserInfo (uid : ℤ) : Operating (Option UserInfo) := Sql.select fun d => d.userInfo.get uid

/-- The four operations `update_user_info_*` differ in the column they set. -/
def updateUserInfo (uid : ℤ) (change : UserInfo → UserInfo) : Operating ℤ := do
  Sql.exec (SQL.updateUserInfo uid change)
  pure 0

def updateUserInfoName (uid : ℤ) (name : String) : Operating ℤ := updateUserInfo uid ({ · with name })

def updateUserInfoAge (uid age : ℤ) : Operating ℤ := updateUserInfo uid ({ · with age })

def updateUserInfoSex (uid : ℤ) (sex : String) : Operating ℤ := updateUserInfo uid ({ · with sex })

def updateUserInfoHeadImageUrl (uid : ℤ) (headImageURL : String) : Operating ℤ :=
  updateUserInfo uid ({ · with headImageURL })

/-! ### Messages -/

/-- The stored message is the one this command asks for: `same_command`. -/
def sameCommand (m : Message) (conversationId receiverId : ℤ) (type : MessageType)
    (content : String) : Bool :=
  decide (m.conversationId = conversationId ∧ m.receiverId = receiverId ∧ m.type = type ∧
    m.content = content)

def acceptDirectText (op : AcceptDirectText) : Operating MessageAcceptResult := do
  Sql.start
  guarded (.failed {}) do
    let friendRow ← Sql.select
      (SQL.friendConversation (min op.senderId op.receiverId) (max op.senderId op.receiverId))
    match friendRow with
    | none =>
      Sql.rollback
      pure { error := .UserNotFriend }
    | some conversationId =>
      let accepted : MessageAcceptResult := { conversationId }
      guarded accepted.failed do
        Sql.exec (SQL.insertIgnoreUserStates conversationId [op.senderId, op.receiverId])
        match ← Sql.exec (SQL.lockLatestSeq conversationId) with
        | none =>
          Sql.rollback
          pure { accepted with diagnostic := "conversation row missing after insert" }
        | some latestSeq =>
          match ← Sql.select (SQL.duplicateMessage op.senderId op.clientMessageId) with
          | some (messageId, m) =>
            if sameCommand m conversationId op.receiverId op.messageType op.content then
              let accepted := { accepted with
                messageId, conversationSeq := m.conversationSeq, duplicate := true, error := .Success }
              guarded accepted.failed do
                Sql.commit
                pure accepted
            else
              Sql.rollback
              pure { accepted with error := .IdempotencyConflict }
          | none =>
            let accepted := { accepted with conversationSeq := latestSeq + 1 }
            guarded accepted.failed do
              Sql.exec (SQL.updateLatestSeq (latestSeq + 1) conversationId)
              let messageId ← Sql.exec (SQL.insertMessage (op.message conversationId (latestSeq + 1)))
              let accepted := { accepted with messageId }
              guarded accepted.failed do
                Sql.commit
                pure { accepted with error := .Success }

def acceptGroupMessage (op : AcceptGroupMessage) : Operating GroupMessageAcceptResult := do
  let accepted : GroupMessageAcceptResult := { groupId := op.groupId }
  Sql.start
  guarded accepted.failed do
    match ← Sql.exec (SQL.lockGroupMember op.groupId op.senderId) with
    | none =>
      Sql.rollback
      pure { accepted with error := .MessageOwnershipInvalid }
    | some conversationId =>
      let accepted := { accepted with conversationId }
      guarded accepted.failed do
        if !(← fileReady op) then
          Sql.rollback
          pure { accepted with error := .NotFound }
        else
          match ← Sql.exec (SQL.lockLatestSeq conversationId) with
          | none =>
            Sql.rollback
            pure { accepted with diagnostic := "group conversation row missing after insert" }
          | some latestSeq =>
            match ← Sql.select (SQL.duplicateMessage op.senderId op.clientMessageId) with
            | some (messageId, m) =>
              if sameCommand m conversationId op.groupId op.messageType op.content then
                recipients op { accepted with
                  messageId, conversationSeq := m.conversationSeq, duplicate := true }
              else
                Sql.rollback
                pure { accepted with error := .IdempotencyConflict }
            | none =>
              let accepted := { accepted with conversationSeq := latestSeq + 1 }
              guarded accepted.failed do
                Sql.exec (SQL.updateLatestSeq (latestSeq + 1) conversationId)
                let messageId ← Sql.exec (SQL.insertMessage (op.message conversationId (latestSeq + 1)))
                recipients op { accepted with messageId }
where
  /-- The file of a file message must be ready and the sender's own. -/
  fileReady (op : AcceptGroupMessage) : Operating Bool :=
    if op.requireReadyOwnedFile then
      Sql.exec (SQL.lockReadyFile op.content op.senderId op.sendDateTime)
    else pure true
  /-- The end of both branches: read the other members and commit. -/
  recipients (op : AcceptGroupMessage) (accepted : GroupMessageAcceptResult) :
      Operating GroupMessageAcceptResult :=
    guarded accepted.failed do
      let recipientUids ← Sql.select (SQL.otherMemberUids op.groupId op.senderId)
      let accepted := { accepted with recipientUids }
      guarded accepted.failed do
        Sql.commit
        pure { accepted with error := .Success }

/-- `std::clamp(pull_count > 0 ? pull_count : 50, 1, 100)` -/
def boundedCount (pullCount : ℤ) : ℕ := (max 1 (min (if pullCount > 0 then pullCount else 50) 100)).toNat

/-- The loop over the rows of the history query: one row more than fits sets `hasMore`. -/
def collect (bound : ℕ) : List ConversationMessageRecord → ConversationSyncResult → ConversationSyncResult
  | [], sync => sync
  | row :: rows, sync =>
    if sync.messages.length ≥ bound then { sync with hasMore := true }
    else collect bound rows { sync with
      nextSeq := row.message.conversationSeq, messages := sync.messages ++ [row] }

/-- What the two SELECTs of a pull make together. -/
def syncPage (op : SyncConversation) (c : Conversation) (m : UserState)
    (rows : List ConversationMessageRecord) : ConversationSyncResult :=
  let sync : ConversationSyncResult := { latestSeq := c.latestSeq, conversationType := some c.type }
  let sync := collect (boundedCount op.pullCount) rows sync
  let sync := if sync.messages.isEmpty then
      { sync with nextSeq := max op.afterSeq ((m.joinedSeq : ℤ) - 1) } else sync
  { sync with error := .Success }

/-- The two SELECTs run outside a transaction, each on the current version. -/
def syncConversation (op : SyncConversation) : Operating ConversationSyncResult := do
  if op.uid ≤ 0 ∨ op.conversationId ≤ 0 ∨ op.afterSeq < 0 then
    pure { error := .JsonParser }
  else
    match ← Sql.select (SQL.membership op.conversationId op.uid) with
    | none => pure { error := .MessageOwnershipInvalid }
    | some (c, m) =>
      let effectiveAfter := max op.afterSeq ((m.joinedSeq : ℤ) - 1)
      let rows ← Sql.select (SQL.historyRows op.now op.conversationId effectiveAfter c.latestSeq
        (boundedCount op.pullCount + 1))
      pure (syncPage op c m rows)

def acknowledgeConversationMessage (op : AcknowledgeConversationMessage) :
    Operating ConversationAckResult := do
  if op.messageId ≤ 0 ∨ op.uid ≤ 0 ∨ op.deviceId = "" ∨ op.conversationId ≤ 0 ∨
      op.conversationSeq ≤ 0 then
    pure { updated := 0 }
  else
    Sql.start
    rethrowing do
      match ← Sql.exec (SQL.lockReceipt op.uid op.deviceId op.messageId op.conversationId
          op.conversationSeq) with
      | none =>
        Sql.rollback
        pure { updated := 0 }
      | some (conversationType, m) =>
        let directRecipient := decide (conversationType = .direct ∧ m.receiverId = op.uid)
        markReceived op directRecipient
        Sql.exec (SQL.updateUserState op.conversationSeq.toNat op.status op.uid op.conversationId)
        Sql.exec (SQL.upsertDeviceState op.conversationId op.deviceId op.conversationSeq.toNat)
        Sql.commit
        pure {
          updated := 1, senderUid := m.senderId,
          directConversation := decide (conversationType = .direct),
          readStateChanged := directRecipient && decide (op.status = .READ ∧ m.status.code < 3) }
where
  /-- Only the recipient of a direct message moves the message's own status. -/
  markReceived (op : AcknowledgeConversationMessage) (directRecipient : Bool) : Operating Unit :=
    if directRecipient then Sql.exec (SQL.updateReceipt op.status op.readDateTime op.messageId)
    else pure ()

/-! ### Files -/

/-- Both statements commit alone, so the lock of the first is gone when the second runs. -/
def upsertReadyFile (file : FileObject) : Operating ℤ := do
  let existing ← Sql.exec (SQL.lockFileOwner file.fileId)
  if existing.any (· ≠ file.ownerUid) then pure 1
  else
    Sql.exec (SQL.upsertFile file)
    pure 0

def findReadyFile (fileId : String) (ownerUid : ℤ) (now : String) : Operating (Option FileObject) :=
  Sql.select (SQL.readyFile fileId ownerUid now)

def findDownloadableFile (fileId : String) (uid : ℤ) (now : String) : Operating (Option FileObject) :=
  Sql.select (SQL.downloadableFile fileId uid now)

def saveFileUploadProgress (ownerUid : ℤ) (fileId : String) (row : FileUpload) : Operating ℤ := do
  Sql.exec (SQL.upsertFileUpload ownerUid fileId row)
  pure 0

/-! ### Groups -/

def createGroup (groupId : ℤ) (group : GroupInfo) : Operating GroupOperationResult := do
  let result : GroupOperationResult := {
    groupId, conversationId := group.conversationId, masterUid := group.masterUid,
    targetUid := group.masterUid, groupName := group.name }
  Sql.start
  guarded result.failed do
    Sql.exec (SQL.insertGroup groupId group)
    Sql.exec (SQL.insertConversation group.conversationId .group groupId group.createTime)
    Sql.exec (SQL.insertMember groupId group.masterUid group.createTime)
    Sql.exec (SQL.insertUserStates group.conversationId [group.masterUid])
    Sql.commit
    pure { result with error := .Success }

def requestGroupJoin (groupId uid : ℤ) (message now : String) : Operating GroupOperationResult := do
  let result : GroupOperationResult := { groupId, targetUid := uid, actorUid := uid }
  Sql.start
  guarded result.failed do
    match ← Sql.exec (SQL.lockGroup groupId) with
    | none =>
      Sql.rollback
      pure { result with error := .GroupNotExists }
    | some group =>
      let result := { result with masterUid := group.masterUid, groupName := group.name }
      guarded result.failed do
        if ← Sql.select (SQL.isMember groupId uid) then
          Sql.rollback
          pure { result with error := .GroupAlreadyExists }
        else
          let affected ← Sql.exec (SQL.insertIgnoreGroupApply groupId uid ⟨message, now⟩)
          let result := if affected > 0 then { result with recipientUids := [result.masterUid] }
            else result
          guarded result.failed do
            Sql.commit
            pure { result with error := .Success }

def replyGroupJoin (groupId actorUid requestorUid : ℤ) (accept : Bool) (now : String) :
    Operating GroupOperationResult := do
  let result : GroupOperationResult := { groupId, actorUid, targetUid := requestorUid }
  Sql.start
  guarded result.failed do
    match ← Sql.exec (SQL.lockGroup groupId) with
    | none =>
      Sql.rollback
      pure { result with error := .GroupNotExists }
    | some group =>
      let result := { result with
        masterUid := group.masterUid, conversationId := group.conversationId, groupName := group.name }
      guarded result.failed do
        if result.masterUid ≠ actorUid then
          Sql.rollback
          pure { result with error := .MessageOwnershipInvalid }
        else if !(← Sql.exec (SQL.lockGroupApply groupId requestorUid)) then
          Sql.rollback
          pure { result with error := .NotFound }
        else
          Sql.exec (SQL.deleteGroupApply groupId requestorUid)
          if accept then
            Sql.exec (SQL.insertMember groupId requestorUid now)
            Sql.exec (SQL.insertUserStateFromNow requestorUid result.conversationId)
            let result := { result with targetJoinTime := now }
            guarded result.failed do
              let recipientUids ← Sql.select (SQL.memberUids groupId)
              finish { result with recipientUids }
          else
            finish { result with recipientUids := [requestorUid] }
where
  /-- COMMIT, and the end of every successful group operation. -/
  finish (result : GroupOperationResult) : Operating GroupOperationResult :=
    guarded result.failed do
      Sql.commit
      pure { result with error := .Success }

/-- The two checks that follow each other exclude the same actors, as in the source. -/
def removeGroupMember (groupId actorUid targetUid : ℤ) (dissolveIfMaster : Bool) :
    Operating GroupOperationResult := do
  let result : GroupOperationResult := { groupId, actorUid, targetUid }
  Sql.start
  guarded result.failed do
    match ← Sql.exec (SQL.lockGroup groupId) with
    | none =>
      Sql.rollback
      pure { result with error := .GroupNotExists }
    | some group =>
      let result := { result with
        masterUid := group.masterUid, conversationId := group.conversationId, groupName := group.name }
      guarded result.failed do
        if actorUid ≠ result.masterUid ∧ actorUid ≠ targetUid then
          Sql.rollback
          pure { result with error := .MessageOwnershipInvalid }
        else if actorUid ≠ result.masterUid ∧ targetUid ≠ actorUid then
          Sql.rollback
          pure { result with error := .MessageOwnershipInvalid }
        else if !(← Sql.exec (SQL.lockMember groupId targetUid)) then
          Sql.rollback
          pure { result with error := .NotFound }
        else
          let recipientUids ← Sql.select (SQL.memberUids groupId)
          let result := { result with recipientUids }
          guarded result.failed do
            deleteRows groupId targetUid result.conversationId
              (decide (targetUid = result.masterUid ∧ dissolveIfMaster))
            Sql.commit
            pure { result with error := .Success }
where
  /-- The master takes the whole group along when `dissolve_if_master` is set. -/
  deleteRows (groupId targetUid conversationId : ℤ) (dissolve : Bool) : Operating Unit :=
    if dissolve then do
      Sql.exec (SQL.deleteUserStates conversationId)
      Sql.exec (SQL.deleteGroupApplys groupId)
      Sql.exec (SQL.deleteMembers groupId)
      Sql.exec (SQL.deleteGroup groupId)
    else do
      Sql.exec (SQL.deleteUserState conversationId targetUid)
      Sql.exec (SQL.deleteMember groupId targetUid)

/-- Plain reads outside a transaction; an exception keeps the connection. -/
def pullGroup (groupId uid : ℤ) : Operating GroupOperationResult :=
  let result : GroupOperationResult := { groupId, actorUid := uid }
  caught result do
    match ← Sql.select fun d => d.groupInfo.get groupId with
    | none => pure { result with error := .GroupNotExists }
    | some group =>
      let result := { result with
        masterUid := group.masterUid, conversationId := group.conversationId, groupName := group.name }
      caught result do
        if !(← Sql.select (SQL.isMember groupId uid)) then
          pure { result with error := .MessageOwnershipInvalid }
        else
          let members ← Sql.select (SQL.memberRows groupId)
          let result := { result with members }
          caught result do
            if uid = result.masterUid then
              let applies ← Sql.select (SQL.applyRows groupId)
              pure { result with applies, error := .Success }
            else
              pure { result with error := .Success }
where
  caught (result : GroupOperationResult) (x : Operating GroupOperationResult) :
      Operating GroupOperationResult :=
    Sql.catching x fun e => pure (result.failed e)

end MysqlStore

/-! ### The operation queue's view -/

/-- `mysql_operations` -/
inductive Operation where
  | getUserInfo (uid : ℤ)
  | getFriendList (uid : ℤ)
  | insertFriendApply (fromUid toUid : ℤ) (data : FriendApply)
  | updateFriendApplyStatus (fromUid toUid : ℤ) (data : FriendApply)
  | insertFriend (friendshipId conversationId uidA uidB : ℤ) (dateTime : String)
  | deleteFriend (uidA uidB : ℤ)
  | acceptDirectText (op : AcceptDirectText)
  | acceptGroupMessage (op : AcceptGroupMessage)
  | syncConversation (op : SyncConversation)
  | acknowledgeConversationMessage (op : AcknowledgeConversationMessage)
  | upsertReadyFile (file : FileObject)
  | saveFileUploadProgress (ownerUid : ℤ) (fileId : String) (row : FileUpload)
  | findDownloadableFile (fileId : String) (uid : ℤ) (now : String)
  | findReadyFile (fileId : String) (ownerUid : ℤ) (now : String)
  | getFriendApplyList (fromUid : ℤ)
  | createGroup (groupId : ℤ) (group : GroupInfo)
  | requestGroupJoin (groupId uid : ℤ) (message now : String)
  | replyGroupJoin (groupId actorUid requestorUid : ℤ) (accept : Bool) (now : String)
  | removeGroupMember (groupId actorUid targetUid : ℤ) (dissolveIfMaster : Bool)
  | pullGroup (groupId uid : ℤ)
  | updateUserInfoName (uid : ℤ) (name : String)
  | updateUserInfoAge (uid age : ℤ)
  | updateUserInfoSex (uid : ℤ) (sex : String)
  | updateUserInfoHeadImageUrl (uid : ℤ) (headImageURL : String)

inductive Reply where
  | status (n : ℤ)
  | accepted (r : MessageAcceptResult)
  | groupAccepted (r : GroupMessageAcceptResult)
  | synced (r : ConversationSyncResult)
  | acknowledged (r : ConversationAckResult)
  | file (r : Option FileObject)
  | group (r : GroupOperationResult)
  | user (r : Option UserInfo)
  | friendList (r : Option (List FriendRecord))
  | applyList (r : Option (List ((ℤ × ℤ) × FriendApply)))
  | thrown (e : String)

/-- `driver::execute`: a thrown exception also costs the connection. -/
def Driver.execute {α : Type} (x : Operating α) : Operating α := MysqlStore.rethrowing x

def replying {α : Type} (reply : α → Reply) (x : Operating α) : Prog Db Key Write Reply :=
  Sql.outcome (Driver.execute x) fun
    | .ok a => reply a
    | .error e => .thrown e

/-- `mysql_store::execute`, one overload for each operation -/
def MysqlStore.execute : Operation → Prog Db Key Write Reply
  | .getUserInfo u => replying .user (getUserInfo u)
  | .getFriendList u => replying .friendList (getFriendList u)
  | .insertFriendApply a b data => replying .status (insertFriendApply a b data)
  | .updateFriendApplyStatus a b data => replying .status (updateFriendApplyStatus a b data)
  | .insertFriend f c a b time => replying .status (insertFriend f c a b time)
  | .deleteFriend a b => replying .status (deleteFriend a b)
  | .acceptDirectText op => replying .accepted (acceptDirectText op)
  | .acceptGroupMessage op => replying .groupAccepted (acceptGroupMessage op)
  | .syncConversation op => replying .synced (syncConversation op)
  | .acknowledgeConversationMessage op => replying .acknowledged (acknowledgeConversationMessage op)
  | .upsertReadyFile file => replying .status (upsertReadyFile file)
  | .saveFileUploadProgress u fileId row => replying .status (saveFileUploadProgress u fileId row)
  | .findDownloadableFile fileId u now => replying .file (findDownloadableFile fileId u now)
  | .getFriendApplyList u => replying .applyList (getFriendApplyList u)
  | .findReadyFile fileId owner now => replying .file (findReadyFile fileId owner now)
  | .createGroup g group => replying .group (createGroup g group)
  | .requestGroupJoin g u message now => replying .group (requestGroupJoin g u message now)
  | .replyGroupJoin g a u accept now => replying .group (replyGroupJoin g a u accept now)
  | .removeGroupMember g a u dissolve => replying .group (removeGroupMember g a u dissolve)
  | .pullGroup g u => replying .group (pullGroup g u)
  | .updateUserInfoName u name => replying .status (updateUserInfoName u name)
  | .updateUserInfoAge u age => replying .status (updateUserInfoAge u age)
  | .updateUserInfoSex u sex => replying .status (updateUserInfoSex u sex)
  | .updateUserInfoHeadImageUrl u url => replying .status (updateUserInfoHeadImageUrl u url)

/-- The store with its sessions, each running one operation. -/
abbrev Store := Sys Db Key Write Reply Operation

end Imm
