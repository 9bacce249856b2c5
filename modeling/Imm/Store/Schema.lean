import Imm.Schemes.Rules
import Imm.Schemes.Table

/-! The message database: the tables of `init_message_mysql_test.sql` that the message service reads
    or writes, their primary and unique keys, and the row writes its statements make.

    Text keys (`fileId`, `deviceId`, `clientMessageId`) are compared with the collation of the
    schema, `utf8mb4_unicode_ci`: two texts with the same weight are the same key. The weights are a
    parameter of the development. -/

namespace Imm

open Txn Table

/-- The comparison weight of the schema's collation, which is PAD SPACE. -/
class Collation where
  weight : String → String
  pad : ∀ s, weight (s.push ' ') = weight s

export Collation (weight)

/-- Strings are compared byte by byte, up to the spaces at their end. -/
abbrev Collation.binary : Collation where
  weight s :=
    if s.toList.getLast? = some ' ' then String.ofList (s.toList.reverse.dropWhile (· = ' ')).reverse else s
  pad s := by
    by_cases h : s.toList.getLast? = some ' '
    · simp [h]
    · have hrest : s.toList.reverse.dropWhile (· = ' ') = s.toList.reverse := by
        rw [← List.head?_reverse] at h
        cases hs : s.toList.reverse <;> simp_all
      simp [h, hrest]

/-- `utf8mb4_unicode_ci` on ASCII texts: letters compare without case, spaces at the end are ignored. -/
abbrev Collation.ascii : Collation where
  weight s := String.ofList (((s.toList.map .toLower).reverse.dropWhile (· = ' ')).reverse)
  pad s := by simp

inductive ErrorCodes where
  | Success | JsonParser | ProtobufPacket | RPCFailed | VerificationExpired | VerificationCodeInvalid
  | UserExist | PasswdErr | EmailNotMatch | PasswdUpFailed | PasswdInvalid | TokenInvalid | UidInvalid
  | UserNotOnline | UserNotFriend | UserOnline | UserOffline | NotFound | RepeatMessage | MysqlFailed
  | FileTypeError | InternalError | GroupAlreadyExists | GroupNotExists | GroupNotifyFailed
  | GroupReplyFailed | AuthenticationRequired | MessageOwnershipInvalid | ResourceExhausted
  | DependencyUnavailable | IdempotencyConflict
  deriving DecidableEq

/-! ### Rows -/

/-- `friendApplys.status` -/
inductive ApplyStatus where | Wait | Agree | Refuse
  deriving DecidableEq

/-- `conversations.type` -/
inductive ConversationType where | direct | group
  deriving DecidableEq

/-- `messages.type` -/
inductive MessageType where | TEXT | IMAGE | AUDIO | VIDEO | FILE
  deriving DecidableEq

/-- `messages.status`; the database advances it with GREATEST. -/
inductive MessageStatus where | WITHDRAW | WAIT | DELIVERED | READ
  deriving DecidableEq

def MessageStatus.code : MessageStatus → ℕ
  | .WITHDRAW => 0
  | .WAIT => 1
  | .DELIVERED => 2
  | .READ => 3

def MessageStatus.greatest (a b : MessageStatus) : MessageStatus := if a.code < b.code then b else a

structure FriendApply where
  content : String
  status : ApplyStatus
  createTime : String
  deriving DecidableEq

structure Friend where
  uidA : ℤ
  uidB : ℤ
  createTime : String
  deriving DecidableEq

structure Conversation where
  type : ConversationType
  businessId : ℤ
  latestSeq : ℕ
  createTime : String
  deriving DecidableEq

structure UserState where
  joinedSeq : ℕ
  deliveredSeq : ℕ := 0
  readSeq : ℕ := 0
  deriving DecidableEq

structure Message where
  senderId : ℤ
  receiverId : ℤ
  conversationId : ℤ
  conversationSeq : ℕ
  clientMessageId : Option String
  type : MessageType
  content : String
  status : MessageStatus
  sendDateTime : String
  readDateTime : String
  deriving DecidableEq

structure GroupInfo where
  masterUid : ℤ
  name : String
  conversationId : ℤ
  createTime : String
  deriving DecidableEq

structure GroupApply where
  message : String
  createTime : String
  deriving DecidableEq

structure FileObject where
  fileId : String
  ownerUid : ℤ
  fileName : String
  fileType : String
  fileSize : ℤ
  sha256 : String
  state : ℕ
  createdTime : String
  expiresTime : String
  deriving DecidableEq

structure FileUpload where
  nextOffset : ℤ
  complete : Bool
  updateTime : String
  deriving DecidableEq

structure UserInfo where
  name : String
  age : ℤ
  sex : String
  headImageURL : String
  deriving DecidableEq

/-! ### The database -/

structure Db where
  friendApplys : Table (ℤ × ℤ) FriendApply := ∅
  friends : Table ℤ Friend := ∅
  conversations : Table ℤ Conversation := ∅
  conversationUserStates : Table (ℤ × ℤ) UserState := ∅
  messages : Table ℤ Message := ∅
  groupInfo : Table ℤ GroupInfo := ∅
  /-- the join time of each member -/
  groupMembers : Table (ℤ × ℤ) String := ∅
  groupApplys : Table (ℤ × ℤ) GroupApply := ∅
  fileObjects : Table String FileObject := ∅
  fileUploads : Table (ℤ × String) FileUpload := ∅
  /-- the owner of each device -/
  devices : Table String ℤ := ∅
  /-- the persisted sequence of each device -/
  conversationDeviceStates : Table (ℤ × String) ℕ := ∅
  userInfo : Table ℤ UserInfo := ∅

/-- What a row lock is on: a primary key, or a value of a unique key. -/
inductive Key where
  | friendApply (fromUid toUid : ℤ)
  | friend (friendshipId : ℤ)
  | friendPair (uidA uidB : ℤ)
  | conversation (conversationId : ℤ)
  | conversationBusiness (type : ConversationType) (businessId : ℤ)
  | userState (conversationId uid : ℤ)
  | message (messageId : ℤ)
  | messageSeq (conversationId : ℤ) (conversationSeq : ℕ)
  | messageClient (senderId : ℤ) (weight : String)
  | group (groupId : ℤ)
  | groupConversation (conversationId : ℤ)
  | member (groupId uid : ℤ)
  | groupApply (groupId requestorUid : ℤ)
  | file (weight : String)
  | fileUpload (ownerUid : ℤ) (weight : String)
  | device (weight : String)
  | deviceState (conversationId : ℤ) (weight : String)
  | userInfo (uid : ℤ)
  deriving DecidableEq

/-- A row write: the new content of the row of one primary key, or its removal. -/
inductive Write where
  | friendApplys (key : ℤ × ℤ) (row : Option FriendApply)
  | friends (key : ℤ) (row : Option Friend)
  | conversations (key : ℤ) (row : Option Conversation)
  | conversationUserStates (key : ℤ × ℤ) (row : Option UserState)
  | messages (key : ℤ) (row : Option Message)
  | groupInfo (key : ℤ) (row : Option GroupInfo)
  | groupMembers (key : ℤ × ℤ) (row : Option String)
  | groupApplys (key : ℤ × ℤ) (row : Option GroupApply)
  | fileObjects (key : String) (row : Option FileObject)
  | fileUploads (key : ℤ × String) (row : Option FileUpload)
  | conversationDeviceStates (key : ℤ × String) (row : Option ℕ)
  | userInfo (key : ℤ) (row : Option UserInfo)
  deriving DecidableEq

variable [Collation]

def Message.clientKey (m : Message) : Option (ℤ × String) :=
  m.clientMessageId.map fun c => (m.senderId, weight c)

@[simp] def Write.apply (d : Db) : Write → Db
  | .friendApplys k r => { d with friendApplys := d.friendApplys.set k r }
  | .friends k r => { d with friends := d.friends.set k r }
  | .conversations k r => { d with conversations := d.conversations.set k r }
  | .conversationUserStates k r =>
    { d with conversationUserStates := d.conversationUserStates.set k r }
  | .messages k r => { d with messages := d.messages.set k r }
  | .groupInfo k r => { d with groupInfo := d.groupInfo.set k r }
  | .groupMembers k r => { d with groupMembers := d.groupMembers.set k r }
  | .groupApplys k r => { d with groupApplys := d.groupApplys.set k r }
  | .fileObjects k r => { d with fileObjects := d.fileObjects.set k r }
  | .fileUploads k r => { d with fileUploads := d.fileUploads.set k r }
  | .conversationDeviceStates k r =>
    { d with conversationDeviceStates := d.conversationDeviceStates.set k r }
  | .userInfo k r => { d with userInfo := d.userInfo.set k r }

/-- The primary key of the row and the unique keys of its new content. -/
@[simp] def Write.touches : Write → List Key
  | .friendApplys k _ => [.friendApply k.1 k.2]
  | .friends k r => .friend k :: (r.map fun r => .friendPair r.uidA r.uidB).toList
  | .conversations k r =>
    .conversation k :: (r.map fun r => .conversationBusiness r.type r.businessId).toList
  | .conversationUserStates k _ => [.userState k.1 k.2]
  | .messages k r => .message k :: ((r.map fun r => .messageSeq r.conversationId r.conversationSeq).toList ++
      ((r.bind Message.clientKey).map fun c => Key.messageClient c.1 c.2).toList)
  | .groupInfo k r => .group k :: (r.map fun r => .groupConversation r.conversationId).toList
  | .groupMembers k _ => [.member k.1 k.2]
  | .groupApplys k _ => [.groupApply k.1 k.2]
  | .fileObjects k _ => [.file k]
  | .fileUploads k _ => [.fileUpload k.1 k.2]
  | .conversationDeviceStates k _ => [.deviceState k.1 k.2]
  | .userInfo k _ => [.userInfo k]

instance : Rows Db Key Write where
  apply w d := w.apply d
  touches := Write.touches

@[simp] theorem rows_apply (w : Write) (d : Db) : Rows.apply w d = w.apply d := rfl

@[simp] theorem rows_touches (w : Write) : Rows.touches Db w = w.touches := rfl

/-! ### Frames: a write that does not touch a key leaves its row alone -/

section frames

/-- A part of the rows that only writes under the key `k` change. -/
def Guarded {α : Type} (k : Key) (part : Db → α) : Prop :=
  ∀ ⦃w : Write⦄ ⦃d : Db⦄, k ∉ w.touches → part (w.apply d) = part d

variable {w : Write} {d : Db}

theorem friendApplys_frame {k : ℤ × ℤ} : Guarded (.friendApply k.1 k.2) (·.friendApplys.get k) := by
  intro w d h
  cases w with
  | friendApplys k' r => exact get_set_ne _ r fun e => h (by simp [Write.touches, e])
  | _ => rfl

theorem friends_frame {k : ℤ} : Guarded (.friend k) (·.friends.get k) := by
  intro w d h
  cases w with
  | friends k' r => exact get_set_ne _ r fun e => h (by simp [Write.touches, e])
  | _ => rfl

theorem conversations_frame {k : ℤ} : Guarded (.conversation k) (·.conversations.get k) := by
  intro w d h
  cases w with
  | conversations k' r => exact get_set_ne _ r fun e => h (by simp [Write.touches, e])
  | _ => rfl

theorem userStates_frame {k : ℤ × ℤ} : Guarded (.userState k.1 k.2) (·.conversationUserStates.get k) := by
  intro w d h
  cases w with
  | conversationUserStates k' r => exact get_set_ne _ r fun e => h (by simp [Write.touches, e])
  | _ => rfl

theorem messages_frame {k : ℤ} : Guarded (.message k) (·.messages.get k) := by
  intro w d h
  cases w with
  | messages k' r => exact get_set_ne _ r fun e => h (by simp [Write.touches, e])
  | _ => rfl

theorem groupInfo_frame {k : ℤ} : Guarded (.group k) (·.groupInfo.get k) := by
  intro w d h
  cases w with
  | groupInfo k' r => exact get_set_ne _ r fun e => h (by simp [Write.touches, e])
  | _ => rfl

theorem groupMembers_frame {k : ℤ × ℤ} : Guarded (.member k.1 k.2) (·.groupMembers.get k) := by
  intro w d h
  cases w with
  | groupMembers k' r => exact get_set_ne _ r fun e => h (by simp [Write.touches, e])
  | _ => rfl

theorem groupApplys_frame {k : ℤ × ℤ} : Guarded (.groupApply k.1 k.2) (·.groupApplys.get k) := by
  intro w d h
  cases w with
  | groupApplys k' r => exact get_set_ne _ r fun e => h (by simp [Write.touches, e])
  | _ => rfl

theorem fileObjects_frame {k : String} : Guarded (.file k) (·.fileObjects.get k) := by
  intro w d h
  cases w with
  | fileObjects k' r => exact get_set_ne _ r fun e => h (by simp [Write.touches, e])
  | _ => rfl

theorem deviceStates_frame {k : ℤ × String} : Guarded (.deviceState k.1 k.2) (·.conversationDeviceStates.get k) := by
  intro w d h
  cases w with
  | conversationDeviceStates k' r => exact get_set_ne _ r fun e => h (by simp [Write.touches, e])
  | _ => rfl

/-- No conversation of this type belongs to the business object. -/
def Db.NoConversation (d : Db) (type : ConversationType) (businessId : ℤ) : Prop :=
  ∀ c r, d.conversations.get c = some r → ¬ (r.type = type ∧ r.businessId = businessId)

theorem noConversation_frame {type : ConversationType} {b : ℤ}
    (h : Key.conversationBusiness type b ∉ w.touches) (hd : d.NoConversation type b) :
    (w.apply d).NoConversation type b := by
  cases w with
  | conversations k' r =>
    intro c row hc
    simp only [Write.apply, get_set] at hc
    split at hc
    · subst hc
      rintro ⟨rfl, rfl⟩
      exact h (by simp [Write.touches])
    · exact hd c row hc
  | _ => exact hd

/-- There is no friendship between the two. -/
def Db.Strangers (d : Db) (uidA uidB : ℤ) : Prop :=
  ∀ f r, d.friends.get f = some r → ¬ (r.uidA = uidA ∧ r.uidB = uidB)

theorem strangers_frame {a b : ℤ} (h : Key.friendPair a b ∉ w.touches) (hd : d.Strangers a b) :
    (w.apply d).Strangers a b := by
  cases w with
  | friends k' r =>
    intro f row hf
    simp only [Write.apply, get_set] at hf
    split at hf
    · subst hf
      rintro ⟨rfl, rfl⟩
      exact h (by simp [Write.touches])
    · exact hd f row hf
  | _ => exact hd

/-- No message was stored under this idempotency key. -/
def Db.NoClientMessage (d : Db) (key : ℤ × String) : Prop :=
  ∀ m r, d.messages.get m = some r → r.clientKey ≠ some key

theorem noClientMessage_frame {key : ℤ × String} (h : Key.messageClient key.1 key.2 ∉ w.touches)
    (hd : d.NoClientMessage key) : (w.apply d).NoClientMessage key := by
  cases w with
  | messages k' r =>
    intro m row hm
    simp only [Write.apply, get_set] at hm
    split at hm
    · subst hm
      exact fun e => h (by simp [Write.touches, e])
    · exact hd m row hm
  | _ => exact hd

end frames

end Imm
