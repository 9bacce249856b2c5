import Imm.Store.Operations

/-! What the operations commit. A deed is the committed transaction of an operation, described on the
    version it was committed on: the rows it found there and the rows it wrote. Rows that were locked
    when they were read are still as they were read; what was read without a row lock is known of an
    older version only (`Since`, under a lock held from then on, or `Before`). -/

namespace Imm

open Txn SQL MysqlStore

variable [Collation]

abbrev Versions := List (Version Db Key)

/-- `d` was a version at or before `t`. -/
def Before (V : Versions) (t : ℕ) (d : Db) : Prop := ∃ j v, j ≤ t ∧ V[j]? = some v ∧ v.db = d

/-- `d` was a version from which on, up to `t`, no lock in conflict with `l` was used to write. -/
def Since (V : Versions) (l : Lock Key) (t : ℕ) (d : Db) : Prop :=
  ∃ j v, j ≤ t ∧ V[j]? = some v ∧ v.db = d ∧ Quiet V l j t

/-- The row of a participant who sees the conversation from its first message on. -/
def joinedAtOne (conversationId uid : ℤ) : Write :=
  .conversationUserStates (conversationId, uid) (some { joinedSeq := 1 })

/-- The rows INSERT IGNORE adds: participants that had no row in `d`. -/
def Joins (d : Db) (conversationId : ℤ) (ws : List Write) : Prop :=
  ∀ w ∈ ws, ∃ u, w = joinedAtOne conversationId u ∧
    d.conversationUserStates.get (conversationId, u) = none

/-- A whole group goes: its participants `ss`, applications `as`, members `ms` and its row. -/
def dissolved (g : ℤ) (ss as ms : List (ℤ × ℤ)) : List Write :=
  ss.map (.conversationUserStates · none) ++ as.map (.groupApplys · none) ++
    ms.map (.groupMembers · none) ++ [.groupInfo g none]

/-! ### At the commit -/

section landing

@[simp] theorem touched {α : Type} (e : Effect Key Write α) (l : Lock Key) :
    l ∈ e.locks Db ↔ l ∈ e.reads ∨ ∃ w ∈ e.writes, ∃ k ∈ w.touches, l = exclusive k := by
  simp only [Effect.locks, List.mem_append, List.mem_map, List.mem_flatMap]
  refine or_congr_right ⟨?_, ?_⟩
  · rintro ⟨k, ⟨w, hw, hk⟩, rfl⟩
    exact ⟨w, hw, k, hk, rfl⟩
  · rintro ⟨w, hw, k, hk, rfl⟩
    exact ⟨k, ⟨w, hw, hk⟩, rfl⟩

variable {V : Versions} {t g : ℕ} {y : Tx Key Write} {u v : Version Db Key} {m : Mode}

variable {j : ℕ} {w : Version Db Key}

section guarded

variable {α : Type} {k : Key} {part : Db → α}

theorem Guarded.between (hpart : Guarded k part) (h : Landing V t y v) (hheld : (⟨k, m⟩, g) ∈ y.held)
    (hu : V[g]? = some u) (hgj : g ≤ j) (hjt : j ≤ t) (hw : V[j]? = some w) : part w.db = part u.db :=
  h.between (P := fun d => part d = part u.db) hheld hu hgj hjt hw (fun _ _ hw hd => (hpart hw).trans hd) rfl

theorem Guarded.kept (hpart : Guarded k part) (h : Landing V t y v) (hheld : (⟨k, m⟩, g) ∈ y.held)
    (hu : V[g]? = some u) : part v.db = part u.db :=
  h.kept (P := fun d => part d = part u.db) hheld hu (fun _ _ hw hd => (hpart hw).trans hd) rfl

end guarded

theorem noConversation_kept {type : ConversationType} {b : ℤ} (h : Landing V t y v)
    (hheld : (⟨.conversationBusiness type b, m⟩, g) ∈ y.held) (hu : V[g]? = some u)
    (hno : u.db.NoConversation type b) : v.db.NoConversation type b :=
  h.kept (P := (·.NoConversation type b)) hheld hu (fun _ _ hw hd => noConversation_frame hw hd) hno

theorem strangers_kept {a b : ℤ} (h : Landing V t y v) (hheld : (⟨.friendPair a b, m⟩, g) ∈ y.held)
    (hu : V[g]? = some u) (hno : u.db.Strangers a b) : v.db.Strangers a b :=
  h.kept (P := (·.Strangers a b)) hheld hu (fun _ _ hw hd => strangers_frame hw hd) hno

theorem noClientMessage_kept {key : ℤ × String} (h : Landing V t y v)
    (hheld : (⟨.messageClient key.1 key.2, m⟩, g) ∈ y.held) (hu : V[g]? = some u)
    (hno : u.db.NoClientMessage key) : v.db.NoClientMessage key :=
  h.kept (P := (·.NoClientMessage key)) hheld hu (fun _ _ hw hd => noClientMessage_frame hw hd) hno

end landing

/-- What a receipt finds and records: the message and its conversation, the recipient's mark on the message
    (of a direct message only) and the position of the device. -/
structure Acknowledges (d : Db) (op : AcknowledgeConversationMessage) (m : Message) (receipt : List Write)
    (persisted : ℕ) : Prop where
  conversationId : m.conversationId = op.conversationId
  conversationSeq : (m.conversationSeq : ℤ) = op.conversationSeq
  receipt : ∃ conv, d.conversations.get op.conversationId = some conv ∧
    receipt = if conv.type = .direct ∧ m.receiverId = op.uid then
      [.messages op.messageId (some (m.receive op.status op.readDateTime))] else []
  persisted : persisted = max
    ((d.conversationDeviceStates.get (op.conversationId, weight op.deviceId)).getD 0)
    op.conversationSeq.toNat

/-- `Deed V t d ls o ws`: with the locks `ls`, operation `o` committed the writes `ws` on version `t`,
    whose rows are `d`. -/
inductive Deed (V : Versions) (t : ℕ) (d : Db) (ls : List (Lock Key)) : Operation → List Write → Prop
  /-- a commit without writes -/
  | idle (o : Operation) : Deed V t d ls o []
  | apply {a b : ℤ} {data : FriendApply} {k : ℤ × ℤ} (hk : k = (a, b) ∨ k = (b, a))
      (hnew : d.friendApplys.get k = none) :
      Deed V t d ls (.insertFriendApply a b data) [.friendApplys k (some data.stored)]
  | answer {a b : ℤ} {data old : FriendApply} {k : ℤ × ℤ} (hk : k = (a, b) ∨ k = (b, a))
      (hold : d.friendApplys.get k = some old) :
      Deed V t d ls (.updateFriendApplyStatus a b data) [.friendApplys k (some data.stored)]
  | befriend {f c a b : ℤ} {time : String} (hfriend : d.friends.get f = none)
      (hconv : d.conversations.get c = none) (hfree : d.NoConversation .direct f)
      (hjoins : Joins d c [joinedAtOne c (min a b), joinedAtOne c (max a b)])
      (hpair : d.Strangers (min a b) (max a b)) :
      Deed V t d ls (.insertFriend f c a b time)
        [.friends f (some ⟨min a b, max a b, time⟩), .conversations c (some ⟨.direct, f, 0, time⟩),
          joinedAtOne c (min a b), joinedAtOne c (max a b)]
  | unfriend {a b : ℤ} {ids : List ℤ} :
      Deed V t d ls (.deleteFriend a b) (ids.map (.friends · none))
  | sendDirect {op : AcceptDirectText} {c m : ℤ} {conv : Conversation} {joins : List Write} {d' : Db}
      (hbefore : Before V t d')
      (hfriends : SQL.friendConversation (min op.senderId op.receiverId)
        (max op.senderId op.receiverId) d' = some c)
      (hjoins : Joins d c joins) (hconv : d.conversations.get c = some conv)
      (hid : d.messages.get m = none)
      (hkey : d.NoClientMessage (op.senderId, weight op.clientMessageId)) :
      Deed V t d ls (.acceptDirectText op) (joins ++
        [.conversations c (some { conv with latestSeq := conv.latestSeq + 1 }),
          .messages m (some (op.stored c (conv.latestSeq + 1)))])
  | joinDirect {op : AcceptDirectText} {c : ℤ} {joins : List Write} {d' : Db}
      (hbefore : Before V t d')
      (hfriends : SQL.friendConversation (min op.senderId op.receiverId)
        (max op.senderId op.receiverId) d' = some c)
      (hjoins : Joins d c joins) : Deed V t d ls (.acceptDirectText op) joins
  | sendGroup {op : AcceptGroupMessage} {m : ℤ} {gi : GroupInfo} {conv : Conversation}
      (hlock : exclusive (.group op.groupId) ∈ ls) (hgroup : d.groupInfo.get op.groupId = some gi)
      (hmember : (d.groupMembers.get (op.groupId, op.senderId)).isSome)
      (hconv : d.conversations.get gi.conversationId = some conv) (hid : d.messages.get m = none)
      (hkey : d.NoClientMessage (op.senderId, weight op.clientMessageId)) :
      Deed V t d ls (.acceptGroupMessage op)
        [.conversations gi.conversationId (some { conv with latestSeq := conv.latestSeq + 1 }),
          .messages m (some (op.stored gi.conversationId (conv.latestSeq + 1)))]
  | receive {op : AcknowledgeConversationMessage} {m : Message} {st : UserState}
      {receipt : List Write} {persisted : ℕ} (hmessage : d.messages.get op.messageId = some m)
      (hack : Acknowledges d op m receipt persisted)
      (hreceipt : receipt = [] ∨
        receipt = [.messages op.messageId (some (m.receive op.status op.readDateTime))])
      (hstate : d.conversationUserStates.get (op.conversationId, op.uid) = some st) :
      Deed V t d ls (.acknowledgeConversationMessage op) (receipt ++
        [.conversationUserStates (op.conversationId, op.uid)
            (some (st.advance op.conversationSeq.toNat op.status)),
          .conversationDeviceStates (op.conversationId, weight op.deviceId)
            (some persisted)])
  | upload {file : FileObject} (hnew : d.fileObjects.get (weight file.fileId) = none) :
      Deed V t d ls (.upsertReadyFile file)
        [.fileObjects (weight file.fileId) (some { file.stored with state := 1 })]
  | reupload {file old : FileObject} (hold : d.fileObjects.get (weight file.fileId) = some old) :
      Deed V t d ls (.upsertReadyFile file)
        [.fileObjects (weight file.fileId) (some { file.stored with
          fileId := old.fileId, ownerUid := old.ownerUid, createdTime := old.createdTime, state := 1 })]
  | progress {u : ℤ} {fileId : String} {row : FileUpload} :
      Deed V t d ls (.saveFileUploadProgress u fileId row)
        [.fileUploads (u, weight fileId) (some row)]
  | profile {o : Operation} {u : ℤ} {row : UserInfo} : Deed V t d ls o [.userInfo u (some row)]
  | found {g : ℤ} {gi : GroupInfo} (hlock : exclusive (.group g) ∈ ls)
      (hgroup : d.groupInfo.get g = none) (hconv : d.conversations.get gi.conversationId = none)
      (hfree : d.NoConversation .group g) (hmember : d.groupMembers.get (g, gi.masterUid) = none)
      (hjoins : Joins d gi.conversationId [joinedAtOne gi.conversationId gi.masterUid]) :
      Deed V t d ls (.createGroup g gi)
        [.groupInfo g (some gi.stored), .conversations gi.conversationId (some ⟨.group, g, 0, gi.createTime⟩),
          .groupMembers (g, gi.masterUid) (some gi.createTime),
          joinedAtOne gi.conversationId gi.masterUid]
  | requestJoin {g u : ℤ} {message now : String} {gi : GroupInfo} {d' : Db}
      (hlock : exclusive (.group g) ∈ ls) (hgroup : d.groupInfo.get g = some gi)
      (hsince : Since V (exclusive (.group g)) t d') (hmember : d'.groupMembers.get (g, u) = none)
      (hnew : d.groupApplys.get (g, u) = none) :
      Deed V t d ls (.requestGroupJoin g u message now) [.groupApplys (g, u) (some (.stored ⟨message, now⟩))]
  | reject {g a u : ℤ} {now : String} {gi : GroupInfo} (hlock : exclusive (.group g) ∈ ls)
      (hgroup : d.groupInfo.get g = some gi) :
      Deed V t d ls (.replyGroupJoin g a u false now) [.groupApplys (g, u) none]
  | welcome {g a u : ℤ} {now : String} {gi : GroupInfo} {conv : Conversation}
      (hlock : exclusive (.group g) ∈ ls) (hgroup : d.groupInfo.get g = some gi)
      (hmember : d.groupMembers.get (g, u) = none)
      (hconv : d.conversations.get gi.conversationId = some conv)
      (hstate : d.conversationUserStates.get (gi.conversationId, u) = none) :
      Deed V t d ls (.replyGroupJoin g a u true now)
        [.groupApplys (g, u) none, .groupMembers (g, u) (some now),
          .conversationUserStates (gi.conversationId, u) (some { joinedSeq := conv.latestSeq + 1 })]
  /-- INSERT … SELECT finds no conversation row and adds no participant -/
  | welcomeBare {g a u : ℤ} {now : String} {gi : GroupInfo} {d' : Db}
      (hlock : exclusive (.group g) ∈ ls) (hgroup : d.groupInfo.get g = some gi)
      (hbefore : Before V t d') (hgroup' : d'.groupInfo.get g = some gi)
      (hconv : d'.conversations.get gi.conversationId = none) :
      Deed V t d ls (.replyGroupJoin g a u true now)
        [.groupApplys (g, u) none, .groupMembers (g, u) (some now)]
  | leave {g a u : ℤ} {dissolve : Bool} {gi : GroupInfo} {d' : Db} {states : List Write}
      (hlock : exclusive (.group g) ∈ ls) (hgroup : d.groupInfo.get g = some gi)
      (hactor : a = gi.masterUid ∨ a = u) (hkeep : ¬ (u = gi.masterUid ∧ dissolve = true))
      (hmember : (d.groupMembers.get (g, u)).isSome)
      (hsince : Since V (exclusive (.group g)) t d')
      (hstates : states = [.conversationUserStates (gi.conversationId, u) none] ∨
        states = [] ∧ d'.conversationUserStates.get (gi.conversationId, u) = none) :
      Deed V t d ls (.removeGroupMember g a u dissolve) (states ++ [.groupMembers (g, u) none])
  | dissolve {g a u : ℤ} {gi : GroupInfo} {d₁ d₂ d₃ : Db} {ss as ms : List (ℤ × ℤ)}
      (hlock : exclusive (.group g) ∈ ls) (hgroup : d.groupInfo.get g = some gi)
      (h₁ : Since V (exclusive (.group g)) t d₁) (h₂ : Since V (exclusive (.group g)) t d₂)
      (h₃ : Since V (exclusive (.group g)) t d₃)
      (hss : ∀ k, k ∈ ss ↔ k.1 = gi.conversationId ∧ (d₁.conversationUserStates.get k).isSome)
      (has : ∀ k, k ∈ as ↔ k.1 = g ∧ (d₂.groupApplys.get k).isSome)
      (hms : ∀ k, k ∈ ms ↔ k.1 = g ∧ (d₃.groupMembers.get k).isSome) :
      Deed V t d ls (.removeGroupMember g a u true) (dissolved g ss as ms)

/-- At a version between `a` and `b` the id of `file` was free, or it belonged to the owner of `file`. -/
def OwnerSeen (V : Versions) (file : FileObject) (a b : ℕ) : Prop :=
  ∃ i v, a ≤ i ∧ i ≤ b ∧ V[i]? = some v ∧
    ∀ f, v.db.fileObjects.get (weight file.fileId) = some f → f.ownerUid = file.ownerUid

/-- A message is stored under the idempotency key of the command and is the one it asks for; an answer that
    is not a duplicate comes from the very commit that stored it, with the content as its column keeps it. -/
def Accepted (V : Versions) (senderId receiverId : ℤ) (clientMessageId : String) (type : MessageType)
    (content : String) (r : MessageAcceptResult) (dn : Option ℕ) : Prop :=
  ∃ j v m, V[j]? = some v ∧ v.db.messages.get r.messageId = some m ∧
    m.clientKey = some (senderId, weight clientMessageId) ∧
    sameCommand m r.conversationId receiverId type (if r.duplicate then content else text content) = true ∧
    (m.conversationSeq : ℤ) = r.conversationSeq ∧
    (r.duplicate = false → dn = some j ∧ ∃ i u, j = i + 1 ∧ V[i]? = some u ∧
      u.db.NoClientMessage (senderId, weight clientMessageId))

/-- An answer that refers to an earlier command: a message is stored under the idempotency key. -/
def Refers (V : Versions) (senderId : ℤ) (clientMessageId : String) (r : MessageAcceptResult) : Prop :=
  r.duplicate = true ∨ r.error = .IdempotencyConflict → ∃ v ∈ V, ∃ k m, v.db.messages.get k = some m ∧
    m.clientKey = some (senderId, weight clientMessageId) ∧ (r.duplicate = true → r.messageId = k)

theorem refers_not {V : Versions} {senderId : ℤ} {clientMessageId : String} {r : MessageAcceptResult}
    (hduplicate : r.duplicate = false) (herror : r.error ≠ .IdempotencyConflict) :
    Refers V senderId clientMessageId r := by
  rintro (h | h)
  · rw [hduplicate] at h
    cases h
  · exact absurd h herror

/-- The application `data` from `a` to `b` had been stored by version `n`, the row for `b` after that for `a`. -/
def Applied (V : Versions) (a b : ℤ) (data : FriendApply) (n : ℕ) : Prop :=
  ∃ i j u v, i ≤ j ∧ j ≤ n ∧ V[i]? = some u ∧ u.db.friendApplys.get (a, b) = some data.stored ∧
    V[j]? = some v ∧ v.db.friendApplys.get (b, a) = none

/-- The two had been friends at some version up to `n`. -/
def Befriended (V : Versions) (a b : ℤ) (n : ℕ) : Prop :=
  ∃ j v, j ≤ n ∧ V[j]? = some v ∧ ¬ v.db.Strangers (min a b) (max a b)

/-- `u` was a member of `g` at some version from `a` to `b`. -/
def WasMember (V : Versions) (g u : ℤ) (a b : ℕ) : Prop :=
  ∃ j v, a ≤ j ∧ j ≤ b ∧ V[j]? = some v ∧ (v.db.groupMembers.get (g, u)).isSome

/-- A fresh group message: the commit on version `t` stored it, and it goes to the other members of a
    version since which the group row has been locked. -/
def Delivered (V : Versions) (op : AcceptGroupMessage) (r : GroupMessageAcceptResult)
    (dn : Option ℕ) : Prop :=
  ∃ t v v' gi conv d', dn = some (t + 1) ∧ V[t]? = some v ∧ V[t + 1]? = some v' ∧
    v.db.groupInfo.get op.groupId = some gi ∧
    (v.db.groupMembers.get (op.groupId, op.senderId)).isSome ∧
    v.db.conversations.get gi.conversationId = some conv ∧ v.db.messages.get r.messageId = none ∧
    r.conversationId = gi.conversationId ∧
    v'.db = applyAll
      [.conversations gi.conversationId (some { conv with latestSeq := conv.latestSeq + 1 }),
        .messages r.messageId (some (op.stored gi.conversationId (conv.latestSeq + 1)))] v.db ∧
    Since V (exclusive (.group op.groupId)) t d' ∧
    r.recipientUids = otherMemberUids op.groupId op.senderId d'

/-- A page of history: the first SELECT saw version `t₁`, the second version `t₂`. -/
def Synced (V : Versions) (op : SyncConversation) (r : ConversationSyncResult) (a b : ℕ) : Prop :=
  ∃ t₁ t₂ v₁ v₂ c m, a ≤ t₁ ∧ t₁ ≤ t₂ ∧ t₂ ≤ b ∧ V[t₁]? = some v₁ ∧ V[t₂]? = some v₂ ∧
    0 ≤ op.afterSeq ∧ membership op.conversationId op.uid v₁.db = some (c, m) ∧
    r = syncPage op c m (historyRows op.now op.conversationId
      (max op.afterSeq ((m.joinedSeq : ℤ) - 1)) c.latestSeq (boundedCount op.pullCount + 1) v₂.db)

/-- `u` had a row in the conversation `c` at some version from `a` to `b`. -/
def WasParticipant (V : Versions) (c u : ℤ) (a b : ℕ) : Prop :=
  ∃ j v, a ≤ j ∧ j ≤ b ∧ V[j]? = some v ∧ (v.db.conversationUserStates.get (c, u)).isSome

/-- A recorded receipt: the commit on version `t` recorded it, and the answer tells what the message was
    there. -/
def Recorded (V : Versions) (op : AcknowledgeConversationMessage) (r : ConversationAckResult)
    (dn : Option ℕ) : Prop :=
  ∃ t v v' m conv, dn = some (t + 1) ∧ V[t]? = some v ∧ V[t + 1]? = some v' ∧
    v.db.messages.get op.messageId = some m ∧ v.db.conversations.get op.conversationId = some conv ∧
    v'.db.messages = (if conv.type = .direct ∧ m.receiverId = op.uid then
      v.db.messages.set op.messageId (some (m.receive op.status op.readDateTime)) else v.db.messages) ∧
    r = { updated := 1, senderUid := m.senderId, directConversation := decide (conv.type = .direct),
          readStateChanged := decide (conv.type = .direct ∧ m.receiverId = op.uid) &&
            decide (op.status = .READ ∧ m.status.code < 3) }

/-- The committed transaction `x` is a deed of `o` on version `t`. -/
def Does (V : Versions) (o : Operation) (t : ℕ) (x : Tx Key Write) : Prop :=
  ∃ v, V[t]? = some v ∧ Deed V t v.db x.locks o x.writes

end Imm
