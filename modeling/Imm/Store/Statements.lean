import Mathlib.Data.List.Dedup
import Mathlib.Data.List.Sort
import Imm.Store.Schema

/-! The SQL statements of `mysql_store.cc`. A plain SELECT is a function of the database; a
    statement that locks or writes is an `Effect` on the rows it finds. INSERT fails on a negative
    value for an unsigned column, on a text of a client that is too long for its column and on a key
    that is taken; spaces at the end of a text that are too many for the column are cut off. UPDATE,
    DELETE and FOR UPDATE act on the rows they match and lock those. -/

namespace Imm

open Txn Option Table

abbrev Statement (α : Type) := Stmt Db Key Write α

/-- `ConversationMessageRecord`, with its `FileAttachment` -/
structure ConversationMessageRecord where
  messageId : ℤ
  message : Message
  file : Option (FileObject × Bool)
  deriving DecidableEq

/-- A row of the friend list, seen from the user `uid`. -/
structure FriendRecord where
  friendshipId : ℤ
  conversationId : ℤ
  uid : ℤ
  peerUid : ℤ
  createTime : String
  deriving DecidableEq

/-- The new values of `deliveredSeq` and `readSeq` after a receipt. -/
def UserState.advance (s : UserState) (seq : ℕ) (status : MessageStatus) : UserState :=
  { s with deliveredSeq := max s.deliveredSeq seq,
           readSeq := if status = .READ then max s.readSeq seq else s.readSeq }

/-- The new values of `status` and `readDateTime` after a receipt by the recipient. -/
def Message.receive (m : Message) (status : MessageStatus) (readDateTime : String) : Message :=
  { m with
    readDateTime := if status = .READ ∧ (m.status.code < 3 ∨ m.readDateTime = "") then readDateTime
      else m.readDateTime,
    status := m.status.greatest status }

namespace SQL

/-- What a column of `n` characters or bytes keeps of a text that has `size` of them: spaces at the end that are
    too many are left out, whatever the mode of the server. -/
def cut (n size : ℕ) (s : String) : String :=
  if size ≤ n then s
  else
    let kept := s.length - (size - n)
    if (s.toList.drop kept).all (· = ' ') then String.ofList (s.toList.take kept) else s

/-- VARCHAR(n) -/
def varchar (n : ℕ) (s : String) : String := cut n s.length s

/-- TEXT -/
def text (s : String) : String := cut 65535 s.utf8ByteSize s

theorem varchar_fits {n : ℕ} {s : String} (h : s.length ≤ n) : varchar n s = s := if_pos h

theorem text_fits {s : String} (h : s.utf8ByteSize ≤ 65535) : text s = s := if_pos h

theorem weight_spaces [Collation] (l : List Char) (k : ℕ) :
    weight (String.ofList (l ++ List.replicate k ' ')) = weight (String.ofList l) := by
  induction k with
  | zero => simp
  | succ k ih =>
    have hpush : String.ofList (l ++ List.replicate (k + 1) ' ')
        = (String.ofList (l ++ List.replicate k ' ')).push ' ' :=
      String.toList_inj.1 (by simp [List.replicate_succ'])
    rw [hpush, Collation.pad, ih]

/-- What is cut off does not count in comparisons. -/
theorem weight_cut [Collation] (n size : ℕ) (s : String) : weight (cut n size s) = weight s := by
  unfold cut
  split
  · rfl
  dsimp only
  split
  · rename_i hspaces
    have hrest : s.toList.drop (s.length - (size - n)) = List.replicate _ ' ' :=
      List.eq_replicate_of_mem (by simpa using hspaces)
    conv_rhs => rw [← String.ofList_toList (s := s), ← List.take_append_drop (s.length - (size - n)) s.toList, hrest]
    exact (weight_spaces _ _).symm
  · rfl

@[simp] theorem weight_varchar [Collation] (n : ℕ) (s : String) : weight (varchar n s) = weight s :=
  weight_cut n _ s

@[simp] theorem weight_text [Collation] (s : String) : weight (text s) = weight s := weight_cut _ _ s

end SQL

/-! The rows as the columns of their tables keep them. -/

def FriendApply.stored (row : FriendApply) : FriendApply := { row with content := SQL.varchar 512 row.content }

def Message.stored (m : Message) : Message :=
  { m with clientMessageId := m.clientMessageId.map (SQL.varchar 128), content := SQL.text m.content }

@[simp] theorem Message.clientKey_stored [Collation] (m : Message) : m.stored.clientKey = m.clientKey := by
  cases h : m.clientMessageId <;> simp [Message.clientKey, Message.stored, h]

/-- `sha256` is BINARY. -/
def FileObject.stored (file : FileObject) : FileObject :=
  { file with
    fileId := SQL.varchar 36 file.fileId, fileName := SQL.varchar 255 file.fileName
    fileType := SQL.varchar 128 file.fileType }

def GroupInfo.stored (row : GroupInfo) : GroupInfo := { row with name := SQL.varchar 128 row.name }

/-- INSERT IGNORE cuts any text. -/
def GroupApply.stored (row : GroupApply) : GroupApply :=
  { row with message := String.ofList (row.message.toList.take 512) }

namespace SQL

abbrev exclusive (k : Key) : Lock Key := ⟨k, .exclusive⟩

abbrev sharing (k : Key) : Lock Key := ⟨k, .shared⟩

/-- INSERT: `unsigned` are the values bound to id columns, `taken` says that a key is in use. -/
def insertRows {α : Type} (unsigned : List ℤ) (taken : Bool) (rows : List Write) (reply : α) :
    Except String (Effect Key Write α) :=
  if unsigned.any (· < 0) then .error "Out of range value for column"
  else if taken then .error "Duplicate entry for key"
  else .ok { reply, writes := rows }

variable {α : Type} {a b c u g : ℤ} {row : FriendApply} {n : ℕ} {d : Db} {e : Effect Key Write Unit}
  {time : String}

theorem insertRows_ok {unsigned : List ℤ} {taken : Bool} {rows : List Write} {reply : α}
    {e : Effect Key Write α} (h : insertRows unsigned taken rows reply = .ok e) :
    (∀ v ∈ unsigned, 0 ≤ v) ∧ taken = false ∧ e = { reply, writes := rows } := by
  rw [insertRows] at h
  split at h
  · cases h
  rename_i hneg
  split at h
  · cases h
  rename_i htaken
  cases h
  exact ⟨by simpa using hneg, by simpa using htaken, rfl⟩

theorem insertRows_free {unsigned : List ℤ} {taken : Bool} {rows : List Write} {reply : α}
    (hunsigned : ∀ v ∈ unsigned, 0 ≤ v) (htaken : taken = false) :
    insertRows unsigned taken rows reply = .ok { reply, writes := rows } := by
  have hrange : unsigned.any (· < 0) = false := by simpa using hunsigned
  simp [insertRows, hrange, htaken]

/-- A statement that stores texts; each is given with the size of its column. -/
def within {α : Type} (texts : List (ℕ × ℕ)) (e : Except String (Effect Key Write α)) :
    Except String (Effect Key Write α) :=
  if texts.all fun t => decide (t.2 ≤ t.1) then e else .error "Data too long for column"

theorem within_ok {texts : List (ℕ × ℕ)} {x : Except String (Effect Key Write α)}
    {e : Effect Key Write α} (h : within texts x = .ok e) : (∀ t ∈ texts, t.2 ≤ t.1) ∧ x = .ok e := by
  rw [within] at h
  split at h
  · rename_i hfits
    exact ⟨by simpa using hfits, h⟩
  · cases h

theorem within_fits {texts : List (ℕ × ℕ)} {x : Except String (Effect Key Write α)}
    (h : ∀ t ∈ texts, t.2 ≤ t.1) : within texts x = x :=
  if_pos (by simpa using h)

/-! ### friendApplys and friends -/

/-- INSERT INTO friendApplys VALUES (?, ?, ?, ?, ?) -/
def insertFriendApply (fromUid toUid : ℤ) (row : FriendApply) : Statement Unit := fun _ d =>
  within [(512, row.stored.content.length)]
    (insertRows [fromUid, toUid] (d.friendApplys.get (fromUid, toUid)).isSome
      [.friendApplys (fromUid, toUid) (some row.stored)] ())

theorem insertFriendApply_ok (h : insertFriendApply a b row n d = .ok e) :
    d.friendApplys.get (a, b) = none ∧
      e = { reply := (), writes := [.friendApplys (a, b) (some row.stored)] } := by
  obtain ⟨-, htaken, rfl⟩ := insertRows_ok (within_ok h).2
  exact ⟨by simpa using htaken, rfl⟩

theorem insertFriendApply_free (n : ℕ) (ha : 0 ≤ a) (hb : 0 ≤ b)
    (hfits : row.stored.content.length ≤ 512) (hfree : d.friendApplys.get (a, b) = none) :
    insertFriendApply a b row n d = .ok { reply := (), writes := [.friendApplys (a, b) (some row.stored)] } := by
  rw [insertFriendApply, within_fits (by simpa using hfits),
    insertRows_free (by simp [ha, hb]) (by simp [hfree])]

/-- UPDATE friendApplys SET status = ?, content = ?, createTime = ? WHERE fromUid = ? AND toUid = ? -/
def updateFriendApply (fromUid toUid : ℤ) (row : FriendApply) : Statement Unit := fun _ d =>
  match d.friendApplys.get (fromUid, toUid) with
  | some _ => within [(512, row.stored.content.length)]
      (.ok { reply := (), writes := [.friendApplys (fromUid, toUid) (some row.stored)] })
  | none => .ok { reply := () }

theorem updateFriendApply_ok (h : updateFriendApply a b row n d = .ok e) :
    d.friendApplys.get (a, b) = none ∧ e = { reply := () } ∨ ∃ old, d.friendApplys.get (a, b) = some old ∧
      e = { reply := (), writes := [.friendApplys (a, b) (some row.stored)] } := by
  rw [updateFriendApply] at h
  split at h
  · rename_i old hold
    cases (within_ok h).2
    exact .inr ⟨old, hold, rfl⟩
  rename_i hnone
  cases h
  exact .inl ⟨hnone, rfl⟩

/-- INSERT INTO friends (friendshipId, uidA, uidB, createTime) VALUES (?, ?, ?, ?) -/
def insertFriend (friendshipId : ℤ) (row : Friend) : Statement Unit := fun _ d =>
  insertRows [friendshipId, row.uidA, row.uidB]
    ((d.friends.get friendshipId).isSome ||
      d.friends.has fun _ r => decide (r.uidA = row.uidA ∧ r.uidB = row.uidB))
    [.friends friendshipId (some row)] ()

theorem insertFriend_ok {f : ℤ} {row : Friend} (h : insertFriend f row n d = .ok e) :
    d.friends.get f = none ∧ d.Strangers row.uidA row.uidB ∧
      e = { reply := (), writes := [.friends f (some row)] } := by
  obtain ⟨-, htaken, rfl⟩ := insertRows_ok h
  rw [Bool.or_eq_false_iff, has_eq_false] at htaken
  exact ⟨by simpa using htaken.1, fun f r hf => by simpa using htaken.2 f r hf, rfl⟩

/-- DELETE FROM friends WHERE uidA = ? AND uidB = ? -/
def deleteFriend (uidA uidB : ℤ) : Statement Unit := fun _ d =>
  .ok { reply := (), writes :=
    (d.friends.keysOf fun _ r => decide (r.uidA = uidA ∧ r.uidB = uidB)).map (.friends · none) }

/-- SELECT c.conversationId FROM friends f INNER JOIN conversations c ON c.type = 1 AND
    c.businessId = f.friendshipId WHERE f.uidA = ? AND f.uidB = ? -/
def friendConversation (uidA uidB : ℤ) (d : Db) : Option ℤ :=
  (d.friends.rows.findSome? fun (friendshipId, f) =>
    if f.uidA = uidA ∧ f.uidB = uidB then
      d.conversations.first fun _ c => decide (c.type = .direct ∧ c.businessId = friendshipId)
    else none).map Prod.fst

/-- SELECT f.friendshipId, c.conversationId, ?, CASE WHEN f.uidA = ? THEN f.uidB ELSE f.uidA END,
    f.createTime FROM friends f INNER JOIN conversations c ON c.type = 1 AND c.businessId =
    f.friendshipId WHERE f.uidA = ? OR f.uidB = ? -/
def friendList (uid : ℤ) (d : Db) : List FriendRecord :=
  (d.friends.rows.filter fun e => decide (e.2.uidA = uid ∨ e.2.uidB = uid)).flatMap fun (friendshipId, f) =>
    (d.conversations.rows.filter fun c =>
      decide (c.2.type = .direct ∧ c.2.businessId = friendshipId)).map fun c =>
        { friendshipId, conversationId := c.1, uid, peerUid := if f.uidA = uid then f.uidB else f.uidA,
          createTime := f.createTime }

/-- SELECT * FROM friendApplys WHERE status = 0 AND fromUid = ? -/
def waitingApplys (fromUid : ℤ) (d : Db) : List ((ℤ × ℤ) × FriendApply) :=
  d.friendApplys.rows.filter fun e => decide (e.2.status = .Wait ∧ e.1.1 = fromUid)

/-! ### conversations and conversationUserStates -/

/-- INSERT INTO conversations (conversationId, type, businessId, latestSeq, createTime)
    VALUES (?, 1 or 2, ?, 0, ?) -/
def insertConversation (conversationId : ℤ) (type : ConversationType) (businessId : ℤ)
    (createTime : String) : Statement Unit := fun _ d =>
  insertRows [conversationId, businessId]
    ((d.conversations.get conversationId).isSome ||
      d.conversations.has fun _ r => decide (r.type = type ∧ r.businessId = businessId))
    [.conversations conversationId (some ⟨type, businessId, 0, createTime⟩)] ()

theorem insertConversation_ok {type : ConversationType} (h : insertConversation c type b time n d = .ok e) :
    d.conversations.get c = none ∧ d.NoConversation type b ∧
      e = { reply := (), writes := [.conversations c (some ⟨type, b, 0, time⟩)] } := by
  obtain ⟨-, htaken, rfl⟩ := insertRows_ok h
  simp only [Bool.or_eq_false_iff, has_eq_false, decide_eq_false_iff_not] at htaken
  exact ⟨by simpa using htaken.1, htaken.2, rfl⟩

/-- SELECT latestSeq FROM conversations WHERE conversationId = ? FOR UPDATE -/
def lockLatestSeq (conversationId : ℤ) : Statement (Option ℕ) := fun _ d =>
  match d.conversations.get conversationId with
  | some r => .ok { reply := some r.latestSeq, reads := [exclusive (.conversation conversationId)] }
  | none => .ok { reply := none }

theorem lockLatestSeq_ok {e : Effect Key Write (Option ℕ)} (h : lockLatestSeq c n d = .ok e) :
    e = { reply := none } ∨ ∃ r, d.conversations.get c = some r ∧
      e = { reply := some r.latestSeq, reads := [exclusive (.conversation c)] } := by
  rw [lockLatestSeq] at h
  split at h <;> cases h
  · exact .inr ⟨_, ‹_›, rfl⟩
  · exact .inl rfl

/-- UPDATE conversations SET latestSeq = ? WHERE conversationId = ? -/
def updateLatestSeq (latestSeq : ℕ) (conversationId : ℤ) : Statement Unit := fun _ d =>
  match d.conversations.get conversationId with
  | some r => .ok { reply := (), writes := [.conversations conversationId (some { r with latestSeq })] }
  | none => .ok { reply := () }

theorem updateLatestSeq_ok {seq : ℕ} (h : updateLatestSeq seq c n d = .ok e) :
    d.conversations.get c = none ∧ e = { reply := () } ∨ ∃ r, d.conversations.get c = some r ∧
      e = { reply := (), writes := [.conversations c (some { r with latestSeq := seq })] } := by
  rw [updateLatestSeq] at h
  split at h
  · rename_i r hr
    cases h
    exact .inr ⟨r, hr, rfl⟩
  rename_i hr
  cases h
  exact .inl ⟨hr, rfl⟩

/-- INSERT INTO conversationUserStates (conversationId, uid, joinedSeq) VALUES (?, ?, 1), … -/
def insertUserStates (conversationId : ℤ) (uids : List ℤ) : Statement Unit := fun _ d =>
  insertRows (conversationId :: uids)
    (uids.any (fun u => (d.conversationUserStates.get (conversationId, u)).isSome) ||
      !decide uids.Nodup)
    (uids.map fun u => .conversationUserStates (conversationId, u) (some { joinedSeq := 1 })) ()

theorem insertUserStates_ok {uids : List ℤ} (h : insertUserStates c uids n d = .ok e) :
    (∀ u ∈ uids, d.conversationUserStates.get (c, u) = none) ∧ uids.Nodup ∧
      e = { reply := (), writes := uids.map fun u =>
        .conversationUserStates (c, u) (some { joinedSeq := 1 }) } := by
  obtain ⟨-, htaken, rfl⟩ := insertRows_ok h
  simp only [Bool.or_eq_false_iff, List.any_eq_false, Bool.not_eq_false', decide_eq_true_eq] at htaken
  exact ⟨fun u hu => by simpa using htaken.1 u hu, htaken.2, rfl⟩

/-- INSERT IGNORE INTO conversationUserStates (conversationId, uid, joinedSeq) VALUES (?, ?, 1), …; a
    row that is there already gets a shared lock. -/
def insertIgnoreUserStates (conversationId : ℤ) (uids : List ℤ) : Statement Unit := fun _ d =>
  let missing := uids.dedup.filter fun u => (d.conversationUserStates.get (conversationId, u)).isNone
  let found := uids.filter fun u => (d.conversationUserStates.get (conversationId, u)).isSome
  .ok { reply := (),
        reads := found.map fun u => sharing (.userState conversationId u),
        writes := missing.map fun u =>
          .conversationUserStates (conversationId, u) (some { joinedSeq := 1 }) }

/-- INSERT INTO conversationUserStates (conversationId, uid, joinedSeq) SELECT conversationId, ?,
    latestSeq + 1 FROM conversations WHERE conversationId = ? -/
def insertUserStateFromNow (uid conversationId : ℤ) : Statement Unit := fun _ d =>
  match d.conversations.get conversationId with
  | some r => do
    let e ← insertRows [uid] (d.conversationUserStates.get (conversationId, uid)).isSome
      [.conversationUserStates (conversationId, uid) (some { joinedSeq := r.latestSeq + 1 })] ()
    .ok { e with reads := [⟨.conversation conversationId, .shared⟩] }
  | none => .ok { reply := () }

theorem insertUserStateFromNow_ok (h : insertUserStateFromNow u c n d = .ok e) :
    d.conversations.get c = none ∧ e = { reply := () } ∨
      ∃ conv, d.conversations.get c = some conv ∧ d.conversationUserStates.get (c, u) = none ∧
        e = { reply := (), reads := [⟨.conversation c, .shared⟩], writes :=
          [.conversationUserStates (c, u) (some { joinedSeq := conv.latestSeq + 1 })] } := by
  rw [insertUserStateFromNow] at h
  split at h
  · rename_i conv hconv
    cases hins : insertRows (α := Unit) [u] (d.conversationUserStates.get (c, u)).isSome
        [.conversationUserStates (c, u) (some { joinedSeq := conv.latestSeq + 1 })] () with
    | error err => rw [hins] at h; cases h
    | ok e' =>
      rw [hins] at h
      cases h
      obtain ⟨-, htaken, rfl⟩ := insertRows_ok hins
      exact .inr ⟨conv, hconv, by simpa using htaken, rfl⟩
  · rename_i hconv
    cases h
    exact .inl ⟨hconv, rfl⟩

/-- UPDATE conversationUserStates SET deliveredSeq = GREATEST(deliveredSeq, ?), readSeq = CASE WHEN
    ? = 3 THEN GREATEST(readSeq, ?) ELSE readSeq END WHERE uid = ? AND conversationId = ? -/
def updateUserState (seq : ℕ) (status : MessageStatus) (uid conversationId : ℤ) : Statement Unit :=
  fun _ d =>
  match d.conversationUserStates.get (conversationId, uid) with
  | some s => .ok { reply := (), writes :=
      [.conversationUserStates (conversationId, uid) (some (s.advance seq status))] }
  | none => .ok { reply := () }

theorem updateUserState_ok {seq : ℕ} {status : MessageStatus} (h : updateUserState seq status u c n d = .ok e) :
    d.conversationUserStates.get (c, u) = none ∧ e = { reply := () } ∨
      ∃ st, d.conversationUserStates.get (c, u) = some st ∧
        e = { reply := (), writes := [.conversationUserStates (c, u) (some (st.advance seq status))] } := by
  rw [updateUserState] at h
  split at h
  · rename_i st hst
    cases h
    exact .inr ⟨st, hst, rfl⟩
  rename_i hst
  cases h
  exact .inl ⟨hst, rfl⟩

/-- DELETE FROM conversationUserStates WHERE conversationId = ? -/
def deleteUserStates (conversationId : ℤ) : Statement Unit := fun _ d =>
  .ok { reply := (), writes := (d.conversationUserStates.keysOf fun k _ =>
    decide (k.1 = conversationId)).map (.conversationUserStates · none) }

theorem deleteUserStates_ok (h : deleteUserStates c n d = .ok e) :
    ∃ ks : List (ℤ × ℤ), (∀ k, k ∈ ks ↔ k.1 = c ∧ (d.conversationUserStates.get k).isSome) ∧
      e = { reply := (), writes := ks.map (.conversationUserStates · none) } := by
  cases h
  exact ⟨_, by simp [mem_keysOf, isSome_iff_exists, and_comm], rfl⟩

/-- DELETE FROM conversationUserStates WHERE conversationId = ? AND uid = ? -/
def deleteUserState (conversationId uid : ℤ) : Statement Unit := fun _ d =>
  let found := (d.conversationUserStates.get (conversationId, uid)).toList
  .ok { reply := (), writes := found.map fun _ => .conversationUserStates (conversationId, uid) none }

theorem deleteUserState_ok (h : deleteUserState c u n d = .ok e) :
    d.conversationUserStates.get (c, u) = none ∧ e = { reply := () } ∨
      e = { reply := (), writes := [.conversationUserStates (c, u) none] } := by
  cases h
  cases hst : d.conversationUserStates.get (c, u) with
  | none => exact .inl ⟨rfl, by simp⟩
  | some st => exact .inr (by simp)

/-- SELECT c.latestSeq, m.joinedSeq, c.latestSeq, c.type FROM conversations c INNER JOIN
    conversationUserStates m … WHERE c.conversationId = ? AND m.uid = ? AND (c.type <> 2 OR EXISTS
    (SELECT 1 FROM groupInfo gi INNER JOIN groupMembers gm … WHERE gi.conversationId = c.conversationId)) -/
def membership (conversationId uid : ℤ) (d : Db) : Option (Conversation × UserState) := do
  let c ← d.conversations.get conversationId
  let m ← d.conversationUserStates.get (conversationId, uid)
  if c.type ≠ .group ∨ d.groupInfo.has (fun g gi =>
      decide (gi.conversationId = conversationId) && (d.groupMembers.get (g, uid)).isSome) then
    some (c, m)
  else none

/-! ### messages -/

/-- SELECT … FROM messages m WHERE m.senderId = ? AND m.clientMessageId = ? -/
def duplicateMessage [Collation] (senderId : ℤ) (clientMessageId : String) (d : Db) : Option (ℤ × Message) :=
  d.messages.first fun _ m => decide (m.clientKey = some (senderId, weight clientMessageId))

/-- INSERT INTO messages (…) VALUES (…); the messageId is the AUTO_INCREMENT number. -/
def insertMessage [Collation] (m : Message) : Statement ℤ := fun n d =>
  within [(128, (m.stored.clientMessageId.getD "").length), (65535, m.stored.content.utf8ByteSize)]
    (insertRows [m.senderId, m.receiverId, m.conversationId]
      ((d.messages.get n).isSome ||
        d.messages.has (fun _ r =>
          decide (r.conversationId = m.conversationId ∧ r.conversationSeq = m.conversationSeq)) ||
        d.messages.has (fun _ r => r.clientKey.isSome && decide (r.clientKey = m.clientKey)))
      [.messages n (some m.stored)] (n : ℤ))

theorem insertMessage_ok [Collation] {m : Message} {e : Effect Key Write ℤ} (h : insertMessage m n d = .ok e) :
    d.messages.get n = none ∧ (∀ key, m.clientKey = some key → d.NoClientMessage key) ∧
      e = { reply := (n : ℤ), writes := [.messages n (some m.stored)] } := by
  obtain ⟨-, htaken, rfl⟩ := insertRows_ok (within_ok h).2
  simp only [Bool.or_eq_false_iff, has_eq_false] at htaken
  refine ⟨by simpa using htaken.1.1, fun key hkey k r hr e => ?_, rfl⟩
  have := htaken.2 k r hr
  rw [e, hkey] at this
  simp at this

/-- SELECT c.type, msg.receiverId, msg.senderId, msg.status FROM messages msg INNER JOIN conversations
    c … INNER JOIN conversationUserStates cm … AND cm.uid = ? INNER JOIN devices d ON d.uid = cm.uid
    AND d.deviceId = ? WHERE msg.messageId = ? AND msg.conversationId = ? AND msg.conversationSeq = ?
    FOR UPDATE -/
def lockReceipt [Collation] (uid : ℤ) (deviceId : String) (messageId conversationId conversationSeq : ℤ) :
    Statement (Option (ConversationType × Message)) := fun _ d =>
  match d.messages.get messageId, d.conversations.get conversationId,
      d.conversationUserStates.get (conversationId, uid), d.devices.get (weight deviceId) with
  | some m, some c, some _, some owner =>
    if m.conversationId = conversationId ∧ m.conversationSeq = conversationSeq ∧ owner = uid then
      .ok { reply := some (c.type, m),
            reads := [exclusive (.message messageId), exclusive (.conversation conversationId),
              exclusive (.userState conversationId uid),
              exclusive (.device (weight deviceId))] }
    else .ok { reply := none }
  | _, _, _, _ => .ok { reply := none }

theorem lockReceipt_ok [Collation] {m q : ℤ} {device : String}
    {e : Effect Key Write (Option (ConversationType × Message))}
    (h : lockReceipt u device m c q n d = .ok e) :
    e = { reply := none } ∨ ∃ conv row, d.messages.get m = some row ∧ row.conversationId = c ∧
      row.conversationSeq = q ∧ d.conversations.get c = some conv ∧
      (d.conversationUserStates.get (c, u)).isSome ∧
      e = { reply := some (conv.type, row), reads := [exclusive (.message m),
        exclusive (.conversation c), exclusive (.userState c u),
        exclusive (.device (weight device))] } := by
  rw [lockReceipt] at h
  split at h
  · rename_i row conv st owner hrow hconv hst _
    split at h
    · rename_i hcond
      cases h
      exact .inr ⟨conv, row, hrow, hcond.1, hcond.2.1, hconv, by simp [hst], rfl⟩
    cases h
    exact .inl rfl
  · cases h
    exact .inl rfl

/-- UPDATE messages SET readDateTime = CASE WHEN ? = 3 AND (status < 3 OR readDateTime IS NULL OR
    readDateTime = '') THEN ? ELSE readDateTime END, status = GREATEST(status, ?) WHERE messageId = ? -/
def updateReceipt (status : MessageStatus) (readDateTime : String) (messageId : ℤ) : Statement Unit :=
  fun _ d =>
  match d.messages.get messageId with
  | some m => .ok { reply := (), writes :=
      [.messages messageId (some (m.receive status readDateTime))] }
  | none => .ok { reply := () }

theorem updateReceipt_ok {status : MessageStatus} {m : ℤ} (h : updateReceipt status time m n d = .ok e) :
    d.messages.get m = none ∧ e = { reply := () } ∨ ∃ row, d.messages.get m = some row ∧
      e = { reply := (), writes := [.messages m (some (row.receive status time))] } := by
  rw [updateReceipt] at h
  split at h
  · rename_i row hrow
    cases h
    exact .inr ⟨row, hrow, rfl⟩
  rename_i hrow
  cases h
  exact .inl ⟨hrow, rfl⟩

/-- INSERT INTO conversationDeviceStates (conversationId, deviceId, persistedSeq) VALUES (?, ?, ?) ON
    DUPLICATE KEY UPDATE persistedSeq = GREATEST(persistedSeq, VALUES(persistedSeq)) -/
def upsertDeviceState [Collation] (conversationId : ℤ) (deviceId : String) (seq : ℕ) : Statement Unit := fun _ d =>
  let key := (conversationId, weight deviceId)
  .ok { reply := (), writes := [.conversationDeviceStates key
    (some (max ((d.conversationDeviceStates.get key).getD 0) seq))] }

/-- The columns of one history row: the message, and through LEFT JOIN fileObjects f ON m.type = 5 AND
    f.fileId = m.content its file with the flag CASE WHEN f.state <> 1 OR f.expiresTime <= ? THEN 1. -/
def historyRow [Collation] (now : String) (d : Db) (e : ℤ × Message) : ConversationMessageRecord where
  messageId := e.1
  message := e.2
  file := do
    let f ← if e.2.type = .FILE then d.fileObjects.get (weight e.2.content) else none
    if f.fileId = "" then none
    else some (f, decide (f.state ≠ 1 ∨ f.expiresTime ≤ now))

/-- SELECT … FROM messages m LEFT JOIN fileObjects f … WHERE m.conversationId = ? AND
    m.conversationSeq > ? AND m.conversationSeq <= ? ORDER BY m.conversationSeq ASC LIMIT ? -/
def historyRows [Collation] (now : String) (conversationId after upTo : ℤ) (limit : ℕ) (d : Db) :
    List ConversationMessageRecord :=
  (((d.messages.rows.filter fun e => decide (e.2.conversationId = conversationId ∧
      after < e.2.conversationSeq ∧ e.2.conversationSeq ≤ upTo)).insertionSort
        fun e f => e.2.conversationSeq ≤ f.2.conversationSeq).take limit).map (historyRow now d)

/-! ### fileObjects -/

/-- SELECT fileId, … FROM fileObjects WHERE fileId = ? AND ownerUid = ? AND state = 1 AND
    expiresTime > ? -/
def readyFile [Collation] (fileId : String) (ownerUid : ℤ) (now : String) (d : Db) : Option FileObject :=
  (d.fileObjects.get (weight fileId)).filter fun f =>
    decide (f.ownerUid = ownerUid ∧ f.state = 1 ∧ now < f.expiresTime)

/-- SELECT 1 FROM fileObjects WHERE fileId = ? AND ownerUid = ? AND state = 1 AND expiresTime > ?
    FOR UPDATE -/
def lockReadyFile [Collation] (fileId : String) (ownerUid : ℤ) (now : String) : Statement Bool := fun _ d =>
  match readyFile fileId ownerUid now d with
  | some _ => .ok { reply := true, reads := [exclusive (.file (weight fileId))] }
  | none => .ok { reply := false }

/-- SELECT ownerUid FROM fileObjects WHERE fileId = ? FOR UPDATE -/
def lockFileOwner [Collation] (fileId : String) : Statement (Option ℤ) := fun _ d =>
  match d.fileObjects.get (weight fileId) with
  | some f => .ok { reply := some f.ownerUid, reads := [exclusive (.file (weight fileId))] }
  | none => .ok { reply := none }

/-- INSERT INTO fileObjects (…) VALUES (?, ?, ?, ?, ?, ?, 1, ?, ?) ON DUPLICATE KEY UPDATE fileName,
    fileType, fileSize, sha256, state = 1, expiresTime: the id, owner and creation time stay. -/
def upsertFile [Collation] (file : FileObject) : Statement Unit := fun _ d =>
  let key := weight file.fileId
  within [(36, file.stored.fileId.length), (255, file.stored.fileName.length),
      (128, file.stored.fileType.length), (32, file.sha256.length)]
    (insertRows [file.ownerUid, file.fileSize] false
      [.fileObjects key (some (match d.fileObjects.get key with
        | some old => { file.stored with
            fileId := old.fileId, ownerUid := old.ownerUid, createdTime := old.createdTime, state := 1 }
        | none => { file.stored with state := 1 }))] ())

/-- The condition on a joined message of `downloadableFile`: … INNER JOIN conversationUserStates s ON
    s.conversationId = m.conversationId AND s.uid = ? WHERE … AND (NOT EXISTS (SELECT 1 FROM conversations
    gc WHERE gc.conversationId = m.conversationId AND gc.type = 2) OR EXISTS (SELECT 1 FROM groupInfo gi
    INNER JOIN groupMembers gm ON gm.groupId = gi.groupId AND gm.uid = ? WHERE gi.conversationId =
    m.conversationId)) -/
def reachesMessage (uid : ℤ) (d : Db) (m : Message) : Bool :=
  (d.conversationUserStates.get (m.conversationId, uid)).isSome &&
    (!(d.conversations.get m.conversationId).any (fun c => decide (c.type = .group)) ||
      d.groupInfo.has fun g gi =>
        decide (gi.conversationId = m.conversationId) && (d.groupMembers.get (g, uid)).isSome)

/-- SELECT f.fileId, … FROM fileObjects f INNER JOIN messages m ON m.content = f.fileId AND m.type = 5 …
    WHERE f.fileId = ? AND f.state = 1 AND f.expiresTime > ? AND (…) LIMIT 1 -/
def downloadableFile [Collation] (fileId : String) (uid : ℤ) (now : String) (d : Db) : Option FileObject :=
  (d.fileObjects.get (weight fileId)).filter fun f =>
    decide (f.state = 1 ∧ now < f.expiresTime) &&
      d.messages.has fun _ m =>
        decide (m.type = .FILE ∧ weight m.content = weight f.fileId) && reachesMessage uid d m

/-- INSERT INTO fileUploads (ownerUid, fileId, nextOffset, complete, updateTime) VALUES (?, ?, ?, ?, ?) ON
    DUPLICATE KEY UPDATE nextOffset, complete, updateTime -/
def upsertFileUpload [Collation] (ownerUid : ℤ) (fileId : String) (row : FileUpload) : Statement Unit := fun _ _ =>
  within [(36, (varchar 36 fileId).length)]
    (insertRows [ownerUid, row.nextOffset] false
      [.fileUploads (ownerUid, weight fileId) (some row)] ())

/-! ### userInfo -/

/-- UPDATE userInfo SET … WHERE uid = ? -/
def updateUserInfo (uid : ℤ) (change : UserInfo → UserInfo) : Statement Unit := fun _ d =>
  match d.userInfo.get uid with
  | some row => .ok { reply := (), writes := [.userInfo uid (some (change row))] }
  | none => .ok { reply := () }

/-! ### Groups -/

/-- INSERT INTO groupInfo (groupId, masterUid, name, conversationId, createTime) VALUES (…) -/
def insertGroup (groupId : ℤ) (row : GroupInfo) : Statement Unit := fun _ d =>
  within [(128, row.stored.name.length)]
    (insertRows [groupId, row.masterUid, row.conversationId]
      ((d.groupInfo.get groupId).isSome ||
        d.groupInfo.has fun _ r => decide (r.conversationId = row.conversationId))
      [.groupInfo groupId (some row.stored)] ())

theorem insertGroup_ok {row : GroupInfo} (h : insertGroup g row n d = .ok e) :
    d.groupInfo.get g = none ∧ e = { reply := (), writes := [.groupInfo g (some row.stored)] } := by
  obtain ⟨-, htaken, rfl⟩ := insertRows_ok (within_ok h).2
  rw [Bool.or_eq_false_iff] at htaken
  exact ⟨by simpa using htaken.1, rfl⟩

/-- SELECT masterUid, conversationId, name FROM groupInfo WHERE groupId = ? FOR UPDATE -/
def lockGroup (groupId : ℤ) : Statement (Option GroupInfo) := fun _ d =>
  match d.groupInfo.get groupId with
  | some r => .ok { reply := some r, reads := [exclusive (.group groupId)] }
  | none => .ok { reply := none }

theorem lockGroup_ok {e : Effect Key Write (Option GroupInfo)} (h : lockGroup g n d = .ok e) :
    e = { reply := none } ∨ ∃ gi, d.groupInfo.get g = some gi ∧
      e = { reply := some gi, reads := [exclusive (.group g)] } := by
  rw [lockGroup] at h
  split at h <;> cases h
  · exact .inr ⟨_, ‹_›, rfl⟩
  · exact .inl rfl

/-- SELECT gi.conversationId FROM groupInfo gi INNER JOIN groupMembers gm ON gm.groupId = gi.groupId
    WHERE gi.groupId = ? AND gm.uid = ? FOR UPDATE -/
def lockGroupMember (groupId uid : ℤ) : Statement (Option ℤ) := fun _ d =>
  match d.groupInfo.get groupId, d.groupMembers.get (groupId, uid) with
  | some r, some _ => .ok { reply := some r.conversationId,
                            reads := [exclusive (.group groupId), exclusive (.member groupId uid)] }
  | _, _ => .ok { reply := none }

theorem lockGroupMember_ok {e : Effect Key Write (Option ℤ)} (h : lockGroupMember g u n d = .ok e) :
    e = { reply := none } ∨ ∃ gi, d.groupInfo.get g = some gi ∧ (d.groupMembers.get (g, u)).isSome ∧
      e = { reply := some gi.conversationId, reads := [exclusive (.group g), exclusive (.member g u)] } := by
  rw [lockGroupMember] at h
  split at h
  · rename_i gi _ hgroup hmember
    cases h
    exact .inr ⟨gi, hgroup, by simp [hmember], rfl⟩
  cases h
  exact .inl rfl

/-- DELETE FROM groupInfo WHERE groupId = ? -/
def deleteGroup (groupId : ℤ) : Statement Unit := fun _ d =>
  .ok { reply := (), writes := (d.groupInfo.get groupId).toList.map fun _ => .groupInfo groupId none }

theorem deleteGroup_ok (h : deleteGroup g n d = .ok e) (hrow : (d.groupInfo.get g).isSome) :
    e = { reply := (), writes := [.groupInfo g none] } := by
  obtain ⟨row, hrow⟩ := isSome_iff_exists.1 hrow
  cases h
  simp [hrow]

/-- SELECT 1 FROM groupMembers WHERE groupId = ? AND uid = ? -/
def isMember (groupId uid : ℤ) (d : Db) : Bool := (d.groupMembers.get (groupId, uid)).isSome

/-- SELECT 1 FROM groupMembers WHERE groupId = ? AND uid = ? FOR UPDATE -/
def lockMember (groupId uid : ℤ) : Statement Bool := fun _ d =>
  match d.groupMembers.get (groupId, uid) with
  | some _ => .ok { reply := true, reads := [exclusive (.member groupId uid)] }
  | none => .ok { reply := false }

theorem lockMember_ok {e : Effect Key Write Bool} (h : lockMember g u n d = .ok e) :
    e = { reply := false } ∨ ∃ time, d.groupMembers.get (g, u) = some time ∧
      e = { reply := true, reads := [exclusive (.member g u)] } := by
  rw [lockMember] at h
  split at h <;> cases h
  · exact .inr ⟨_, ‹_›, rfl⟩
  · exact .inl rfl

/-- SELECT uid FROM groupMembers WHERE groupId = ? -/
def memberUids (groupId : ℤ) (d : Db) : List ℤ :=
  (d.groupMembers.keysOf fun k _ => decide (k.1 = groupId)).map Prod.snd

/-- SELECT uid FROM groupMembers WHERE groupId = ? AND uid <> ? -/
def otherMemberUids (groupId uid : ℤ) (d : Db) : List ℤ :=
  (d.groupMembers.keysOf fun k _ => decide (k.1 = groupId ∧ k.2 ≠ uid)).map Prod.snd

/-- INSERT INTO groupMembers (groupId, uid, joinTime) VALUES (?, ?, ?) -/
def insertMember (groupId uid : ℤ) (joinTime : String) : Statement Unit := fun _ d =>
  insertRows [groupId, uid] (d.groupMembers.get (groupId, uid)).isSome
    [.groupMembers (groupId, uid) (some joinTime)] ()

theorem insertMember_ok (h : insertMember g u time n d = .ok e) :
    d.groupMembers.get (g, u) = none ∧
      e = { reply := (), writes := [.groupMembers (g, u) (some time)] } := by
  obtain ⟨-, htaken, rfl⟩ := insertRows_ok h
  exact ⟨by simpa using htaken, rfl⟩

/-- DELETE FROM groupMembers WHERE groupId = ? -/
def deleteMembers (groupId : ℤ) : Statement Unit := fun _ d =>
  .ok { reply := (), writes := (d.groupMembers.keysOf fun k _ =>
    decide (k.1 = groupId)).map (.groupMembers · none) }

theorem deleteMembers_ok (h : deleteMembers g n d = .ok e) :
    ∃ ks : List (ℤ × ℤ), (∀ k, k ∈ ks ↔ k.1 = g ∧ (d.groupMembers.get k).isSome) ∧
      e = { reply := (), writes := ks.map (.groupMembers · none) } := by
  cases h
  exact ⟨_, by simp [mem_keysOf, isSome_iff_exists, and_comm], rfl⟩

/-- DELETE FROM groupMembers WHERE groupId = ? AND uid = ? -/
def deleteMember (groupId uid : ℤ) : Statement Unit := fun _ d =>
  let found := (d.groupMembers.get (groupId, uid)).toList
  .ok { reply := (), writes := found.map fun _ => .groupMembers (groupId, uid) none }

theorem deleteMember_ok (h : deleteMember g u n d = .ok e) (hrow : (d.groupMembers.get (g, u)).isSome) :
    e = { reply := (), writes := [.groupMembers (g, u) none] } := by
  obtain ⟨row, hrow⟩ := isSome_iff_exists.1 hrow
  cases h
  simp [hrow]

/-- INSERT IGNORE INTO groupApplys (groupId, requestorUid, message, createTime) VALUES (…); the reply
    is the number of affected rows. -/
def insertIgnoreGroupApply (groupId uid : ℤ) (row : GroupApply) : Statement ℕ := fun _ d =>
  match d.groupApplys.get (groupId, uid) with
  | some _ => .ok { reply := 0 }
  | none => .ok { reply := 1, writes := [.groupApplys (groupId, uid) (some row.stored)] }

theorem insertIgnoreGroupApply_ok {row : GroupApply}
    {e : Effect Key Write ℕ} (h : insertIgnoreGroupApply g u row n d = .ok e) :
    e = { reply := 0 } ∨ d.groupApplys.get (g, u) = none ∧
      e = { reply := 1, writes := [.groupApplys (g, u) (some row.stored)] } := by
  rw [insertIgnoreGroupApply] at h
  split at h
  · cases h
    exact .inl rfl
  rename_i hnew
  cases h
  exact .inr ⟨hnew, rfl⟩

/-- SELECT 1 FROM groupApplys WHERE groupId = ? AND requestorUid = ? FOR UPDATE -/
def lockGroupApply (groupId uid : ℤ) : Statement Bool := fun _ d =>
  match d.groupApplys.get (groupId, uid) with
  | some _ => .ok { reply := true, reads := [exclusive (.groupApply groupId uid)] }
  | none => .ok { reply := false }

theorem lockGroupApply_ok {e : Effect Key Write Bool} (h : lockGroupApply g u n d = .ok e) :
    e = { reply := false } ∨ ∃ row, d.groupApplys.get (g, u) = some row ∧
      e = { reply := true, reads := [exclusive (.groupApply g u)] } := by
  rw [lockGroupApply] at h
  split at h <;> cases h
  · exact .inr ⟨_, ‹_›, rfl⟩
  · exact .inl rfl

/-- DELETE FROM groupApplys WHERE groupId = ? AND requestorUid = ? -/
def deleteGroupApply (groupId uid : ℤ) : Statement Unit := fun _ d =>
  let found := (d.groupApplys.get (groupId, uid)).toList
  .ok { reply := (), writes := found.map fun _ => .groupApplys (groupId, uid) none }

theorem deleteGroupApply_ok
    (h : deleteGroupApply g u n d = .ok e) (hrow : (d.groupApplys.get (g, u)).isSome) :
    e = { reply := (), writes := [.groupApplys (g, u) none] } := by
  obtain ⟨row, hrow⟩ := isSome_iff_exists.1 hrow
  cases h
  simp [hrow]

/-- DELETE FROM groupApplys WHERE groupId = ? -/
def deleteGroupApplys (groupId : ℤ) : Statement Unit := fun _ d =>
  .ok { reply := (), writes := (d.groupApplys.keysOf fun k _ =>
    decide (k.1 = groupId)).map (.groupApplys · none) }

theorem deleteGroupApplys_ok (h : deleteGroupApplys g n d = .ok e) :
    ∃ ks : List (ℤ × ℤ), (∀ k, k ∈ ks ↔ k.1 = g ∧ (d.groupApplys.get k).isSome) ∧
      e = { reply := (), writes := ks.map (.groupApplys · none) } := by
  cases h
  exact ⟨_, by simp [mem_keysOf, isSome_iff_exists, and_comm], rfl⟩

/-- SELECT gm.uid, COALESCE(ui.name, ''), gm.joinTime FROM groupMembers gm LEFT JOIN userInfo ui ON
    ui.uid = gm.uid WHERE gm.groupId = ? ORDER BY gm.joinTime, gm.uid -/
def memberRows (groupId : ℤ) (d : Db) : List (ℤ × String × String) :=
  ((d.groupMembers.rows.filter fun e => decide (e.1.1 = groupId)).map fun e =>
    (e.1.2, ((d.userInfo.get e.1.2).map UserInfo.name).getD "", e.2)).insertionSort
      fun e f => e.2.2 < f.2.2 ∨ e.2.2 = f.2.2 ∧ e.1 ≤ f.1

/-- SELECT requestorUid, message, createTime FROM groupApplys WHERE groupId = ? ORDER BY createTime,
    requestorUid -/
def applyRows (groupId : ℤ) (d : Db) : List (ℤ × GroupApply) :=
  ((d.groupApplys.rows.filter fun e => decide (e.1.1 = groupId)).map fun e =>
    (e.1.2, e.2)).insertionSort
      fun e f => e.2.createTime < f.2.createTime ∨ e.2.createTime = f.2.createTime ∧ e.1 ≤ f.1

end SQL

end Imm
