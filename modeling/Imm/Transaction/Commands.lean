import Imm.Transaction.Handlers
import Imm.Store.Runs

/-! What handling a command does to the store: which operations it submits, with which parameters,
    and what its response tells about them. The service is then one more system of sessions over the
    store, whose histories are histories of deeds (`Serves.history`). -/

namespace Imm

open Txn SQL MysqlStore

variable [Collation]

/-! ### Operations and responses -/

/-- The idempotency key of a request that sends a message. -/
def Request.clientMessageId : Request → Option String
  | .sendText _ _ k | .sendGroupText _ _ k | .sendFile _ _ k | .sendGroupFile _ _ k => some k
  | _ => none

/-- `Sends V q k receiver type content`: the request asks for a message with this receiver, type and
    content under the key `k`. A file is sent by the id it was found under. -/
inductive Sends (V : Versions) : Request → String → ℤ → MessageType → String → Prop
  | text (toUid : ℤ) (content k : String) : Sends V (.sendText toUid content k) k toUid .TEXT content
  | groupText (g : ℤ) (content k : String) : Sends V (.sendGroupText g content k) k g .TEXT content
  | file (toUid : ℤ) (k : String) {id : String} {file : FileObject}
      (hfile : ∃ v ∈ V, v.db.fileObjects.get (weight id) = some file) :
      Sends V (.sendFile toUid (some id) k) k toUid .FILE file.fileId
  | groupFile (g : ℤ) (k : String) {id : String} {file : FileObject}
      (hfile : ∃ v ∈ V, v.db.fileObjects.get (weight id) = some file) :
      Sends V (.sendGroupFile g (some id) k) k g .FILE file.fileId

/-- A file of `u` has been stored under the id `fileId`. -/
def OwnsFile (V : Versions) (u : ℤ) (fileId : String) : Prop :=
  ∃ v ∈ V, ∃ k file, v.db.fileObjects.get k = some file ∧ file.fileId = fileId ∧ file.ownerUid = u

/-- The command completes the upload of `file`: the File service says that it has the whole object. -/
def Command.Stores (c : Command) (file : FileInfo) : Prop :=
  0 < c.actorUid ∧ c.uploaded.status = .SUCCESS ∧
    ∃ packet offset data, c.request = .fileUpload packet (some file) offset data true

/-- Handling `c` may commit a deed of `o` on version `t`. An application is marked as agreed to only
    after the friendship has been stored. -/
inductive Issues (V : Versions) (t : ℕ) (c : Command) : Operation → Prop
  | direct {k : String} {receiver : ℤ} {type : MessageType} {content time : String}
      (hsends : Sends V c.request k receiver type content)
      (howns : type = .FILE → OwnsFile V c.actorUid content) :
      Issues V t c (.acceptDirectText ⟨c.actorUid, receiver, k, content, time, type⟩)
  | group {k : String} {receiver : ℤ} {type : MessageType} {content time : String} {ready : Bool}
      (hsends : Sends V c.request k receiver type content)
      (howns : type = .FILE → OwnsFile V c.actorUid content) :
      Issues V t c (.acceptGroupMessage ⟨c.actorUid, receiver, k, content, type, time, ready⟩)
  | receipt {op : AcknowledgeConversationMessage} (huid : op.uid = c.actorUid) :
      Issues V t c (.acknowledgeConversationMessage op)
  | addFriend {toUid : ℤ} {message : String} (hreq : c.request = .addFriend toUid message) :
      Issues V t c (.insertFriendApply c.actorUid toUid ⟨message, .Wait, ""⟩)
  | befriend {toUid f conversation : ℤ} {message time : String}
      (hreq : c.request = .replyFriend toUid (some true) message) (hpos : 0 < conversation) :
      Issues V t c (.insertFriend f conversation c.actorUid toUid time)
  | agree {toUid : ℤ} {message time : String}
      (hreq : c.request = .replyFriend toUid (some true) message)
      (hfriends : Befriended V c.actorUid toUid t) :
      Issues V t c (.updateFriendApplyStatus c.actorUid toUid ⟨message, .Agree, time⟩)
  | refuse {toUid : ℤ} {message time : String}
      (hreq : c.request = .replyFriend toUid (some false) message) :
      Issues V t c (.updateFriendApplyStatus c.actorUid toUid ⟨message, .Refuse, time⟩)
  | createGroup {g : ℤ} {group : GroupInfo} (hmaster : group.masterUid = c.actorUid)
      (hpos : 0 < group.conversationId) :
      Issues V t c (.createGroup g group)
  | joinGroup {g : ℤ} {message time : String} :
      Issues V t c (.requestGroupJoin g c.actorUid message time)
  | replyJoinGroup {g u : ℤ} {accept : Bool} {time : String}
      (hreq : c.request = .replyJoinGroup g u (some accept)) :
      Issues V t c (.replyGroupJoin g c.actorUid u accept time)
  | progress {packet : UploadPacket} {file : FileInfo} {offset : ℤ} {data : FileService.Bytes} {complete : Bool}
      (hreq : c.request = .fileUpload packet (some file) offset data complete)
      (hstatus : c.uploaded.status ≠ .FAILED) :
      Issues V t c (.saveFileUploadProgress c.actorUid file.fileId
        ⟨c.uploaded.nextOffset, decide (c.uploaded.status = .SUCCESS) && complete, c.clock 0⟩)
  | ready {file : FileInfo} (hstores : c.Stores file) : Issues V t c (.upsertReadyFile (Files.object c file))
  | quitGroup {g : ℤ} : Issues V t c (.removeGroupMember g c.actorUid c.actorUid true)
  | kickGroupMember {g u : ℤ} (hother : c.actorUid ≠ u) :
      Issues V t c (.removeGroupMember g c.actorUid u false)

/-- The commits of a command that began at version `b`: before it writes the row of a file, it looks at the
    owner. -/
def Works (V : Versions) (c : Command) (b t : ℕ) (x : Tx Key Write) : Prop :=
  ∃ o, Issues V t c o ∧ Does V o t x ∧
    ∀ file, o = .upsertReadyFile file → x.writes ≠ [] → OwnerSeen V file b t

/-- A message has been accepted: the response names it, and it is staged for delivery if it is not a
    duplicate. -/
def Took (V : Versions) (actorUid : ℤ) (k : String) (receiver : ℤ) (type : MessageType)
    (content : String) (response : Packet) (staged : Prop) (dn : Option ℕ) : Prop :=
  ∃ r : MessageAcceptResult, Accepted V actorUid receiver k type content r dn ∧
    response.payload = .sendMessage r.messageId r.conversationId r.conversationSeq ∧
    (staged ↔ r.duplicate = false)

/-- What a successful response tells. -/
structure Responds (V : Versions) (c : Command) (o : Outcome) (a : ℕ) (dn : Option ℕ) : Prop where
  sent : ∀ k, c.request.clientMessageId = some k → o.response.error = .Success →
    ∃ receiver type content, Sends V c.request k receiver type content ∧
      Took V c.actorUid k receiver type content o.response (o.deliveries ≠ []) dn
  applied : ∀ toUid message, c.request = .addFriend toUid message → o.response.error = .Success →
    Applied V c.actorUid toUid ⟨message, .Wait, ""⟩ a

/-! ### Each handler keeps to them -/

section handlers

variable {V : Versions} {J : ℕ → Prop} {C : ℕ → Tx Key Write → Prop} {α : Type} {a₀ b : ℕ}
  {dn₀ : Option ℕ}

variable {Q : α → Post Key Write} {k content message : String}
  {receiver toUid g : ℤ} {type : MessageType} {dn : Option ℕ}

theorem submit_ensures {x : Operating α}
    (h : Ensures V J C Q x a₀ none dn₀) : Ensures V J C Q (submit x) a₀ none dn₀ :=
  .bind (.ask fun _ => rethrowing_ensures h)

theorem generateId_ensures {Q : ℤ → Post Key Write}
    (h : ∀ id, 0 < id → Q id a₀ none dn₀) : Ensures V J C Q generateId a₀ none dn₀ :=
  .bind (.ask fun n => .pure (h _ (by omega)))

theorem submitFile_ensures {ρ : Type} {request : ρ} {answer : α} (h : Q answer a₀ none dn₀) :
    Ensures V J C Q (submitFile request answer) a₀ none dn₀ :=
  .bind (.ask fun _ => .pure h)

theorem issue_ensures {c : Command} {o : Operation} {Q' : α → Post Key Write} {x : Operating α}
    (hother : ∀ file, o ≠ .upsertReadyFile file) (h : Ensures V J (Does V o) Q x a₀ none dn₀)
    (hissues : ∀ t, a₀ ≤ t → Issues V t c o) (hQ : ∀ r a tx dn, Q r a tx dn → Q' r a tx dn) :
    Ensures V J (Works V c b) Q' (submit x) a₀ none dn₀ :=
  submit_ensures (h.mono (fun t _ ht hx => ⟨o, hissues t ht, hx, fun file e => absurd e (hother file)⟩) hQ)

/-- What the four handlers that accept a message promise. -/
def Takes (V : Versions) (c : Command) (k : String) (receiver : ℤ) (type : MessageType)
    (content : String) (accepted : AcceptedMessage) (dn : Option ℕ) : Prop :=
  accepted.response.error = .Success → Sends V c.request k receiver type content ∧
    Took V c.actorUid k receiver type content accepted.response (accepted.shouldForward = true) dn

theorem AcceptedMessage.takes_of {c : Command} {recipients : List ℤ} {push : Push} {r : MessageAcceptResult}
    (hsends : Sends V c.request k receiver type content)
    (h : r.error = .Success → Accepted V c.actorUid receiver k type content r dn) :
    Takes V c k receiver type content (.of r message recipients push) dn := by
  intro hok
  unfold AcceptedMessage.of at hok ⊢
  split
  · rename_i hsuccess
    exact ⟨hsends, r, h hsuccess, rfl, by simp⟩
  rename_i hfailed
  rw [if_neg hfailed] at hok
  exact absurd hok hfailed

theorem AcceptedMessage.takes_refused {c : Command} {error : ErrorCodes} (herror : error ≠ .Success) :
    Takes V c k receiver type content (.refused error message) dn :=
  fun hok => absurd hok herror

variable (hJ : ∀ j, J j → ∃ x : Tx Key Write, Commits V j x) (c : Command)

include hJ

theorem acceptText_ensures (hreq : c.request = .sendText toUid content k) :
    Ensures V J (Works V c b) (fun r _ _ dn => Takes V c k toUid .TEXT content r dn)
      (Messages.acceptText c toUid content k) a₀ none dn₀ := by
  have hsends : Sends V c.request k toUid .TEXT content := hreq ▸ .text toUid content k
  unfold Messages.acceptText
  split
  · exact .pure (AcceptedMessage.takes_refused (by simp))
  exact .bind (issue_ensures (by simp) (acceptDirectText_ensures hJ _) (fun _ _ => .direct hsends (by simp))
    fun _ _ _ _ h => .pure (AcceptedMessage.takes_of hsends h.2.1))

theorem acceptGroupText_ensures (hreq : c.request = .sendGroupText g content k) :
    Ensures V J (Works V c b) (fun r _ _ dn => Takes V c k g .TEXT content r dn)
      (Messages.acceptGroupText c g content k) a₀ none dn₀ := by
  have hsends : Sends V c.request k g .TEXT content := hreq ▸ .groupText g content k
  unfold Messages.acceptGroupText
  split
  · exact .pure (AcceptedMessage.takes_refused (by simp))
  exact .bind (issue_ensures (by simp) (acceptGroupMessage_ensures hJ _) (fun _ _ => .group hsends (by simp))
    fun _ _ _ _ h => .pure (AcceptedMessage.takes_of hsends fun hok => (h.2.1 hok).1))

theorem acceptFile_ensures {fileId : Option String} (hreq : c.request = .sendFile toUid fileId k) :
    Ensures V J (Works V c b) (fun r _ _ dn => ∃ content, Takes V c k toUid .FILE content r dn)
      (Messages.acceptFile c toUid fileId k) a₀ none dn₀ := by
  unfold Messages.acceptFile
  split
  · exact .pure ⟨"", AcceptedMessage.takes_refused (by simp)⟩
  rename_i id
  split
  · exact .pure ⟨"", AcceptedMessage.takes_refused (by simp)⟩
  refine .bind (submit_ensures ?_)
  refine (findReadyFile_ensures id c.actorUid (c.clock 0)).mono (fun _ _ _ h => h) ?_
  rintro r a _ dn ⟨rfl, hfile⟩
  split
  · exact .pure ⟨"", AcceptedMessage.takes_refused (by simp)⟩
  rename_i file
  obtain ⟨howner, v, hv, hrow⟩ := hfile file rfl
  have hsends : Sends V c.request k toUid .FILE file.fileId := hreq ▸ .file toUid k ⟨v, hv, hrow⟩
  exact .bind (issue_ensures (by simp) (acceptDirectText_ensures hJ _)
    (fun _ _ => .direct hsends fun _ => ⟨v, hv, _, file, hrow, rfl, howner⟩)
    fun _ _ _ _ h => .pure ⟨_, AcceptedMessage.takes_of hsends h.2.1⟩)

theorem acceptGroupFile_ensures {fileId : Option String} (hreq : c.request = .sendGroupFile g fileId k) :
    Ensures V J (Works V c b) (fun r _ _ dn => ∃ content, Takes V c k g .FILE content r dn)
      (Messages.acceptGroupFile c g fileId k) a₀ none dn₀ := by
  unfold Messages.acceptGroupFile
  split
  · exact .pure ⟨"", AcceptedMessage.takes_refused (by simp)⟩
  rename_i id
  split
  · exact .pure ⟨"", AcceptedMessage.takes_refused (by simp)⟩
  refine .bind (submit_ensures ?_)
  refine (findReadyFile_ensures id c.actorUid (c.clock 0)).mono (fun _ _ _ h => h) ?_
  rintro r a _ dn ⟨rfl, hfile⟩
  split
  · exact .pure ⟨"", AcceptedMessage.takes_refused (by simp)⟩
  rename_i file
  obtain ⟨howner, v, hv, hrow⟩ := hfile file rfl
  have hsends : Sends V c.request k g .FILE file.fileId := hreq ▸ .groupFile g k ⟨v, hv, hrow⟩
  exact .bind (issue_ensures (by simp) (acceptGroupMessage_ensures hJ _)
    (fun _ _ => .group hsends fun _ => ⟨v, hv, _, file, hrow, rfl, howner⟩)
    fun _ _ _ _ h => .pure ⟨_, AcceptedMessage.takes_of hsends fun hok => (h.2.1 hok).1⟩)

omit hJ in
theorem Takes.responds {accepted : AcceptedMessage} {a : ℕ} (hk : c.request.clientMessageId = some k)
    (h : Takes V c k receiver type content accepted dn) :
    Responds V c (Service.stageMessage c accepted) a dn where
  sent k' hk' hok := by
    cases hk.symm.trans hk'
    obtain ⟨hsends, r, haccepted, hpayload, hfresh⟩ := h hok
    refine ⟨receiver, type, content, hsends, r, haccepted, hpayload, Iff.trans ?_ hfresh⟩
    simp only [Service.stageMessage]
    split <;> simp_all
  applied toUid message hreq := by simp [hreq, Request.clientMessageId] at hk

theorem apply_ensures (hreq : c.request = .addFriend toUid message) :
    Ensures V J (Works V c b)
      (fun o a _ _ => o.response.error = .Success →
        Applied V c.actorUid toUid ⟨message, .Wait, ""⟩ a)
      (Friends.apply c toUid message) a₀ none dn₀ := by
  refine .bind (generateId_ensures fun _ _ => .bind ?_)
  refine issue_ensures (by simp) (insertFriendApply_ensures hJ _ _ _) (fun _ _ => .addFriend hreq) ?_
  rintro r a _ dn ⟨rfl, happlied⟩
  split
  · exact .pure (by simp)
  · exact .pure fun _ => happlied

theorem storeReply_ensures {accept : Bool} (hreq : c.request = .replyFriend toUid (some accept) message) :
    Ensures V J (Works V c b) (fun _ _ tx _ => tx = none) (Friends.storeReply c toUid accept message)
      a₀ none dn₀ := by
  cases accept with
  | false =>
    exact issue_ensures (by simp) (updateFriendApplyStatus_ensures hJ _ _ _) (fun _ _ => .refuse hreq)
      fun _ _ _ _ h => h
  | true =>
    refine .bind (generateId_ensures fun f _ => ?_)
    refine .bind (generateId_ensures fun conversation hpos => ?_)
    refine .bind (issue_ensures (by simp) (insertFriend_ensures hJ _ _ _ _ _)
      (fun _ _ => .befriend hreq hpos) ?_)
    rintro r a _ dn ⟨rfl, j, v, hj, hv, hfriends⟩
    split
    · exact .pure rfl
    exact issue_ensures (by simp) (updateFriendApplyStatus_ensures hJ _ _ _)
      (fun t ht => .agree hreq ⟨j, v, hj.trans ht, hv, hfriends⟩) fun _ _ _ _ h => h

/-- The other responses promise nothing, so their handlers only have to keep to what they issue. -/
abbrev Idly (V : Versions) (J : ℕ → Prop) (c : Command) (b : ℕ) (x : Operating α) (a₀ : ℕ) (dn₀ : Option ℕ) : Prop :=
  Ensures V J (Works V c b) (fun _ _ _ _ => True) x a₀ none dn₀

theorem acknowledge_works (seq conversationId conversationSeq : ℤ) (type : ReceiptType) :
    Idly V J c b
      (Messages.acknowledge c seq conversationId conversationSeq type) a₀ dn₀ := by
  unfold Messages.acknowledge
  split
  · exact .pure trivial
  refine .bind (issue_ensures (by simp) (acknowledge_ensures hJ _) (fun _ _ => .receipt rfl) ?_)
  intro r a tx dn _
  split <;> exact .pure trivial

omit hJ in
theorem pullConversation_works (conversationId afterSeq limit : ℤ) :
    Idly V J c b
      (Messages.pullConversation c conversationId afterSeq limit) a₀ dn₀ := by
  unfold Messages.pullConversation
  split
  · exact .pure trivial
  refine .bind (submit_ensures ((syncConversation_ensures _).mono (fun _ _ _ h => h) ?_))
  exact fun _ _ _ _ _ => .pure trivial

theorem reply_works {accept : Option Bool} (hreq : c.request = .replyFriend toUid accept message) :
    Idly V J c b (Friends.reply c toUid accept message) a₀ dn₀ := by
  unfold Friends.reply
  split
  · exact .pure trivial
  refine .bind (generateId_ensures fun _ _ => .bind ?_)
  refine (storeReply_ensures hJ c hreq).mono (fun _ _ _ h => h) fun r a tx dn _ => ?_
  split <;> exact .pure trivial

omit hJ in
theorem pullApplications_works :
    Idly V J c b (Friends.pullApplications c) a₀ dn₀ :=
  .bind (submit_ensures (.bind (.select fun _ _ _ _ =>
    .pure (.pure trivial))))

omit hJ in
theorem friendInfos_works (friendList : List FriendRecord) :
    Ensures V J C (fun _ _ _ _ => True) (Friends.friendInfos friendList) a₀ none dn₀ := by
  induction friendList generalizing a₀ with
  | nil => exact .pure trivial
  | cons friend friendList ih =>
    refine .bind (submit_ensures (.select fun t v _ _ => .bind ?_))
    exact ih.mono (fun _ _ _ h => h) fun _ _ _ _ _ => .pure trivial

omit hJ in
theorem pullFriends_works :
    Idly V J c b (Friends.pullFriends c) a₀ dn₀ := by
  refine .bind (submit_ensures (.bind (.select fun t v _ _ => .pure ?_)))
  exact .bind ((friendInfos_works _).mono (fun _ _ _ h => h) fun _ _ _ _ _ => .pure trivial)

theorem create_works (groupName : String) :
    Idly V J c b (Groups.create c groupName) a₀ dn₀ := by
  unfold Groups.create
  split
  · exact .pure trivial
  refine .bind (generateId_ensures fun g _ => ?_)
  refine .bind (generateId_ensures fun conversation hpos => ?_)
  exact .bind (issue_ensures (by simp) (createGroup_ensures hJ _ _) (fun _ _ => .createGroup rfl hpos)
    fun _ _ _ _ _ => .pure trivial)

theorem applyGroup_works (g : ℤ) (message : String) :
    Idly V J c b (Groups.apply c g message) a₀ dn₀ := by
  unfold Groups.apply
  split
  · exact .pure trivial
  exact .bind (issue_ensures (by simp) (requestGroupJoin_ensures hJ _ _ _ _) (fun _ _ => .joinGroup)
    fun _ _ _ _ _ => .pure trivial)

omit hJ in
theorem pullGroup_works (g : ℤ) :
    Idly V J c b (Groups.pull c g) a₀ dn₀ := by
  unfold Groups.pull
  split
  · exact .pure trivial
  refine .bind (submit_ensures ((pullGroup_ensures _ _).mono (fun _ _ _ h => h) ?_))
  exact fun _ _ _ _ _ => .pure trivial

theorem replyGroup_works {u : ℤ} {accept : Option Bool} (hreq : c.request = .replyJoinGroup g u accept) :
    Idly V J c b (Groups.reply c g u accept) a₀ dn₀ := by
  unfold Groups.reply
  split
  · exact .pure trivial
  split
  · exact .pure trivial
  exact .bind (issue_ensures (by simp) (replyGroupJoin_ensures hJ _ _ _ _ _)
    (fun _ _ => .replyJoinGroup hreq) fun _ _ _ _ _ => .pure trivial)

theorem quit_works (g : ℤ) :
    Idly V J c b (Groups.quit c g) a₀ dn₀ := by
  unfold Groups.quit
  split
  · exact .pure trivial
  exact .bind (issue_ensures (by simp) (removeGroupMember_ensures hJ _ _ _ _) (fun _ _ => .quitGroup)
    fun _ _ _ _ _ => .pure trivial)

theorem kick_works (g u : ℤ) :
    Idly V J c b (Groups.kick c g u) a₀ dn₀ := by
  unfold Groups.kick
  split
  · exact .pure trivial
  split
  · exact .pure trivial
  rename_i hother
  exact .bind (issue_ensures (by simp) (removeGroupMember_ensures hJ _ _ _ _)
    (fun _ _ => .kickGroupMember hother) fun _ _ _ _ _ => .pure trivial)

theorem upload_works {packet : UploadPacket} {file : Option FileInfo} {offset : ℤ} {data : FileService.Bytes}
    {complete : Bool} (hreq : c.request = .fileUpload packet file offset data complete) (hb : b ≤ a₀) :
    Idly V J c b (Files.upload c packet file offset data complete)
      a₀ dn₀ := by
  unfold Files.upload
  split
  · exact .pure trivial
  rename_i file
  split
  · exact .pure trivial
  rename_i hactor
  refine .bind (submitFile_ensures ?_)
  split
  · rename_i hstatus
    refine .bind (issue_ensures (by simp) (saveFileUploadProgress_ensures hJ _ _ _).onward
      (fun _ _ => .progress hreq hstatus) ?_)
    rintro r a _ dn ⟨ha, rfl⟩
    split
    · exact .pure trivial
    split
    · rename_i hcomplete
      rw [Bool.and_eq_true, decide_eq_true_eq] at hcomplete
      have hstores : c.Stores file :=
        ⟨Int.not_le.1 hactor, hcomplete.1, packet, offset, data, hcomplete.2 ▸ hreq⟩
      refine .bind (submit_ensures ((upsertReadyFile_ensures hJ _).mono ?_ ?_))
      · rintro t x - ⟨hdoes, hseen⟩
        refine ⟨_, .ready hstores, hdoes, ?_⟩
        rintro _ ⟨⟩ hw
        obtain ⟨i, v, hi, hit, hv, howner⟩ := hseen hw
        exact ⟨i, v, by omega, hit, hv, howner⟩
      · intro r a tx dn _
        split <;> exact .pure trivial
    · exact .pure trivial
  · exact .pure trivial

omit hJ in
theorem download_works (fileId : Option String) (offset limit : ℤ) :
    Idly V J c b (Files.download c fileId offset limit) a₀ dn₀ := by
  unfold Files.download
  split
  · exact .pure trivial
  split
  · exact .pure trivial
  refine .bind (submit_ensures (.select fun t v _ _ => ?_))
  split
  · exact .pure trivial
  refine .bind (submitFile_ensures ?_)
  split <;> exact .pure trivial

/-- A command commits nothing but what it issues, and its response is right. -/
theorem handle_ensures (hb : b ≤ a₀) :
    Ensures V J (Works V c b) (fun o a _ dn => Responds V c o a dn) (Service.handle c) a₀ none dn₀ := by
  have silent : ∀ {x : Operating Outcome}, c.request.clientMessageId = none →
      (∀ toUid message, c.request ≠ .addFriend toUid message) →
      Ensures V J (Works V c b) (fun _ _ _ _ => True) x a₀ none dn₀ →
      Ensures V J (Works V c b) (fun o a _ dn => Responds V c o a dn) x a₀ none dn₀ :=
    fun hk hreq h => h.mono (fun _ _ _ h => h) fun _ _ _ _ _ =>
      ⟨fun k h => by simp [hk] at h, fun toUid message h => absurd h (hreq _ _)⟩
  unfold Service.handle
  cases hreq : c.request with
  | sendText toUid content k =>
    refine .bind ((acceptText_ensures hJ c hreq).mono (fun _ _ _ h => h) fun r a tx dn h => ?_)
    exact .pure (h.responds c (by rw [hreq]; rfl))
  | sendGroupText g content k =>
    refine .bind ((acceptGroupText_ensures hJ c hreq).mono (fun _ _ _ h => h) fun r a tx dn h => ?_)
    exact .pure (h.responds c (by rw [hreq]; rfl))
  | sendFile toUid fileId k =>
    refine .bind ((acceptFile_ensures hJ c hreq).mono (fun _ _ _ h => h) ?_)
    rintro r a tx dn ⟨content, h⟩
    exact .pure (h.responds c (by rw [hreq]; rfl))
  | sendGroupFile g fileId k =>
    refine .bind ((acceptGroupFile_ensures hJ c hreq).mono (fun _ _ _ h => h) ?_)
    rintro r a tx dn ⟨content, h⟩
    exact .pure (h.responds c (by rw [hreq]; rfl))
  | addFriend toUid message =>
    refine (apply_ensures hJ c hreq).mono (fun _ _ _ h => h) fun o a tx dn h => ?_
    refine ⟨fun k hk => by simp [hreq, Request.clientMessageId] at hk, fun toUid' message' h' hok => ?_⟩
    obtain ⟨rfl, rfl⟩ : toUid = toUid' ∧ message = message' := by simpa [hreq] using h'
    exact h hok
  | receipt seq conversationId conversationSeq type =>
    exact silent (by rw [hreq]; rfl) (by simp [hreq]) (acknowledge_works hJ c _ _ _ _)
  | pullConversationMessages conversationId afterSeq limit =>
    exact silent (by rw [hreq]; rfl) (by simp [hreq]) (pullConversation_works c _ _ _)
  | replyFriend toUid accept message =>
    exact silent (by rw [hreq]; rfl) (by simp [hreq]) (reply_works hJ c hreq)
  | pullFriendList => exact silent (by rw [hreq]; rfl) (by simp [hreq]) (pullFriends_works c)
  | pullFriendApplyList => exact silent (by rw [hreq]; rfl) (by simp [hreq]) (pullApplications_works c)
  | createGroup name => exact silent (by rw [hreq]; rfl) (by simp [hreq]) (create_works hJ c _)
  | joinGroup g message => exact silent (by rw [hreq]; rfl) (by simp [hreq]) (applyGroup_works hJ c _ _)
  | replyJoinGroup g u accept =>
    exact silent (by rw [hreq]; rfl) (by simp [hreq]) (replyGroup_works hJ c hreq)
  | pullGroupMembers g => exact silent (by rw [hreq]; rfl) (by simp [hreq]) (pullGroup_works c _)
  | quitGroup g => exact silent (by rw [hreq]; rfl) (by simp [hreq]) (quit_works hJ c _)
  | kickGroupMember g u => exact silent (by rw [hreq]; rfl) (by simp [hreq]) (kick_works hJ c _ _)
  | fileUpload packet file offset data complete =>
    exact silent (by rw [hreq]; rfl) (by simp [hreq]) (upload_works hJ c hreq hb)
  | fileDownload fileId offset limit =>
    exact silent (by rw [hreq]; rfl) (by simp [hreq]) (download_works c _ _ _)

theorem process_wp (b : ℕ) :
    wp V J (Works V c b) (fun o a _ dn => Responds V c o a dn) (Service.process c) b none none := by
  have failed : ∀ {o : Outcome} {a : ℕ} {dn : Option ℕ}, o.response.error ≠ .Success →
      Responds V c o a dn := fun hne => ⟨fun _ _ hok => absurd hok hne, fun _ _ _ hok => absurd hok hne⟩
  refine Ensures.outcome (Ensures.bind (Ensures.ask fun n => ?_)) fun e a tx dn => failed ?_
  · split
    · exact .pure (failed (by simp))
    · exact handle_ensures hJ c (Nat.le_refl b)
  · simp only
    split <;> simp

end handlers

/-! ### Runs of the service -/

/-- A run of the service from the rows `d`. -/
def Serves (d : Db) (s : ServiceStore) : Prop :=
  ∃ evs : List (Event Command), (Sys.init d).run Service.process evs = some s

variable {d : Db} {s s' : ServiceStore} {ev : Event Command}

theorem Serves.first (h : Serves d s) : s.versions[0]? = some ⟨d, []⟩ := by
  obtain ⟨evs, hrun⟩ := h
  obtain ⟨rest, hrest⟩ := Sys.versions_run hrun
  rw [← hrest]
  rfl

theorem Serves.next (h : Serves d s) (hs : s.step Service.process ev = some s') : Serves d s' := by
  obtain ⟨evs, hrun⟩ := h
  refine ⟨evs ++ [ev], ?_⟩
  rw [Sys.run, List.foldlM_append]
  exact (congrArg (· >>= _) hrun).trans (by simp [hs])

theorem Serves.coherent (h : Serves d s) :
    Coherent s.versions (fun c => Works s.versions c)
      (fun c _ o a _ dn => Responds s.versions c o a dn) s := by
  obtain ⟨evs, hrun⟩ := h
  exact run_spec hrun fun c b => process_wp (fun _ => Made.commits) c b

/-- Every version was made by a command that had begun by then. -/
theorem Serves.maker (hrun : Serves d s) {t : ℕ} {u v : Version Db Key}
    (hu : s.versions[t]? = some u) (hv : s.versions[t + 1]? = some v) :
    ∃ σ ∈ s.sessions, σ.began ≤ t ∧ ∃ o ws, Issues s.versions t σ.op o ∧
      Deed s.versions t u.db v.locks o ws ∧ v.db = applyAll ws u.db ∧
      ∀ file, o = .upsertReadyFile file → ws ≠ [] → OwnerSeen s.versions file σ.began t := by
  have ht : t < s.now := by
    have hlt := (List.getElem?_eq_some_iff.1 hv).1
    simpa [Sys.versions, Sys.now] using hlt
  obtain ⟨σ, hσ, hbegan, x, hcommits, o, hissues, ⟨w, hw, hdeed⟩, hseen⟩ := hrun.coherent.maker t ht
  obtain ⟨w', hw', hmade⟩ := hcommits.made
  cases hu.symm.trans hw
  cases hu.symm.trans hw'
  cases hv.symm.trans hmade
  exact ⟨σ, hσ, hbegan, o, x.writes, hissues, hdeed, rfl, hseen⟩

/-- One more event of a run: the rows stay, or an action of a command has committed one of its deeds. -/
theorem Serves.step (hrun : Serves d s)
    (hs : s.step Service.process ev = some s') : s'.cur = s.cur ∨ ∃ i n σ o ws, ev = .act i n ∧
      s.sessions[i]? = some σ ∧ Issues s'.versions s.now σ.op o ∧
      Deed s'.versions s.now s.cur.db s'.cur.locks o ws ∧ s'.cur.db = applyAll ws s.cur.db := by
  obtain ⟨evs, hrun⟩ := hrun
  rcases step_spec hrun hs
    fun c b => process_wp (fun _ => Made.commits) c b with hsame | ⟨i, n, σ, x, rfl, hi, hnext, -, hworks⟩
  · exact .inl (Sys.cur_of_versions hsame)
  obtain ⟨o, hissues, ⟨v, hv, hdeed⟩, -⟩ := hworks
  obtain rfl : s.cur = v := by
    rw [hnext, List.getElem?_append_left (List.getElem?_eq_some_iff.1 s.cur_now).1] at hv
    exact Option.some.inj (s.cur_now.symm.trans hv)
  rw [Sys.cur_of_versions hnext]
  exact .inr ⟨i, n, σ, o, x.writes, rfl, hi, hissues, hdeed, rfl⟩

/-- An operation that some command issues. -/
def Issued (V : Versions) (o : Operation) : Prop := ∃ t c, Issues V t c o

theorem Serves.versions_step (hrun : Serves d s) (hs : s.step Service.process ev = some s') :
    s'.versions = s.versions ∨ s'.versions = s.versions ++ [s'.cur] := by
  obtain ⟨evs, hrun⟩ := hrun
  rcases step_spec hrun hs
    fun c b => process_wp (fun _ => Made.commits) c b with hsame | ⟨_, _, _, _, -, -, hnext, -⟩
  · exact .inl hsame
  · exact .inr (Sys.cur_of_versions hnext ▸ hnext)

theorem Serves.history (h : Serves d s) :
    History (Issued s.versions) s.versions := by
  intro j hj
  obtain ⟨c, -, x, hc, o, hissues, hdoes, -⟩ := h.coherent.made j (by simpa [Sys.versions, Sys.now] using hj)
  exact ⟨o, x, ⟨j, c, hissues⟩, hc, hdoes⟩

end Imm
