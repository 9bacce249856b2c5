import Imm.Link.Message
import Imm.Transaction.Applications
import Imm.Transaction.Sharing
import Imm.Transaction.Undisturbed

/-! Which errors a client may hope to get past by sending the command again. `service::process` reports every
    exception as `DependencyUnavailable`, and the store reports some of them as `MysqlFailed`; both count as
    retryable. But an INSERT whose key is taken and a text that does not fit its column throw as well, and
    they throw again whenever the command is repeated. So do a file of somebody else under the same id and a
    download that the File service refuses, which have retryable codes of their own.

    `Hindered` says for each request which of these can happen, and `Reaches` that the command gets as far as
    that. What the other statements of a command need is there in every database that the service has made
    (`Serves.sound`): a group has its conversation, an applicant is no member, and the next number of a
    conversation is free. -/

namespace Imm

open Txn SQL MysqlStore Steps Option

variable [Collation]

/-- The upload can be recorded: the File's answer is a position, the texts fit, and the id is not somebody
    else's. -/
structure Storable (d : Db) (c : Command) (file : FileInfo) (complete : Bool) : Prop where
  progress : (varchar 36 file.fileId).length ≤ 36 ∧ 0 ≤ c.uploaded.nextOffset
  file : c.uploaded.status = .SUCCESS → complete = true → (Files.object c file).Recordable d

theorem FileObject.Recordable.of_files {file : FileObject} {d d' : Db} (h : file.Recordable d)
    (hsame : d'.fileObjects = d.fileObjects) : file.Recordable d' :=
  ⟨h.fits, by rw [hsame]; exact h.owner⟩

/-- A statement of the command is refused by a key or a column, or the File service refuses it. -/
def Hindered (d : Db) (c : Command) : Prop :=
  match c.request with
  | .sendText _ content key | .sendGroupText _ content key =>
    duplicateMessage c.actorUid key d = none ∧ ¬ TextsFit key content
  | .sendFile _ fileId key | .sendGroupFile _ fileId key =>
    duplicateMessage c.actorUid key d = none ∧ ∀ id ∈ fileId, ∀ file,
      d.fileObjects.get (weight id) = some file → ¬ TextsFit key file.fileId
  | .addFriend toUid message => ¬ d.ClearApplication c.actorUid toUid message
  | .replyFriend toUid accept message =>
    (accept = some true ∧ ¬ d.Joinable c.actorUid toUid) ∨ d.Overlong c.actorUid toUid message
  | .createGroup name => 128 < (varchar 128 name).length
  | .fileUpload _ file _ _ complete => ∃ info ∈ file, ¬ Storable d c info complete
  | .fileDownload _ _ _ => c.downloaded.status = .FAILED
  | _ => False

/-- The handler gets as far as the statement or the call. -/
def Reaches (d : Db) (c : Command) : Prop :=
  match c.request with
  | .sendText toUid content key => (0 < c.actorUid ∧ 0 < toUid ∧ content ≠ "" ∧ key ≠ "") ∧
      (friendConversation (min c.actorUid toUid) (max c.actorUid toUid) d).isSome
  | .sendGroupText g content key => (0 < c.actorUid ∧ 0 < g ∧ content ≠ "" ∧ key ≠ "") ∧
      (d.groupInfo.get g).isSome ∧ (d.groupMembers.get (g, c.actorUid)).isSome
  | .sendFile toUid fileId key => (0 < c.actorUid ∧ 0 < toUid ∧ key ≠ "") ∧
      (friendConversation (min c.actorUid toUid) (max c.actorUid toUid) d).isSome ∧
      ∃ id ∈ fileId, (readyFile id c.actorUid (c.clock 0) d).isSome
  | .sendGroupFile g fileId key => (0 < c.actorUid ∧ 0 < g ∧ key ≠ "") ∧
      ((d.groupInfo.get g).isSome ∧ (d.groupMembers.get (g, c.actorUid)).isSome) ∧
      ∃ id ∈ fileId, ∃ file, readyFile id c.actorUid (c.clock 0) d = some file ∧
        (readyFile file.fileId c.actorUid (c.clock 1) d).isSome
  | .replyFriend _ accept _ => accept.isSome
  | .createGroup name => 0 < c.actorUid ∧ name ≠ ""
  | .fileUpload _ file _ _ _ => file.isSome ∧ 0 < c.actorUid ∧ c.uploaded.status ≠ .FAILED
  | .fileDownload fileId _ _ => 0 < c.actorUid ∧
      ∃ id ∈ fileId, id ≠ "" ∧ (downloadableFile id c.actorUid (c.clock 0) d).isSome
  | _ => True

/-- The command fails for a reason that will not go away. -/
def Stuck (d : Db) (c : Command) : Prop := Reaches d c ∧ Hindered d c

/-- When the command is repeated the clock has moved on. -/
theorem Hindered.clock {d : Db} {c : Command} (h : Hindered d c) (clock : ℕ → String) :
    Hindered d { c with clock } := by
  unfold Hindered at h ⊢
  cases hreq : c.request <;> simp only [hreq] at h ⊢ <;> try exact h
  obtain ⟨info, hinfo, hnot⟩ := h
  exact ⟨info, hinfo, fun hs => hnot ⟨hs.progress, fun hs' hc => ⟨⟨(hs.file hs' hc).fits.id,
    (hs.file hs' hc).fits.name, (hs.file hs' hc).fits.type, (hs.file hs' hc).fits.hash,
    (hs.file hs' hc).fits.owner, (hs.file hs' hc).fits.size⟩, (hs.file hs' hc).owner⟩⟩⟩

/-- A database that the service has made. -/
structure Db.Kept (d : Db) : Prop where
  sound : d.Sound
  positive : ∀ c, (d.conversations.get c).isSome → 0 < c

omit [Collation] in
theorem Db.Kept.numbered {d : Db} (h : d.Kept) : d.Numbered where
  conversation c conv hconv := (h.positive c (by rw [hconv]; rfl)).le
  latest c conv m row hconv hm hc := ((h.sound.gapless c conv hconv).1 m row hm hc).2

omit [Collation] in
theorem Db.Kept.rooms {d : Db} (h : d.Kept) (g : ℤ) (gi : GroupInfo) (hgroup : d.groupInfo.get g = some gi) :
    (d.conversations.get gi.conversationId).isSome := by
  obtain ⟨conv, hconv, -⟩ := (h.sound.aligned.conversation g gi hgroup gi.conversationId).2 rfl
  rw [hconv]
  rfl

theorem Serves.kept {d : Db} {s : ServiceStore} (h : Serves d s) (hd : d.Kept) : s.cur.db.Kept where
  sound := h.sound hd.sound s.cur_now
  positive := by
    refine h.history.onwards (P := fun d => ∀ c, (d.conversations.get c).isSome → 0 < c) ?_ (Nat.zero_le _) h.first
      s.cur_now hd.positive
    intro _ _ _ _ _ _ _ ⟨_, _, hissues⟩ hdeed hpos c hc
    rcases hdeed.conversation_origin hc with hold | hopens
    · exact hpos c hold
    · exact hissues.opens hopens

/-! ### Handlers -/

/-- What one handling of the command does, alone on `d`: it leaves `d'`. -/
structure Handled (c : Command) (d : Db) (o : Outcome) (d' : Db) (ws : Option (List Write)) : Prop where
  ended : ws = none
  retryable : isRetryableError o.response.error = true ↔ Stuck d c
  succeeded : o.response.error = .Success → ¬ Hindered d c
  lasting : Stuck d c → Hindered d' c

/-- An exception reaches `service::process`. -/
structure Thrown (c : Command) (d d' : Db) (ws : Option (List Write)) : Prop where
  ended : ws = none
  refused : Stuck d c
  lasting : Hindered d' c

section handlers

variable {c : Command} {d d' : Db} {o : Outcome}

theorem Thrown.handled {ws : Option (List Write)} (h : Thrown c d d' ws) {error : ErrorCodes}
    (herror : error = .ResourceExhausted ∨ error = .DependencyUnavailable) :
    Handled c d { response := { error } } d' ws where
  ended := h.ended
  retryable := by rcases herror with rfl | rfl <;> exact iff_of_true rfl h.refused
  succeeded := by rcases herror with rfl | rfl <;> simp
  lasting _ := h.lasting

theorem Handled.early (hfar : ¬ Reaches d c) (hfinal : isRetryableError o.response.error = false)
    (hfail : o.response.error ≠ .Success) : Handled c d o d none :=
  ⟨rfl, by simp [hfinal, Stuck, hfar], fun h => absurd h hfail, fun h => absurd h.1 hfar⟩

theorem Handled.clear (hclear : ¬ Hindered d c) (hfinal : isRetryableError o.response.error = false) :
    Handled c d o d' none :=
  ⟨rfl, by simp [hfinal, Stuck, hclear], fun _ => hclear, fun h => absurd h.2 hclear⟩

omit [Collation] in
theorem AcceptedMessage.of_error (r : MessageAcceptResult) (message : String) (recipients : List ℤ) (push : Push) :
    (AcceptedMessage.of r message recipients push).response.error = r.error := by
  unfold AcceptedMessage.of
  split
  · rename_i h
    exact h.symm
  · rfl

/-- What the answer `error` of the store says: `unfit` that the message could not be stored, and `known` that
    there is one already. -/
structure Resolves (unfit known fits : Prop) (error : ErrorCodes) (d d' : Db) : Prop where
  retryable : isRetryableError error = true ↔ unfit
  succeeded : error = .Success → known ∨ fits
  same : unfit → d' = d

omit [Collation] in
theorem Resolves.fine {unfit known fits : Prop} {error : ErrorCodes} (hnot : ¬ unfit)
    (hfinal : isRetryableError error = false) (hsuccess : error = .Success → known ∨ fits) :
    Resolves unfit known fits error d d' :=
  ⟨by simp [hfinal, hnot], hsuccess, fun h => absurd h hnot⟩

theorem SendsDirect.resolves {op : AcceptDirectText} {r : MessageAcceptResult} (h : SendsDirect op d r d') :
    Resolves (op.Unfit d) (duplicateMessage op.senderId op.clientMessageId d ≠ none)
      (TextsFit op.clientMessageId op.content) r.error d d' := by
  cases h with
  | strangers hnone => exact .fine (fun h => by simpa [hnone] using h.friends) rfl (by simp)
  | conflict hfriends hstored => exact .fine (fun h => by simpa [hstored] using h.fresh) rfl (by simp)
  | duplicate us hfriends hstored =>
    exact .fine (fun h => by simpa [hstored] using h.fresh) rfl fun _ => .inl (by simp [hstored])
  | unfit herror hunfit => exact ⟨iff_of_true (by rw [herror]; rfl) hunfit, by simp [herror], fun _ => rfl⟩
  | fresh us hfriends hconv hnew hn hfits => exact .fine (fun h => h.texts hfits) rfl fun _ => .inr hfits

theorem SendsGroup.resolves {op : AcceptGroupMessage} {r : GroupMessageAcceptResult} (h : SendsGroup op d r d') :
    Resolves (op.Unfit d) (duplicateMessage op.senderId op.clientMessageId d ≠ none)
      (TextsFit op.clientMessageId op.content) r.error d d' := by
  cases h with
  | refused herror hclosed =>
    rcases herror with herror | herror <;>
      exact .fine (fun h => h.admitted.elim hclosed) (by rw [herror]; rfl) (by simp [herror])
  | conflict herror hopen hstored =>
    exact .fine (fun h => by simpa [hstored] using h.fresh) (by rw [herror]; rfl) (by simp [herror])
  | duplicate uids hopen hstored =>
    exact .fine (fun h => by simpa [hstored] using h.fresh) rfl fun _ => .inl (by simp [hstored])
  | unfit herror hunfit => exact ⟨iff_of_true (by rw [herror]; rfl) hunfit, by simp [herror], fun _ => rfl⟩
  | fresh uids hopen hconv hnew hn hfits => exact .fine (fun h => h.texts hfits) rfl fun _ => .inr hfits

/-- A message that was accepted or not is staged. -/
abbrev Staged (c : Command) (d : Db) (a : AcceptedMessage) : Rest :=
  Handled c d (Service.stageMessage c a)

theorem Resolves.handled {unfit known fits : Prop} {a : AcceptedMessage}
    (h : Resolves unfit known fits a.response.error d d') (hrefused : Stuck d c ↔ unfit)
    (hhinder : Hindered d c → ¬ known ∧ ¬ fits) : Staged c d a d' none where
  ended := rfl
  retryable := h.retryable.trans hrefused.symm
  succeeded hsuccess hb := (h.succeeded hsuccess).elim (hhinder hb).1 (hhinder hb).2
  lasting hr := by rw [h.same (hrefused.1 hr)]; exact hr.2

theorem refused_handled {E : Rest} {error : ErrorCodes} {message : String}
    (hfar : ¬ Reaches d c) (hfinal : isRetryableError error = false) (hfail : error ≠ .Success) :
    Safe Unused E (Staged c d) (pure (.refused error message)) d none :=
  .pure (.early hfar hfinal hfail)

theorem stage_handled {E : Rest} {x : Operating AcceptedMessage} (hx : Safe Unused E (Staged c d) x d none) :
    Safe Unused E (Handled c d) (do pure (Service.stageMessage c (← x))) d none :=
  .bind (hx.imp fun _ _ _ h => .pure h)

theorem direct_handled (hd : d.Kept) {op : AcceptDirectText} (hsender : 0 ≤ op.senderId)
    (hreceiver : 0 ≤ op.receiverId) (hrefused : Stuck d c ↔ op.Unfit d)
    (hhinder : Hindered d c → duplicateMessage op.senderId op.clientMessageId d = none ∧
      ¬ TextsFit op.clientMessageId op.content)
    {f : MessageAcceptResult → AcceptedMessage} (hf : ∀ r, (f r).response.error = r.error) :
    Safe Unused (Thrown c d) (Staged c d)
      (do pure (f (← submit (acceptDirectText op)))) d none := by
  refine .bind (submit_safe ((acceptDirectText_safe (fun _ _ h => h.message) hd.numbered hsender hreceiver).imp ?_))
  rintro r d' _ ⟨rfl, hsends⟩
  have hresolves := hsends.resolves
  rw [← hf r] at hresolves
  exact .pure (hresolves.handled hrefused fun h => (hhinder h).imp (fun h h' => h' h) id)

theorem group_handled (hd : d.Kept) {op : AcceptGroupMessage} (hsender : 0 ≤ op.senderId) (hgroup : 0 ≤ op.groupId)
    (hrefused : Stuck d c ↔ op.Unfit d)
    (hhinder : Hindered d c → duplicateMessage op.senderId op.clientMessageId d = none ∧
      ¬ TextsFit op.clientMessageId op.content)
    {f : GroupMessageAcceptResult → AcceptedMessage} (hf : ∀ r, (f r).response.error = r.error) :
    Safe Unused (Thrown c d) (Staged c d)
      (do pure (f (← submit (acceptGroupMessage op)))) d none := by
  refine .bind (submit_safe
    ((acceptGroupMessage_safe (fun _ _ h => h.message) hd.numbered hsender hgroup hd.rooms).imp ?_))
  rintro r d' _ ⟨rfl, hsends⟩
  have hresolves := hsends.resolves
  rw [← hf r] at hresolves
  exact .pure (hresolves.handled hrefused fun h => (hhinder h).imp (fun h h' => h' h) id)

variable {toUid : ℤ} {key : String} {fileId : Option String}

theorem acceptText_handled (hd : d.Kept) {content : String} (hreq : c.request = .sendText toUid content key) :
    Safe Unused (Thrown c d) (Staged c d)
      (Messages.acceptText c toUid content key) d none := by
  unfold Messages.acceptText
  split
  · rename_i hinvalid
    refine refused_handled (fun h => ?_) rfl (by simp)
    simp only [Reaches, hreq] at h
    exact absurd hinvalid (by simp [h])
  · rename_i hvalid
    refine direct_handled hd (by dsimp only; omega) (by dsimp only; omega) ⟨fun h => ?_, fun h => ?_⟩ ?_
      fun r => AcceptedMessage.of_error ..
    · simp only [Stuck, Reaches, Hindered, hreq] at h
      exact ⟨h.1.2, h.2.1, h.2.2⟩
    · simp only [Stuck, Reaches, Hindered, hreq]
      simp only [not_or, not_le] at hvalid
      exact ⟨⟨hvalid, h.friends⟩, h.fresh, h.texts⟩
    · simp [Hindered, hreq]

theorem acceptGroupText_handled (hd : d.Kept) {g : ℤ} {content : String}
    (hreq : c.request = .sendGroupText g content key) :
    Safe Unused (Thrown c d) (Staged c d)
      (Messages.acceptGroupText c g content key) d none := by
  unfold Messages.acceptGroupText
  split
  · rename_i hinvalid
    refine refused_handled (fun h => ?_) rfl (by simp)
    simp only [Reaches, hreq] at h
    exact absurd hinvalid (by simp [h])
  · rename_i hvalid
    refine group_handled hd (by dsimp only; omega) (by dsimp only; omega) ⟨fun h => ?_, fun h => ?_⟩ ?_
      fun r => AcceptedMessage.of_error ..
    · simp only [Stuck, Reaches, Hindered, hreq] at h
      obtain ⟨gi, hgroup⟩ := isSome_iff_exists.1 h.1.2.1
      exact ⟨⟨_, ⟨gi, hgroup, rfl⟩, h.1.2.2, by simp⟩, h.2.1, h.2.2⟩
    · simp only [Stuck, Reaches, Hindered, hreq]
      simp only [not_or, not_le] at hvalid
      obtain ⟨⟨_, ⟨gi, hgroup, -⟩, hmember, -⟩, hfresh, htexts⟩ := h
      exact ⟨⟨hvalid, by simp_all, hmember⟩, hfresh, htexts⟩
    · simp [Hindered, hreq]

theorem readyFile_get {id : String} {u : ℤ} {now : String} {file : FileObject}
    (h : readyFile id u now d = some file) : d.fileObjects.get (weight id) = some file :=
  (filter_eq_some_iff.1 h).1

/-- What a file message holds is the id of the file that is ready. -/
theorem hindered_file {id : String} {file : FileObject}
    (hreq : (∃ toUid, c.request = .sendFile toUid (some id) key) ∨ ∃ g, c.request = .sendGroupFile g (some id) key)
    (hfile : d.fileObjects.get (weight id) = some file) :
    Hindered d c ↔ duplicateMessage c.actorUid key d = none ∧ ¬ TextsFit key file.fileId := by
  rcases hreq with ⟨_, hreq⟩ | ⟨_, hreq⟩ <;> simp [Hindered, hreq, hfile]

theorem acceptFile_handled (hd : d.Kept) (hreq : c.request = .sendFile toUid fileId key) :
    Safe Unused (Thrown c d) (Staged c d)
      (Messages.acceptFile c toUid fileId key) d none := by
  unfold Messages.acceptFile
  split
  · exact refused_handled (by simp [Reaches, hreq]) rfl (by simp)
  rename_i id
  split
  · rename_i hinvalid
    refine refused_handled (fun h => ?_) rfl (by simp)
    simp only [Reaches, hreq] at h
    exact absurd hinvalid (by simp [h])
  rename_i hvalid
  refine .bind (submit_safe (.select ?_))
  simp only [getD_none, applyAll_nil]
  split
  · rename_i hnone
    refine refused_handled (fun h => ?_) rfl (by simp)
    simp [Reaches, hreq, hnone] at h
  rename_i file hready
  have hhinder := hindered_file (.inl ⟨toUid, hreq⟩) (readyFile_get hready)
  refine direct_handled hd (by dsimp only; omega) (by dsimp only; omega) ⟨fun h => ?_, fun h => ?_⟩ hhinder.1
    fun r => AcceptedMessage.of_error ..
  · have hreach := h.1
    simp only [Reaches, hreq] at hreach
    exact ⟨hreach.2.1, (hhinder.1 h.2).1, (hhinder.1 h.2).2⟩
  · simp only [not_or, not_le] at hvalid
    refine ⟨?_, hhinder.2 ⟨h.fresh, h.texts⟩⟩
    simp only [Reaches, hreq]
    exact ⟨hvalid, h.friends, id, rfl, by simp [hready]⟩

theorem acceptGroupFile_handled (hd : d.Kept) {g : ℤ} (hreq : c.request = .sendGroupFile g fileId key) :
    Safe Unused (Thrown c d) (Staged c d)
      (Messages.acceptGroupFile c g fileId key) d none := by
  unfold Messages.acceptGroupFile
  split
  · exact refused_handled (by simp [Reaches, hreq]) rfl (by simp)
  rename_i id
  split
  · rename_i hinvalid
    refine refused_handled (fun h => ?_) rfl (by simp)
    simp only [Reaches, hreq] at h
    exact absurd hinvalid (by simp [h])
  rename_i hvalid
  refine .bind (submit_safe (.select ?_))
  simp only [getD_none, applyAll_nil]
  split
  · rename_i hnone
    refine refused_handled (fun h => ?_) rfl (by simp)
    simp [Reaches, hreq, hnone] at h
  rename_i file hready
  have hhinder := hindered_file (.inr ⟨g, hreq⟩) (readyFile_get hready)
  refine group_handled hd (by dsimp only; omega) (by dsimp only; omega) ⟨fun h => ?_, fun h => ?_⟩ hhinder.1
    fun r => AcceptedMessage.of_error ..
  · have hreach := h.1
    simp only [Reaches, hreq] at hreach
    obtain ⟨-, ⟨hgroup, hmember⟩, _, ⟨⟩, f, hf, hagain⟩ := hreach
    cases hf.symm.trans hready
    obtain ⟨gi, hgroup⟩ := isSome_iff_exists.1 hgroup
    exact ⟨⟨_, ⟨gi, hgroup, rfl⟩, hmember, fun _ => hagain⟩, (hhinder.1 h.2).1, (hhinder.1 h.2).2⟩
  · simp only [not_or, not_le] at hvalid
    obtain ⟨⟨_, ⟨gi, hgroup, -⟩, hmember, hagain⟩, hfresh, htexts⟩ := h
    refine ⟨?_, hhinder.2 ⟨hfresh, htexts⟩⟩
    simp only [Reaches, hreq]
    exact ⟨hvalid, ⟨by simp_all, hmember⟩, id, rfl, file, hready, hagain rfl⟩

theorem acknowledge_handled {seq conversationId conversationSeq : ℤ} {type : ReceiptType} (hclear : ¬ Hindered d c) :
    Safe Unused (Thrown c d) (Handled c d) (Messages.acknowledge c seq conversationId conversationSeq type)
      d none := by
  unfold Messages.acknowledge
  split
  · exact .pure (.clear hclear rfl)
  refine .bind (submit_safe ((acknowledge_safe _ d).imp ?_))
  rintro r d' _ ⟨rfl, hr⟩
  split
  · exact .pure (.clear hclear (by simp [isRetryableError]))
  · exact .pure (.clear hclear rfl)

theorem pullConversation_handled {conversationId afterSeq limit : ℤ} (hclear : ¬ Hindered d c) :
    Safe Unused (Thrown c d) (Handled c d) (Messages.pullConversation c conversationId afterSeq limit) d none := by
  unfold Messages.pullConversation
  split
  · exact .pure (.clear hclear rfl)
  refine .bind (submit_safe ((syncConversation_safe _ d).imp ?_))
  rintro r d' _ ⟨rfl, hr⟩
  refine .pure (.clear hclear ?_)
  rcases hr with hr | hr | hr <;> rw [hr] <;> rfl

theorem apply_handled {message : String} (hreq : c.request = .addFriend toUid message) :
    Safe Unused (Thrown c d) (Handled c d) (Friends.apply c toUid message) d none := by
  refine .bind (generateId_safe fun _ _ => .bind (submit_safe (.imp (insertFriendApply_safe
    ⟨message, .Wait, ""⟩ fun hd d' hd' => ⟨rfl, ?_, ?_⟩) ?_)))
  · simpa [Stuck, Reaches, Hindered, hreq] using hd
  · simpa [Hindered, hreq] using hd'
  · rintro _ d' _ ⟨rfl, rfl, hclear⟩
    exact .pure (.clear (by simpa [Hindered, hreq] using hclear) rfl)

theorem friendInfos_safe {E : Rest} (friends : List FriendRecord)
    {Q : List (ℤ × UserInfo) → Rest} (h : ∀ infos, Q infos d none) :
    Safe Unused E Q (Friends.friendInfos friends) d none := by
  induction friends generalizing Q with
  | nil => exact .pure (h [])
  | cons friend friends ih =>
    refine .bind (submit_safe (.select (.bind (ih fun infos => ?_))))
    exact .pure (h _)

theorem create_handled {name : String} (hreq : c.request = .createGroup name) :
    Safe Unused (Thrown c d) (Handled c d) (Groups.create c name) d none := by
  unfold Groups.create
  split
  · rename_i hinvalid
    refine .pure (.early (fun h => ?_) rfl (by decide))
    simp only [Reaches, hreq] at h
    exact absurd hinvalid (by simp [h])
  · rename_i hvalid
    refine .bind (generateId_safe fun g hg => .bind (generateId_safe fun n hn => ?_))
    refine .bind (submit_safe ((createGroup_safe hg hn rfl (by simp; omega)).imp ?_))
    rintro r d' _ ⟨rfl, hr⟩
    have hhinder : ∀ d, Hindered d c ↔ 128 < (varchar 128 name).length := by simp [Hindered, hreq]
    by_cases hfits : (varchar 128 name).length ≤ 128
    · refine .pure (.clear (by simpa [hhinder] using hfits) ?_)
      exact (congrArg isRetryableError (hr.trans (if_pos hfits))).trans rfl
    have herror : r.error = .MysqlFailed := hr.trans (if_neg hfits)
    have hstuck : ∀ d, Hindered d c := fun d => (hhinder d).2 (not_le.1 hfits)
    refine .pure ⟨rfl, iff_of_true ?_ ⟨by simpa [Reaches, hreq] using hvalid, hstuck d⟩, ?_, fun _ => hstuck d'⟩
    · exact (congrArg isRetryableError herror).trans rfl
    · exact fun h => absurd (herror.symm.trans h) (by decide)

theorem checked_handled {p : Prop} [Decidable p] {x : Operating Outcome} (hclear : ¬ Hindered d c)
    (hfinal : isRetryableError o.response.error = false)
    (hx : ¬ p → Safe Unused (Thrown c d) (Handled c d) x d none) :
    Safe Unused (Thrown c d) (Handled c d) (if p then pure o else x) d none := by
  split
  · exact .pure (.clear hclear hfinal)
  · exact hx ‹_›

theorem decided_handled {x : Operating GroupOperationResult} {f : GroupOperationResult → Outcome}
    (hclear : ¬ Hindered d c)
    (hx : Safe Unused (fun d' _ => Thrown c d d' none) (fun r _ ws => ws = none ∧ r.Decided) x d none)
    (hf : ∀ r, (f r).response.error = r.error) :
    Safe Unused (Thrown c d) (Handled c d) (do pure (f (← submit x))) d none := by
  refine .bind (submit_safe (hx.imp ?_))
  rintro r d' _ ⟨rfl, hr⟩
  refine .pure (.clear hclear ?_)
  rw [hf]
  rcases hr with h | h | h | h | h <;> rw [h] <;> rfl

theorem upload_handled {packet : UploadPacket} {file : Option FileInfo} {offset : ℤ} {data : FileService.Bytes}
    {complete : Bool} (hreq : c.request = .fileUpload packet file offset data complete) :
    Safe Unused (Thrown c d) (Handled c d) (Files.upload c packet file offset data complete) d none := by
  unfold Files.upload
  split
  · exact .pure (.early (by simp [Reaches, hreq]) rfl (by simp))
  rename_i info
  split
  · rename_i hinvalid
    exact .pure (.early (by simp [Reaches, hreq]; omega) rfl (by simp))
  rename_i hvalid
  refine .bind (.bind (.ask fun _ _ => .pure ?_))
  split
  swap
  · rename_i hfailed
    exact .pure (.early (by simp [Reaches, hreq]; tauto) rfl (by simp))
  rename_i hstatus
  have hreach : Reaches d c := by simpa [Reaches, hreq, hstatus] using hvalid
  have hhinder : ∀ d, Hindered d c ↔ ¬ Storable d c info complete := by simp [Hindered, hreq]
  have hstuck : ∀ {d'}, d'.fileObjects = d.fileObjects → ¬ Storable d c info complete →
      Stuck d c ∧ Hindered d' c := fun hsame h =>
    ⟨⟨hreach, (hhinder d).2 h⟩,
      (hhinder _).2 fun h' => h ⟨h'.progress, fun hs hc => (h'.file hs hc).of_files hsame.symm⟩⟩
  refine .bind (submit_safe (.imp (saveFileUploadProgress_safe (by omega) fun h => ?_) ?_))
  · obtain ⟨hs, hh⟩ := hstuck rfl fun h' => h h'.progress
    exact ⟨rfl, hs, hh⟩
  rintro _ d' _ ⟨rfl, rfl, hsame, hprogress⟩
  rw [if_neg (by decide)]
  split
  · rename_i hcomplete
    simp only [Bool.and_eq_true, decide_eq_true_eq] at hcomplete
    have hrecord : ¬ (Files.object c info).Recordable d' → ¬ Storable d c info complete := fun h h' =>
      h ((h'.file hcomplete.1 hcomplete.2).of_files hsame)
    refine .bind (submit_safe (.imp (upsertReadyFile_safe fun h => ?_) ?_))
    · obtain ⟨hs, hh⟩ := hstuck hsame (hrecord h)
      exact ⟨rfl, hs, hh⟩
    rintro r d'' _ ⟨rfl, hr, hfiles⟩
    split
    · rename_i hfail
      obtain ⟨hs, hh⟩ := hstuck ((hfiles hfail).trans hsame) (hrecord fun h => hfail (hr.2 h))
      exact .pure ⟨rfl, iff_of_true rfl hs, fun h => (by cases h), fun _ => hh⟩
    rename_i hdone
    refine .pure (.clear ?_ rfl)
    rw [hhinder, not_not]
    exact ⟨hprogress, fun _ _ => (hr.1 (not_not.1 hdone)).of_files hsame.symm⟩
  · rename_i hpart
    refine .pure (.clear ?_ rfl)
    rw [hhinder, not_not]
    exact ⟨hprogress, fun h h' => absurd (by simp [h, h']) hpart⟩

theorem download_handled {offset limit : ℤ} (hreq : c.request = .fileDownload fileId offset limit) :
    Safe Unused (Thrown c d) (Handled c d) (Files.download c fileId offset limit) d none := by
  unfold Files.download
  split
  · exact .pure (.early (by simp [Reaches, hreq]) rfl (by simp))
  rename_i id
  split
  · rename_i hinvalid
    refine .pure (.early (fun h => ?_) rfl (by simp))
    simp only [Reaches, hreq] at h
    obtain ⟨hactor, _, ⟨⟩, hid, -⟩ := h
    exact absurd hinvalid (by simp [hactor, hid])
  rename_i hvalid
  refine .bind (submit_safe (.select ?_))
  simp only [getD_none, applyAll_nil]
  split
  · rename_i hnone
    refine .pure (.early (fun h => ?_) rfl (by simp))
    simp [Reaches, hreq, hnone] at h
  rename_i file hfile
  refine .bind (.bind (.ask fun _ _ => .pure ?_))
  have hhinder : ∀ d, Hindered d c ↔ c.downloaded.status = .FAILED := by simp [Hindered, hreq]
  split
  · rename_i hfailed
    have hreach : Reaches d c := by
      simpa [Reaches, hreq, hfile] using hvalid
    exact .pure ⟨rfl, iff_of_true rfl ⟨hreach, (hhinder d).2 hfailed⟩, by simp, fun _ => (hhinder d).2 hfailed⟩
  · rename_i hdone
    exact .pure (.clear (mt (hhinder d).1 hdone) rfl)

theorem reply_handled {accept : Option Bool} {message : String}
    (hreq : c.request = .replyFriend toUid accept message) :
    Safe Unused (Thrown c d) (Handled c d) (Friends.reply c toUid accept message) d none := by
  cases accept with
  | none => exact .pure (.early (by simp [Reaches, hreq]) rfl (by simp))
  | some accept =>
    have hhinder : ∀ d, Hindered d c ↔ (accept = true ∧ ¬ d.Joinable c.actorUid toUid) ∨
        d.Overlong c.actorUid toUid message := by simp [Hindered, hreq]
    have hreach : Reaches d c := by simp [Reaches, hreq]
    refine (reply_safe (fun ha hj => ?_) fun hlong d' hsame hj => ?_).imp ?_
    · have hb := (hhinder d).2 (.inl ⟨ha, hj⟩)
      exact ⟨rfl, ⟨hreach, hb⟩, hb⟩
    · exact ⟨rfl, ⟨hreach, (hhinder d).2 (.inr hlong)⟩, (hhinder d').2 (.inr (by rwa [Db.Overlong, hsame]))⟩
    · rintro o d' _ ⟨rfl, ho, hj, hlong⟩
      exact .clear (fun h => ((hhinder d).1 h).elim (fun h => h.2 (hj h.1)) hlong) (by rw [ho]; rfl)

/-- Every command is answered with a retryable error exactly where it is refused. -/
theorem handle_handled (hd : d.Kept) : Safe Unused (Thrown c d) (Handled c d) (Service.handle c) d none := by
  unfold Service.handle
  cases hreq : c.request with
  | sendText toUid content key => exact stage_handled (acceptText_handled hd hreq)
  | sendGroupText g content key => exact stage_handled (acceptGroupText_handled hd hreq)
  | sendFile toUid fileId key => exact stage_handled (acceptFile_handled hd hreq)
  | sendGroupFile g fileId key => exact stage_handled (acceptGroupFile_handled hd hreq)
  | receipt seq conversationId conversationSeq type => exact acknowledge_handled (by simp [Hindered, hreq])
  | pullConversationMessages conversationId afterSeq limit =>
    exact pullConversation_handled (by simp [Hindered, hreq])
  | addFriend toUid message => exact apply_handled hreq
  | replyFriend toUid accept message => exact reply_handled hreq
  | pullFriendList =>
    refine .bind (submit_safe (.bind (.select (.pure (.bind ?_)))))
    exact friendInfos_safe _ fun _ => .pure (.clear (by simp [Hindered, hreq]) rfl)
  | pullFriendApplyList =>
    exact .bind (submit_safe (.bind (.select (.pure (.pure (.clear (by simp [Hindered, hreq]) rfl))))))
  | createGroup name => exact create_handled hreq
  | joinGroup g message =>
    have hclear : ¬ Hindered d c := by simp [Hindered, hreq]
    exact checked_handled hclear rfl fun _ => decided_handled hclear (requestGroupJoin_safe _ _ _ _ d) fun _ => rfl
  | replyJoinGroup g u accept =>
    have hclear : ¬ Hindered d c := by simp [Hindered, hreq]
    dsimp only
    unfold Groups.reply
    split
    · exact .pure (.clear hclear rfl)
    exact checked_handled hclear rfl fun _ =>
      decided_handled hclear (replyGroupJoin_safe _ _ hd.sound.aligned (by omega) (by omega)) fun _ => rfl
  | pullGroupMembers g =>
    have hclear : ¬ Hindered d c := by simp [Hindered, hreq]
    exact checked_handled hclear rfl fun _ => decided_handled hclear (pullGroup_safe _ _ d) fun _ => rfl
  | quitGroup g =>
    have hclear : ¬ Hindered d c := by simp [Hindered, hreq]
    exact checked_handled hclear rfl fun _ => decided_handled hclear (removeGroupMember_safe _ _ _ _ d) fun _ => rfl
  | kickGroupMember g u =>
    have hclear : ¬ Hindered d c := by simp [Hindered, hreq]
    exact checked_handled hclear rfl fun _ => checked_handled hclear rfl fun _ =>
      decided_handled hclear (removeGroupMember_safe _ _ _ _ d) fun _ => rfl
  | fileUpload packet file offset data complete => exact upload_handled hreq
  | fileDownload fileId offset limit => exact download_handled hreq

theorem process_handled (hd : d.Kept) (c : Command) :
    (Setting.alone Unused).Course (fun o d' ws _ => Handled c d o d' ws) (Service.process c) d none false :=
  process_safe ((handle_handled hd).mono (fun _ _ h _ he => h.handled he) fun _ _ _ h => h)

end handlers

theorem process_refused (c : Command) (d : Db) :
    (Setting.alone fun n _ => n = 0).Course (fun o _ _ _ => isRetryableError o.response.error = false)
      (Service.process c) d none false := by
  refine Setting.Leads.outcome
    (Setting.Leads.bind (Setting.Leads.ask_alone fun n hn => ?_)) (fun _ _ _ _ hr => hr) fun _ _ _ _ => False.elim
  rw [if_pos hn]
  exact .pure rfl

/-- Which failures are reported as retryable. Handled alone, in any database that the service has reached, a
    command is answered with a retryable error exactly where it is refused, and then it fails again when it is
    repeated, at whatever time. So a failure that repeats itself is not reported as retryable exactly where
    the command is not refused. Who has lost the lease is not told to retry. Where nobody holds a lock the
    command is answered, and its repetition too. -/
theorem retryable_iff_stuck {d : Db} (hd : d.Kept) {s : ServiceStore} (h : Serves d s) (c : Command) :
    (∀ s' o, HandledAlone Unused s c s' o →
      (∀ envelope, (MessageServer.resultOf envelope o.response).retryable = true ↔ Stuck s.cur.db c) ∧
      (Stuck s.cur.db c → ∀ clock s'' r, HandledAlone Unused s' { c with clock } s'' r →
        r.response.error ≠ .Success)) ∧
    (∀ s' o, HandledAlone (fun n _ => n = 0) s c s' o →
      ∀ envelope, (MessageServer.resultOf envelope o.response).retryable = false) ∧
    ((∀ τ ∈ s.sessions, τ.locks = []) → ∃ s' o, HandledAlone Unused s c s' o ∧
      ∀ clock, ∃ s'' r, HandledAlone Unused s' { c with clock } s'' r) := by
  have hkept := h.kept hd
  refine ⟨fun s' o halone => ?_, fun s' o halone envelope => ?_, fun hquiet => ?_⟩
  · obtain ⟨_, -, -, -, hhandled⟩ := halone.answer (process_handled hkept c)
    refine ⟨fun _ => hhandled.retryable, fun hrefused clock s'' r hagain hsuccess => ?_⟩
    obtain ⟨_, -, -, -, hrepeated⟩ := hagain.answer (process_handled ((halone.serves h).kept hd) _)
    exact hrepeated.succeeded hsuccess ((hhandled.lasting hrefused).clock clock)
  · obtain ⟨_, -, -, -, hfinal⟩ := halone.answer (process_refused c _)
    exact hfinal
  · obtain ⟨s', o, halone⟩ := exists_handledAlone (process_handled hkept c) hquiet
    refine ⟨s', o, halone, fun clock => exists_handledAlone
      (process_handled ((halone.serves h).kept hd) _) fun τ hτ => ?_⟩
    obtain ⟨σ, hsessions, -, -, hhandled⟩ := halone.answer (process_handled hkept c)
    rw [hsessions, List.mem_append, List.mem_singleton] at hτ
    rcases hτ with hτ | rfl
    · exact hquiet τ hτ
    rw [Session.locks, map_eq_none_iff.1 hhandled.ended]
    rfl

omit [Collation]

theorem Db.kept_empty : ({} : Db).Kept := ⟨Db.sound_empty, by simp⟩

theorem retryable_iff_stuck_asking : let _ := Collation.binary
    ∃ (s s' : ServiceStore) (o r : Outcome), HandledAlone Unused (Sys.init {}) { asks with actorUid := 1 } s o ∧
      (∀ envelope, (MessageServer.resultOf envelope o.response).retryable = true) ∧
      HandledAlone Unused s { asks with actorUid := 1 } s' r ∧ r.response.error ≠ .Success := by
  intro _
  have hrefused : Stuck (Sys.init {} : ServiceStore).cur.db { asks with actorUid := 1 } :=
    ⟨trivial, fun h => h.other rfl⟩
  obtain ⟨hiff, -, hexists⟩ := retryable_iff_stuck Db.kept_empty ⟨[], rfl⟩ { asks with actorUid := 1 }
  obtain ⟨s, o, halone, hagain⟩ := hexists (by simp [Sys.init])
  obtain ⟨hretry, hfails⟩ := hiff s o halone
  obtain ⟨s', r, hrepeated⟩ := hagain asks.clock
  exact ⟨s, s', o, r, halone, fun envelope => (hretry envelope).2 hrefused, hrepeated, hfails hrefused _ s' r hrepeated⟩

/-- Who applies to themselves gets the same retryable error each time. -/
theorem deterministic_error_retryable : let _ := Collation.binary
    ∃ (s s' : ServiceStore) (σ τ : Handling) (o r : Outcome),
      (Sys.init {}).run Service.process (handled 0 { asks with actorUid := 1 } [5, 5, 5, 5, 5, 5]) = some s ∧
      s.sessions[0]? = some σ ∧ σ.prog = .ret o ∧
      s.run Service.process (handled 1 { asks with actorUid := 1 } [5, 5, 5, 5, 5]) = some s' ∧
      s'.sessions[1]? = some τ ∧ τ.prog = .ret r ∧ r.response.error ≠ .Success ∧
      ∀ envelope, (MessageServer.resultOf envelope o.response).retryable = true := by
  intro _
  have heval : ((Sys.init {}).run Service.process (handled 0 { asks with actorUid := 1 } [5, 5, 5, 5, 5, 5])).any
      (fun s : ServiceStore => decide (s.sessions[0]?.bind answeredWith = some .DependencyUnavailable) &&
        (s.run Service.process (handled 1 { asks with actorUid := 1 } [5, 5, 5, 5, 5])).any fun s' =>
          decide (s'.sessions[1]?.bind answeredWith = some .DependencyUnavailable)) = true := by
    decide +kernel
  obtain ⟨s, hrun, hfacts⟩ := (any_eq_true _ _).1 heval
  obtain ⟨hfirst, hagain⟩ := Bool.and_eq_true_iff.1 hfacts
  obtain ⟨s', hrun', hsecond⟩ := (any_eq_true _ _).1 hagain
  obtain ⟨σ, hσ, hfirst⟩ := bind_eq_some_iff.1 (of_decide_eq_true hfirst)
  obtain ⟨τ, hτ, hsecond⟩ := bind_eq_some_iff.1 (of_decide_eq_true hsecond)
  obtain ⟨o, ho, herror⟩ := answeredWith_eq_some hfirst
  obtain ⟨r, hr, herror'⟩ := answeredWith_eq_some hsecond
  refine ⟨s, s', σ, τ, o, r, hrun, hσ, ho, hrun', hτ, hr, ?_, fun envelope => ?_⟩
  · rw [herror']
    simp
  · rw [MessageServer.resultOf, herror]
    rfl

end Imm
