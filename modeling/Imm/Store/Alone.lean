import Mathlib.Data.Int.Order.Basic
import Imm.Schemes.Course
import Imm.Store.Visibility

/-! Operations that run alone, with no failure of the connection. `Safe E Q x` says that `Q` then holds of what
    `x` returns, and `E` where it throws: an operation throws where a statement finds a key taken or a value
    out of range. For each operation there is one lemma; where it can throw, the lemma says exactly when. -/

namespace Imm

open Txn SQL MysqlStore List Table

/-- The number has not been used for any row. -/
structure Unused (n : ℕ) (d : Db) : Prop where
  pos : 0 < n
  friend : d.friends.get n = none
  conversation : d.conversations.get n = none
  business : ∀ type, d.NoConversation type n
  userState : ∀ u, d.conversationUserStates.get (n, u) = none
  group : d.groupInfo.get n = none
  groupConversation : ∀ g gi, d.groupInfo.get g = some gi → gi.conversationId ≠ n
  member : ∀ u, d.groupMembers.get (n, u) = none
  message : d.messages.get n = none

/-- There is always one: every table is finite. -/
theorem exists_unused (d : Db) : ∃ n, Unused n d := by
  obtain ⟨n₁, h₁⟩ := d.friends.exists_bound fun k _ => k
  obtain ⟨n₂, h₂⟩ := d.conversations.exists_bound fun k _ => k
  obtain ⟨n₃, h₃⟩ := d.conversations.exists_bound fun _ r => r.businessId
  obtain ⟨n₄, h₄⟩ := d.conversationUserStates.exists_bound fun k _ => k.1
  obtain ⟨n₅, h₅⟩ := d.groupInfo.exists_bound fun k _ => k
  obtain ⟨n₆, h₆⟩ := d.groupInfo.exists_bound fun _ r => r.conversationId
  obtain ⟨n₇, h₇⟩ := d.groupMembers.exists_bound fun k _ => k.1
  obtain ⟨n₈, h₈⟩ := d.messages.exists_bound fun k _ => k
  have free : ∀ {κ ρ : Type} [DecidableEq κ] {T : Table κ ρ} {k : κ},
      (∀ r, T.get k = some r → False) → T.get k = none := fun h =>
    Option.eq_none_iff_forall_not_mem.2 fun r hr => h r hr
  refine ⟨n₁ + n₂ + n₃ + n₄ + n₅ + n₆ + n₇ + n₈ + 1, by omega, free fun r hr => ?_, free fun r hr => ?_,
    fun type c r hr => ?_, fun u => free fun r hr => ?_, free fun r hr => ?_, fun g gi hgi => ?_,
    fun u => free fun r hr => ?_, free fun r hr => ?_⟩
  · exact absurd (h₁ _ r hr) (by push_cast; omega)
  · exact absurd (h₂ _ r hr) (by push_cast; omega)
  · rintro ⟨-, hb⟩
    exact absurd (h₃ _ r hr) (by rw [hb]; push_cast; omega)
  · exact absurd (h₄ _ r hr) (by push_cast; omega)
  · exact absurd (h₅ _ r hr) (by push_cast; omega)
  · have := h₆ _ gi hgi
    omega
  · exact absurd (h₇ _ r hr) (by push_cast; omega)
  · exact absurd (h₈ _ r hr) (by push_cast; omega)

/-! ### Rules -/

variable [Collation]

/-- A condition on the rows and the writes of the open transaction. -/
abbrev Rest := Db → Option (List Write) → Prop

/-- `x` runs alone and undisturbed: `Q` holds of what it returns, and `E` where it throws. `H` are the numbers
    the server may hand out. -/
def Safe {α : Type} (H : ℕ → Db → Prop) (E : Rest)
    (Q : α → Rest) (x : Sql Db Key Write α) (d : Db) (ws : Option (List Write)) : Prop :=
  ∀ b, (Setting.alone H).Leads (fun d ws _ => E d ws) (fun a d ws _ => Q a d ws) x d ws b

namespace Safe

variable {H : ℕ → Db → Prop} {E F : Rest} {α β : Type}
  {Q Q' : α → Rest} {d : Db} {ws : Option (List Write)} {us : List Write}

theorem pure {a : α} (h : Q a d ws) : Safe H E Q (pure a) d ws := fun _ => h

variable {x : Operating α} {s : Statement α}

theorem mono (h : Safe H E Q x d ws) (hE : ∀ d ws, E d ws → F d ws)
    (hQ : ∀ a d ws, Q a d ws → Q' a d ws) : Safe H F Q' x d ws :=
  fun b => (h b).mono (fun d ws _ => hE d ws) fun a d ws _ => hQ a d ws

theorem imp (h : Safe H E Q x d ws) (hQ : ∀ a d ws, Q a d ws → Q' a d ws) :
    Safe H E Q' x d ws :=
  h.mono (fun _ _ h => h) hQ

theorem bind {Q : β → Rest} {f : α → Operating β}
    (h : Safe H E (fun a d ws => Safe H E Q (f a) d ws) x d ws) : Safe H E Q (x >>= f) d ws :=
  fun b => .bind ((h b).mono (fun _ _ _ h => h) fun _ _ _ b h => h b)

theorem ask {Q : ℕ → Rest} (h : ∀ n, H n d → Q n d ws) :
    Safe H E Q Sql.ask d ws :=
  fun _ => .ask_alone h

theorem select {q : Db → α} (h : Q (q (applyAll (ws.getD []) d)) d ws) : Safe H E Q (Sql.select q) d ws :=
  fun _ => .select_alone h

theorem start {Q : Unit → Rest} (h : Q () d (some [])) :
    Safe H E Q Sql.start d none :=
  fun _ => .start_alone h

theorem commit {Q : Unit → Rest} (h : Q () (applyAll us d) none) :
    Safe H E Q Sql.commit d (some us) :=
  fun _ => .commit_alone h

theorem rollback {Q : Unit → Rest} (h : Q () d none) :
    Safe H E Q Sql.rollback d ws :=
  fun _ => .rollback_alone h

theorem exec (h : ∀ n, H n d → ∃ e, s n (applyAll us d) = .ok e ∧ Q e.reply d (some (us ++ e.writes))) :
    Safe H E Q (Sql.exec s) d (some us) :=
  fun _ => .exec_alone h

theorem exec_auto (h : ∀ n, H n d → ∃ e, s n d = .ok e ∧ Q e.reply (applyAll e.writes d) none) :
    Safe H E Q (Sql.exec s) d none :=
  fun _ => .exec_auto_alone h

theorem exec_error (hs : ∀ n e, s n (applyAll (ws.getD []) d) ≠ .ok e) (h : E d ws) :
    Safe H E Q (Sql.exec s) d ws :=
  fun _ => .exec_error_alone hs h

theorem exec_total (hs : ∀ n d, ∃ e, s n d = .ok e) (h : ∀ r us', Q r d (some us')) :
    Safe H E Q (Sql.exec s) d (some us) :=
  exec fun n _ => by
    obtain ⟨e, he⟩ := hs n (applyAll us d)
    exact ⟨e, he, h e.reply _⟩

theorem guarded_or {failed : String → α} (h : Safe H F Q x d ws)
    (hE : ∀ e d ws, F d ws → Q (failed e) d none) : Safe H E Q (guarded failed x) d ws :=
  fun b => (h b).catching fun e d ws _ he => .bind (.abort (by
    rintro _ rfl
    exact hE e d ws he))

theorem guarded {failed : String → α} (h : Safe H (fun _ _ => False) Q x d ws) :
    Safe H E Q (guarded failed x) d ws :=
  guarded_or h fun _ _ _ => False.elim

theorem rethrowing (h : Safe H (fun d _ => E d none) Q x d ws) :
    Safe H E Q (rethrowing x) d ws :=
  fun b => (h b).catching fun e d ws _ he => .bind (.abort (by
    rintro _ rfl
    exact he))

end Safe

variable {H : ℕ → Db → Prop} {E : Rest}

/-! ### Messages -/

/-- The texts of a message fit their columns, once the columns have cut them. -/
def TextsFit (clientMessageId content : String) : Prop :=
  (varchar 128 clientMessageId).length ≤ 128 ∧ (text content).utf8ByteSize ≤ 65535

/-- Conversations have ids in range, and none has a message past its latest. -/
structure Db.Numbered (d : Db) : Prop where
  conversation : ∀ c conv, d.conversations.get c = some conv → 0 ≤ c
  latest : ∀ c conv m row, d.conversations.get c = some conv → d.messages.get m = some row →
    row.conversationId = c → row.conversationSeq ≤ conv.latestSeq

omit [Collation] in
theorem friendsStore_numbered : friendsStore.Numbered where
  conversation c conv h := by
    simp only [friendsStore, Table.ofList, foldr_cons, foldr_nil, get_set] at h
    split at h
    · omega
    · cases h
  latest _ _ m _ _ h := by cases h

variable {conv : Conversation} {n : ℕ} {u c a b : ℤ} {row : FriendApply}

/-- A message that fits is stored, as the next one of its conversation, under a key that is free. -/
theorem insertMessage_next {d d' : Db} {m : Message} {key : String} (hd : d.Numbered)
    (hmessages : d'.messages = d.messages) (hsender : 0 ≤ m.senderId) (hreceiver : 0 ≤ m.receiverId)
    (hkey : m.clientMessageId = some key) (hfits : TextsFit key m.content)
    (hconv : d.conversations.get m.conversationId = some conv) (hseq : m.conversationSeq = conv.latestSeq + 1)
    (hfree : ∀ key, m.clientKey = some key → d.NoClientMessage key) (hn : d.messages.get n = none) :
    insertMessage m n d' = .ok { reply := (n : ℤ), writes := [.messages n (some m.stored)] } := by
  have htaken : ((d'.messages.get n).isSome || d'.messages.has (fun _ r =>
      decide (r.conversationId = m.conversationId ∧ r.conversationSeq = m.conversationSeq)) ||
      d'.messages.has (fun _ r => r.clientKey.isSome && decide (r.clientKey = m.clientKey))) = false := by
    simp only [hmessages, Bool.or_eq_false_iff, has_eq_false, hn, Option.isSome_none, true_and]
    refine ⟨fun k r hr => decide_eq_false ?_, fun k r hr => ?_⟩
    · rintro ⟨hc, hq⟩
      have := hd.latest _ conv k r hconv hr hc
      omega
    · cases hkey : r.clientKey with
      | none => rfl
      | some key =>
        refine Bool.and_eq_false_imp.2 fun _ => decide_eq_false fun h => ?_
        exact hfree key h.symm k r hr hkey
  rw [insertMessage, within_fits (by simpa [Message.stored, hkey, TextsFit] using hfits),
    insertRows_free ?_ htaken]
  have := hd.conversation _ conv hconv
  simp [hsender, hreceiver, this]

theorem insertMessage_fits {m : Message} {key : String} {d : Db} {e : Effect Key Write ℤ}
    (hkey : m.clientMessageId = some key) (h : insertMessage m n d = .ok e) : TextsFit key m.content := by
  simpa [Message.stored, hkey, TextsFit] using (within_ok h).1

/-- The answer that names a stored message. -/
def MessageAcceptResult.stored (conversationId messageId : ℤ) (seq : ℕ) (duplicate : Bool) :
    MessageAcceptResult where
  error := .Success
  duplicate := duplicate
  messageId := messageId
  conversationId := conversationId
  conversationSeq := seq

/-- The message would have to be stored, and its texts do not fit. -/
structure AcceptDirectText.Unfit (op : AcceptDirectText) (d : Db) : Prop where
  friends : (friendConversation (min op.senderId op.receiverId) (max op.senderId op.receiverId) d).isSome
  fresh : duplicateMessage op.senderId op.clientMessageId d = none
  texts : ¬ TextsFit op.clientMessageId op.content

/-- The answer of a direct send that runs alone on `d`, and the rows it leaves. -/
inductive SendsDirect (op : AcceptDirectText) (d : Db) : MessageAcceptResult → Db → Prop
  | strangers
      (hnone : friendConversation (min op.senderId op.receiverId) (max op.senderId op.receiverId) d = none) :
      SendsDirect op d { error := .UserNotFriend } d
  | conflict {c : ℤ} {stored : ℤ × Message}
      (hfriends : friendConversation (min op.senderId op.receiverId) (max op.senderId op.receiverId) d = some c)
      (hstored : duplicateMessage op.senderId op.clientMessageId d = some stored)
      (hother : sameCommand stored.2 c op.receiverId op.messageType op.content = false) :
      SendsDirect op d { conversationId := c, error := .IdempotencyConflict } d
  | duplicate {c : ℤ} {stored : ℤ × Message} (us : List ℤ)
      (hfriends : friendConversation (min op.senderId op.receiverId) (max op.senderId op.receiverId) d = some c)
      (hstored : duplicateMessage op.senderId op.clientMessageId d = some stored)
      (hsame : sameCommand stored.2 c op.receiverId op.messageType op.content = true) :
      SendsDirect op d (.stored c stored.1 stored.2.conversationSeq true)
        (applyAll (us.map (joinedAtOne c)) d)
  | unfit {r : MessageAcceptResult} (herror : r.error = .MysqlFailed) (hunfit : op.Unfit d) : SendsDirect op d r d
  | fresh {c : ℤ} {conv : Conversation} {n : ℕ} (us : List ℤ)
      (hfriends : friendConversation (min op.senderId op.receiverId) (max op.senderId op.receiverId) d = some c)
      (hconv : d.conversations.get c = some conv)
      (hnew : duplicateMessage op.senderId op.clientMessageId d = none) (hn : d.messages.get n = none)
      (hfits : TextsFit op.clientMessageId op.content) :
      SendsDirect op d (.stored c n (conv.latestSeq + 1) false)
        (applyAll (us.map (joinedAtOne c) ++
          [.conversations c (some { conv with latestSeq := conv.latestSeq + 1 }),
            .messages n (some (op.stored c (conv.latestSeq + 1)))]) d)

theorem duplicateMessage_none {d : Db} {k : String} (h : duplicateMessage u k d = none) :
    d.NoClientMessage (u, weight k) :=
  fun m r hr => by simpa using first_eq_none.1 h m r hr

omit [Collation] in
theorem lockLatestSeq_some {d : Db} (h : d.conversations.get c = some conv) (n : ℕ) : lockLatestSeq c n d =
      .ok { reply := some conv.latestSeq, reads := [exclusive (.conversation c)] } := by
  simp only [lockLatestSeq, h]

omit [Collation] in
theorem updateLatestSeq_some {d : Db} (h : d.conversations.get c = some conv)
    (seq n : ℕ) : updateLatestSeq seq c n d =
      .ok { reply := (), writes := [.conversations c (some { conv with latestSeq := seq })] } := by
  simp only [updateLatestSeq, h]

omit [Collation] in
theorem insertIgnoreUserStates_joins (c : ℤ) (uids : List ℤ) (n : ℕ) (d : Db) :
    ∃ (us : List ℤ) (ls : List (Lock Key)), insertIgnoreUserStates c uids n d =
      .ok { reply := (), reads := ls, writes := us.map (joinedAtOne c) } :=
  ⟨_, _, rfl⟩

theorem acceptDirectText_safe (hH : ∀ n d, H n d → d.messages.get n = none) {op : AcceptDirectText}
    {d : Db} (hd : d.Numbered) (hsender : 0 ≤ op.senderId) (hreceiver : 0 ≤ op.receiverId) :
    Safe H E (fun r d' ws => ws = none ∧ SendsDirect op d r d') (acceptDirectText op) d none := by
  refine .bind (.start (.guarded (.bind (.select ?_))))
  simp only [Option.getD_some, applyAll_nil]
  split
  · rename_i hnone
    exact .bind (.rollback (.pure ⟨rfl, .strangers hnone⟩))
  rename_i c hfriends
  obtain ⟨conv, hconv, -⟩ := friendConversation_direct hfriends
  refine .guarded (.bind (.exec fun n _ => ?_))
  obtain ⟨us, ls, hjoins⟩ := insertIgnoreUserStates_joins c [op.senderId, op.receiverId] n (applyAll [] d)
  refine ⟨_, hjoins, ?_⟩
  rw [nil_append]
  have hrow : (applyAll (us.map (joinedAtOne c)) d).conversations.get c = some conv := by
    rw [joins_conversations, hconv]
  refine .bind (.exec fun n _ => ⟨_, lockLatestSeq_some hrow n, ?_⟩)
  refine .bind (.select ?_)
  simp only [append_nil, Option.getD_some, duplicateMessage, joins_messages]
  split
  · rename_i stored mid m hstored
    split
    · rename_i hsame
      exact .guarded (.bind (.commit (.pure ⟨rfl, .duplicate us hfriends hstored hsame⟩)))
    rename_i hother
    exact .bind (.rollback (.pure ⟨rfl, .conflict hfriends hstored (by simpa using hother)⟩))
  · rename_i hnew
    by_cases hfits : TextsFit op.clientMessageId op.content
    · refine .guarded (.bind (.exec fun n _ => ⟨_, updateLatestSeq_some hrow _ n, ?_⟩))
      refine .bind (.exec fun n hn =>
        ⟨_, insertMessage_next hd ?_ hsender hreceiver rfl hfits hconv rfl ?_ (hH n d hn), ?_⟩)
      · rw [applyAll_append]
        exact joins_messages
      · intro key hkey
        cases (clientKey_eq rfl rfl).symm.trans hkey
        exact duplicateMessage_none hnew
      · refine .guarded (.bind (.commit (.pure ⟨rfl, ?_⟩)))
        rw [append_assoc]
        exact .fresh us hfriends hconv hnew (hH _ _ hn) hfits
    · refine .guarded_or (F := fun d' _ => d' = d) (.bind (.exec fun n _ =>
        ⟨_, updateLatestSeq_some hrow _ n,
          .bind (.exec_error (fun _ _ he => hfits (insertMessage_fits rfl he)) rfl)⟩)) ?_
      rintro e _ _ rfl
      exact ⟨rfl, .unfit rfl ⟨by simp [hfriends], hnew, hfits⟩⟩

/-- The sender may send to the group, whose conversation is `c`. -/
structure AcceptGroupMessage.Open (op : AcceptGroupMessage) (d : Db) (c : ℤ) : Prop where
  group : ∃ gi, d.groupInfo.get op.groupId = some gi ∧ gi.conversationId = c
  member : (d.groupMembers.get (op.groupId, op.senderId)).isSome
  ready : op.requireReadyOwnedFile = true →
    (readyFile op.content op.senderId op.sendDateTime d).isSome

structure AcceptGroupMessage.Unfit (op : AcceptGroupMessage) (d : Db) : Prop where
  admitted : ∃ c, op.Open d c
  fresh : duplicateMessage op.senderId op.clientMessageId d = none
  texts : ¬ TextsFit op.clientMessageId op.content

/-- The answer of a group send that runs alone on `d`, and the rows it leaves. -/
inductive SendsGroup (op : AcceptGroupMessage) (d : Db) : GroupMessageAcceptResult → Db → Prop
  | refused {r : GroupMessageAcceptResult} (herror : r.error = .MessageOwnershipInvalid ∨ r.error = .NotFound)
      (hclosed : ∀ c, ¬ op.Open d c) : SendsGroup op d r d
  | conflict {r : GroupMessageAcceptResult} {c : ℤ} {stored : ℤ × Message}
      (herror : r.error = .IdempotencyConflict) (hopen : op.Open d c)
      (hstored : duplicateMessage op.senderId op.clientMessageId d = some stored)
      (hother : sameCommand stored.2 c op.groupId op.messageType op.content = false) : SendsGroup op d r d
  | duplicate {c : ℤ} {stored : ℤ × Message} (uids : List ℤ) (hopen : op.Open d c)
      (hstored : duplicateMessage op.senderId op.clientMessageId d = some stored)
      (hsame : sameCommand stored.2 c op.groupId op.messageType op.content = true) :
      SendsGroup op d ⟨.stored c stored.1 stored.2.conversationSeq true, op.groupId, uids⟩ d
  | unfit {r : GroupMessageAcceptResult} (herror : r.error = .MysqlFailed) (hunfit : op.Unfit d) :
      SendsGroup op d r d
  | fresh {c : ℤ} {conv : Conversation} {n : ℕ} (uids : List ℤ) (hopen : op.Open d c)
      (hconv : d.conversations.get c = some conv)
      (hnew : duplicateMessage op.senderId op.clientMessageId d = none) (hn : d.messages.get n = none)
      (hfits : TextsFit op.clientMessageId op.content) :
      SendsGroup op d ⟨.stored c n (conv.latestSeq + 1) false, op.groupId, uids⟩
        (applyAll [.conversations c (some { conv with latestSeq := conv.latestSeq + 1 }),
          .messages n (some (op.stored c (conv.latestSeq + 1)))] d)

/-- The file of a file message is looked at before anything is written. -/
theorem fileReady_safe {op : AcceptGroupMessage} {d : Db} {Q : Bool → Rest}
    (h : ∀ r : Bool, (r = true ↔ (op.requireReadyOwnedFile = true →
      (readyFile op.content op.senderId op.sendDateTime d).isSome)) → Q r d (some [])) :
    Safe H E Q (acceptGroupMessage.fileReady op) d (some []) := by
  unfold acceptGroupMessage.fileReady
  split
  · rename_i hrequired
    cases hfile : readyFile op.content op.senderId op.sendDateTime d with
    | none =>
      refine .exec fun n _ => ⟨{ reply := false }, ?_, h false ?_⟩
      · simp only [lockReadyFile, applyAll_nil, hfile]
      · simp [hrequired, hfile]
    | some file =>
      refine .exec fun n _ =>
        ⟨{ reply := true, reads := [exclusive (.file (weight op.content))] }, ?_, h true ?_⟩
      · simp only [lockReadyFile, applyAll_nil, hfile]
      · simp [hfile]
  · rename_i hfree
    exact .pure (h true (by simp [hfree]))

theorem acceptGroupMessage_safe (hH : ∀ n d, H n d → d.messages.get n = none) {op : AcceptGroupMessage}
    {d : Db} (hd : d.Numbered) (hsender : 0 ≤ op.senderId) (hreceiver : 0 ≤ op.groupId)
    (hrooms : ∀ g gi, d.groupInfo.get g = some gi → (d.conversations.get gi.conversationId).isSome) :
    Safe H E (fun r d' ws => ws = none ∧ SendsGroup op d r d') (acceptGroupMessage op) d none := by
  have finish : ∀ {E : Rest} {r : GroupMessageAcceptResult} {us : List Write},
      (∀ uids, SendsGroup op d { r with recipientUids := uids, error := .Success } (applyAll us d)) →
      Safe H E (fun r d' ws => ws = none ∧ SendsGroup op d r d') (acceptGroupMessage.recipients op r) d
        (some us) :=
    fun h => .guarded (.bind (.select (.guarded (.bind (.commit (.pure ⟨rfl, h _⟩))))))
  refine .bind (.start (.guarded (.bind (.exec fun n _ => ?_))))
  simp only [applyAll_nil, nil_append, lockGroupMember]
  split
  · rename_i gi time hgroup hmember
    refine ⟨_, rfl, .guarded (.bind (fileReady_safe fun ready hready => ?_))⟩
    obtain ⟨conv, hconv⟩ := Option.isSome_iff_exists.1 (hrooms _ gi hgroup)
    cases ready with
    | false =>
      refine .bind (.rollback (.pure ⟨rfl, .refused (.inr rfl) fun c hopen => ?_⟩))
      exact absurd (hready.2 hopen.ready) (by decide)
    | true =>
      have hopen : op.Open d gi.conversationId := ⟨⟨gi, hgroup, rfl⟩, by simp [hmember], hready.1 rfl⟩
      refine .bind (.exec fun n _ => ⟨_, lockLatestSeq_some hconv n, ?_⟩)
      refine .bind (.select ?_)
      split
      · rename_i stored mid m hstored
        split
        · rename_i hsame
          exact finish fun uids => .duplicate uids hopen hstored hsame
        rename_i hother
        exact .bind (.rollback (.pure ⟨rfl, .conflict rfl hopen hstored (by simpa using hother)⟩))
      · rename_i hnew
        by_cases hfits : TextsFit op.clientMessageId op.content
        · refine .guarded (.bind (.exec fun n _ => ⟨_, updateLatestSeq_some hconv _ n, ?_⟩))
          refine .bind (.exec fun n hn =>
            ⟨_, insertMessage_next hd rfl hsender hreceiver rfl hfits hconv rfl ?_ (hH n d hn), ?_⟩)
          · intro key hkey
            cases (clientKey_eq rfl rfl).symm.trans hkey
            exact duplicateMessage_none hnew
          · exact finish fun uids => .fresh uids hopen hconv hnew (hH _ _ hn) hfits
        · refine .guarded_or (F := fun d' _ => d' = d) (.bind (.exec fun n _ =>
            ⟨_, updateLatestSeq_some hconv _ n,
              .bind (.exec_error (fun _ _ he => hfits (insertMessage_fits rfl he)) rfl)⟩)) ?_
          rintro e _ _ rfl
          exact ⟨rfl, .unfit rfl ⟨⟨_, hopen⟩, hnew, hfits⟩⟩
  · rename_i hclosed
    refine ⟨_, rfl, .bind (.rollback (.pure ⟨rfl, .refused (.inl rfl) fun c hopen => ?_⟩))⟩
    obtain ⟨⟨gi, hgroup, -⟩, hmember, -⟩ := hopen
    obtain ⟨time, hmember⟩ := Option.isSome_iff_exists.1 hmember
    exact hclosed gi time hgroup hmember

/-! ### Friends -/

/-- The text of the reply is too long for its column, and there is a row it is for. -/
def Db.Overlong (d : Db) (a b : ℤ) (content : String) : Prop :=
  512 < (varchar 512 content).length ∧
    ((d.friendApplys.get (a, b)).isSome ∨ (d.friendApplys.get (b, a)).isSome)

omit [Collation] in
theorem updateFriendApply_fits (a b : ℤ) (n : ℕ) (d : Db)
    (hfits : row.stored.content.length ≤ 512) : ∃ e, SQL.updateFriendApply a b row n d = .ok e := by
  rw [SQL.updateFriendApply]
  split
  · exact ⟨_, within_fits (by simpa using hfits)⟩
  · exact ⟨_, rfl⟩

omit [Collation] in
theorem updateFriendApply_unfit {d : Db} (hlong : 512 < row.stored.content.length)
    (hrow : (d.friendApplys.get (a, b)).isSome) (n : ℕ) (e : Effect Key Write Unit) :
    SQL.updateFriendApply a b row n d ≠ .ok e := by
  obtain ⟨old, hold⟩ := Option.isSome_iff_exists.1 hrow
  simp only [SQL.updateFriendApply, hold]
  intro he
  have := (within_ok he).1 _ mem_cons_self
  omega

theorem updateFriendApplyStatus_safe (a b : ℤ) (row : FriendApply) (d : Db)
    (hE : d.Overlong a b row.content → E d none) :
    Safe H E (fun r _ ws => r = 0 ∧ ws = none ∧ ¬ d.Overlong a b row.content)
      (MysqlStore.updateFriendApplyStatus a b row) d none := by
  by_cases hlong : 512 < row.stored.content.length
  · by_cases hthere : (d.friendApplys.get (a, b)).isSome
    · exact .bind (.exec_error (updateFriendApply_unfit hlong hthere) (hE ⟨hlong, .inl hthere⟩))
    have hthere : d.friendApplys.get (a, b) = none := by simpa using hthere
    refine .bind (.exec_auto fun n _ => ⟨{ reply := () }, by simp [SQL.updateFriendApply, hthere], ?_⟩)
    by_cases hback : (d.friendApplys.get (b, a)).isSome
    · exact .bind (.exec_error (updateFriendApply_unfit hlong hback) (hE ⟨hlong, .inr hback⟩))
    have hback : d.friendApplys.get (b, a) = none := by simpa using hback
    refine .bind (.exec_auto fun n _ => ⟨{ reply := () }, by simp [SQL.updateFriendApply, hback], ?_⟩)
    exact .pure ⟨rfl, rfl, by simp [Db.Overlong, hthere, hback]⟩
  · refine .bind (.exec_auto fun n _ => ?_)
    obtain ⟨e, he⟩ := updateFriendApply_fits a b n d (not_lt.1 hlong)
    refine ⟨e, he, .bind (.exec_auto fun m _ => ?_)⟩
    obtain ⟨e', he'⟩ := updateFriendApply_fits b a m (applyAll e.writes d) (not_lt.1 hlong)
    exact ⟨e', he', .pure ⟨rfl, rfl, fun h => hlong h.1⟩⟩

/-- Two users who may become friends. -/
structure Db.Joinable (d : Db) (a b : ℤ) : Prop where
  left : 0 ≤ a
  right : 0 ≤ b
  other : a ≠ b
  strangers : d.Strangers (min a b) (max a b)

theorem insertFriend_safe {f : ℤ} {time : String} {d : Db} (hf : 0 ≤ f) (hc : 0 ≤ c)
    (hfriend : d.friends.get f = none) (hconversation : d.conversations.get c = none)
    (hbusiness : d.NoConversation .direct f) (hstates : ∀ u, d.conversationUserStates.get (c, u) = none)
    (hE : ¬ d.Joinable a b → E d none) :
    Safe H E (fun r d' ws => r = 0 ∧ ws = none ∧ d.Joinable a b ∧ ¬ d'.Strangers (min a b) (max a b) ∧
        d'.friendApplys = d.friendApplys)
      (MysqlStore.insertFriend f c a b time) d none := by
  refine .bind (.start (.rethrowing ?_))
  by_cases hfirst : (0 ≤ a ∧ 0 ≤ b) ∧ d.Strangers (min a b) (max a b)
  swap
  · refine .bind (.exec_error (fun n e he => hfirst ?_) (hE fun h => hfirst ⟨⟨h.left, h.right⟩, h.strangers⟩))
    obtain ⟨hunsigned, htaken, -⟩ := insertRows_ok he
    simp only [Bool.or_eq_false_iff, has_eq_false, decide_eq_false_iff_not] at htaken
    have hrange : 0 ≤ min a b ∧ 0 ≤ max a b := by simpa using fun v hv => hunsigned v (mem_cons_of_mem _ hv)
    exact ⟨by omega, htaken.2⟩
  obtain ⟨⟨ha, hb⟩, hstrangers⟩ := hfirst
  refine .bind (.exec fun n _ => ⟨_, insertRows_free ?_ ?_, ?_⟩)
  · simp [hf, ha, hb]
  · rw [Bool.or_eq_false_iff, has_eq_false]
    exact ⟨by simp [hfriend], fun k r hr => decide_eq_false (hstrangers k r hr)⟩
  refine .bind (.exec fun n _ => ⟨_, insertRows_free ?_ ?_, ?_⟩)
  · simp [hf, hc]
  · rw [Bool.or_eq_false_iff, has_eq_false]
    exact ⟨by simpa using hconversation, fun k r hr => decide_eq_false (hbusiness k r hr)⟩
  by_cases hne : a = b
  · refine .bind (.exec_error (fun n e he => ?_) (hE fun h => h.other hne))
    have := (insertUserStates_ok he).2.1
    simp [hne] at this
  refine .bind (.exec fun n _ => ⟨_, insertRows_free ?_ ?_, ?_⟩)
  · simp [hc, ha, hb]
  · have hnodup : [min a b, max a b].Nodup := by
      simp only [nodup_cons, mem_singleton, not_mem_nil, not_false_eq_true, nodup_nil, and_self, and_true]
      omega
    rw [Bool.or_eq_false_iff, any_eq_false]
    refine ⟨fun u _ => ?_, by simpa using hnodup⟩
    simpa using hstates u
  refine .bind (.commit (.pure ⟨rfl, rfl, ⟨ha, hb, hne, hstrangers⟩, fun h => ?_, rfl⟩))
  exact h f ⟨min a b, max a b, time⟩ (get_set_self _ _ _) ⟨rfl, rfl⟩

/-- The application can be stored for both sides. -/
structure Db.ClearApplication (d : Db) (a b : ℤ) (content : String) : Prop where
  actor : 0 ≤ a
  peer : 0 ≤ b
  other : a ≠ b
  fits : (varchar 512 content).length ≤ 512
  there : d.friendApplys.get (a, b) = none
  back : d.friendApplys.get (b, a) = none

omit [Collation] in
theorem insertFriendApply_fits {d : Db} {e : Effect Key Write Unit}
    (h : SQL.insertFriendApply a b row n d = .ok e) : (0 ≤ a ∧ 0 ≤ b) ∧ row.stored.content.length ≤ 512 := by
  obtain ⟨hfits, hinsert⟩ := within_ok h
  exact ⟨by simpa using (insertRows_ok hinsert).1, by simpa using hfits⟩

theorem insertFriendApply_safe (row : FriendApply) {d : Db}
    (hE : ¬ d.ClearApplication a b row.content → ∀ d', ¬ d'.ClearApplication a b row.content → E d' none) :
    Safe H E (fun r _ ws => r = 0 ∧ ws = none ∧ d.ClearApplication a b row.content)
      (MysqlStore.insertFriendApply a b row) d none := by
  by_cases hfirst : ((0 ≤ a ∧ 0 ≤ b) ∧ row.stored.content.length ≤ 512) ∧ d.friendApplys.get (a, b) = none
  swap
  · have hrefused : ¬ d.ClearApplication a b row.content := fun h => hfirst ⟨⟨⟨h.actor, h.peer⟩, h.fits⟩, h.there⟩
    exact .bind (.exec_error (fun n e he => hfirst ⟨insertFriendApply_fits he, (SQL.insertFriendApply_ok he).1⟩)
      (hE hrefused d hrefused))
  obtain ⟨⟨⟨ha, hb⟩, hfits⟩, hthere⟩ := hfirst
  refine .bind (.exec_auto fun n _ => ⟨_, SQL.insertFriendApply_free n ha hb hfits hthere, ?_⟩)
  by_cases hsecond : a ≠ b ∧ d.friendApplys.get (b, a) = none
  · refine .bind (.exec_auto fun n _ => ⟨_, SQL.insertFriendApply_free n hb ha hfits ?_,
      .pure ⟨rfl, rfl, ha, hb, hsecond.1, hfits, hthere, hsecond.2⟩⟩)
    exact (get_set_ne _ _ (by simp [Ne.symm hsecond.1])).trans hsecond.2
  -- the first row has been stored, and it stays
  refine .bind (.exec_error (fun n e he => hsecond ?_)
    (hE (fun h => hsecond ⟨h.other, h.back⟩) _ fun h => ?_))
  · have hback := (SQL.insertFriendApply_ok he).1
    by_cases hne : a = b
    · subst hne
      cases (get_set_self _ _ _).symm.trans hback
    · exact ⟨hne, (get_set_ne _ _ (by simp [Ne.symm hne])).symm.trans hback⟩
  · cases (get_set_self _ _ _).symm.trans h.there

/-! ### Receipts and history -/

theorem lockReceipt_total (uid : ℤ) (deviceId : String) (messageId conversationId seq : ℤ) (n : ℕ) (d : Db) :
    ∃ e, lockReceipt uid deviceId messageId conversationId seq n d = .ok e := by
  rw [lockReceipt]
  split
  · split <;> exact ⟨_, rfl⟩
  · exact ⟨_, rfl⟩

omit [Collation] in
theorem updateReceipt_total (status : MessageStatus) (time : String) (messageId : ℤ) (n : ℕ) (d : Db) :
    ∃ e, updateReceipt status time messageId n d = .ok e := by
  rw [updateReceipt]
  split <;> exact ⟨_, rfl⟩

omit [Collation] in
theorem updateUserState_total (seq : ℕ) (status : MessageStatus) (uid conversationId : ℤ) (n : ℕ) (d : Db) :
    ∃ e, updateUserState seq status uid conversationId n d = .ok e := by
  rw [updateUserState]
  split <;> exact ⟨_, rfl⟩

theorem acknowledge_safe (op : AcknowledgeConversationMessage) (d : Db) :
    Safe H E (fun r _ ws => ws = none ∧ r.updated ≠ -1) (acknowledgeConversationMessage op) d none := by
  unfold acknowledgeConversationMessage
  split
  · exact .pure ⟨rfl, by decide⟩
  refine .bind (.start (.rethrowing (.bind ?_)))
  refine .exec_total (lockReceipt_total _ _ _ _ _) fun found us => ?_
  cases found with
  | none => exact .bind (.rollback (.pure ⟨rfl, by decide⟩))
  | some found =>
    have hrest {E : Rest} (us : List Write) : Safe H E (fun r _ ws => ws = none ∧ r.updated ≠ -1) (do
        Sql.exec (updateUserState op.conversationSeq.toNat op.status op.uid op.conversationId)
        Sql.exec (upsertDeviceState op.conversationId op.deviceId op.conversationSeq.toNat)
        Sql.commit
        pure ({
          updated := 1, senderUid := found.2.senderId,
          directConversation := decide (found.1 = .direct),
          readStateChanged := decide (found.1 = .direct ∧ found.2.receiverId = op.uid) &&
            decide (op.status = .READ ∧ found.2.status.code < 3) } : ConversationAckResult)) d (some us) := by
      refine .bind (.exec_total (updateUserState_total _ _ _ _) fun _ us => ?_)
      refine .bind (.exec_total (fun _ _ => ⟨_, rfl⟩) fun _ us => ?_)
      exact .bind (.commit (.pure ⟨rfl, show (1 : ℤ) ≠ -1 by decide⟩))
    refine .bind ?_
    unfold acknowledgeConversationMessage.markReceived
    split
    · exact .exec_total (updateReceipt_total _ _ _) fun _ us => hrest us
    · exact .pure (hrest us)

theorem syncConversation_safe (op : SyncConversation) (d : Db) :
    Safe H E (fun r _ ws => ws = none ∧
        (r.error = .JsonParser ∨ r.error = .MessageOwnershipInvalid ∨ r.error = .Success))
      (syncConversation op) d none := by
  unfold syncConversation
  split
  · exact .pure ⟨rfl, .inl rfl⟩
  refine .bind (.select ?_)
  split
  · exact .pure ⟨rfl, .inr (.inl rfl)⟩
  · exact .bind (.select (.pure ⟨rfl, .inr (.inr rfl)⟩))

/-! ### Files -/

theorem saveFileUploadProgress_safe {fileId : String} {row : FileUpload} {d : Db} (hu : 0 ≤ u)
    (hE : ¬ ((varchar 36 fileId).length ≤ 36 ∧ 0 ≤ row.nextOffset) → E d none) :
    Safe H E (fun r d' ws => r = 0 ∧ ws = none ∧ d'.fileObjects = d.fileObjects ∧
        (varchar 36 fileId).length ≤ 36 ∧ 0 ≤ row.nextOffset)
      (saveFileUploadProgress u fileId row) d none := by
  by_cases hfits : (varchar 36 fileId).length ≤ 36 ∧ 0 ≤ row.nextOffset
  · exact .bind (.exec_auto fun n _ => ⟨_, (within_fits (by simpa using hfits.1)).trans
      (insertRows_free (by simp [hu, hfits.2]) rfl), .pure ⟨rfl, rfl, rfl, hfits⟩⟩)
  refine .bind (.exec_error (fun n e he => hfits ?_) (hE hfits))
  obtain ⟨htexts, hinsert⟩ := within_ok he
  exact ⟨by simpa using htexts, (insertRows_ok hinsert).1 _ (by simp)⟩

/-- The values of a file fit their columns, once the columns have cut the texts. -/
structure FileObject.Fits (file : FileObject) : Prop where
  id : file.stored.fileId.length ≤ 36
  name : file.stored.fileName.length ≤ 255
  type : file.stored.fileType.length ≤ 128
  hash : file.sha256.length ≤ 32
  owner : 0 ≤ file.ownerUid
  size : 0 ≤ file.fileSize

/-- The file is new, or a new version of the owner's, and it fits. -/
structure FileObject.Recordable (file : FileObject) (d : Db) : Prop where
  fits : file.Fits
  owner : ∀ f, d.fileObjects.get (weight file.fileId) = some f → f.ownerUid = file.ownerUid

theorem upsertReadyFile_safe {file : FileObject} {d : Db} (hE : ¬ file.Recordable d → E d none) :
    Safe H E (fun r d' ws => ws = none ∧ (r = 0 ↔ file.Recordable d) ∧
        (r ≠ 0 → d'.fileObjects = d.fileObjects))
      (upsertReadyFile file) d none := by
  have hstore (howner : ∀ f, d.fileObjects.get (weight file.fileId) = some f → f.ownerUid = file.ownerUid) :
      Safe H E (fun r d' ws => ws = none ∧ (r = 0 ↔ file.Recordable d) ∧
        (r ≠ 0 → d'.fileObjects = d.fileObjects)) (do
        Sql.exec (upsertFile file)
        pure (0 : ℤ)) d none := by
    by_cases hfits : file.Fits
    · have htexts : ∀ t ∈ [(36, file.stored.fileId.length), (255, file.stored.fileName.length),
          (128, file.stored.fileType.length), (32, file.sha256.length)], t.2 ≤ t.1 := by
        simp [hfits.id, hfits.name, hfits.type, hfits.hash]
      exact .bind (.exec_auto fun n _ => ⟨_, (within_fits htexts).trans
        (insertRows_free (by simp [hfits.owner, hfits.size]) rfl), .pure ⟨rfl, iff_of_true rfl ⟨hfits, howner⟩,
          absurd rfl⟩⟩)
    · refine .bind (.exec_error (fun n e he => hfits ?_) (hE fun h => hfits h.fits))
      obtain ⟨htexts, hinsert⟩ := within_ok he
      have hrange := (insertRows_ok hinsert).1
      simp only [forall_mem_cons] at htexts hrange
      exact ⟨htexts.1, htexts.2.1, htexts.2.2.1, htexts.2.2.2.1, hrange.1, hrange.2.1⟩
  refine .bind (.exec_auto fun n _ => ?_)
  rw [lockFileOwner]
  split
  · rename_i f hf
    refine ⟨_, rfl, ?_⟩
    by_cases howner : f.ownerUid = file.ownerUid
    · rw [if_neg (by simp [howner])]
      refine hstore fun f' hf' => ?_
      cases hf.symm.trans hf'
      exact howner
    · rw [if_pos (by simpa using howner)]
      exact .pure ⟨rfl, by simpa using fun h => howner (h.owner f hf), fun _ => rfl⟩
  · rename_i hnone
    refine ⟨_, rfl, hstore fun f hf => ?_⟩
    cases hnone.symm.trans hf

/-! ### Groups -/

theorem createGroup_safe {g c : ℕ} {group : GroupInfo} {d : Db} (hg : Unused g d) (hc : Unused c d)
    (hconversation : group.conversationId = c) (hmaster : 0 ≤ group.masterUid) :
    Safe H E (fun r _ ws => ws = none ∧
        r.error = if group.stored.name.length ≤ 128 then .Success else .MysqlFailed)
      (createGroup g group) d none := by
  by_cases hfits : group.stored.name.length ≤ 128
  swap
  · refine .bind (.start (.guarded_or (F := fun _ _ => True) (.bind
      (.exec_error (fun n e he => hfits ?_) trivial)) fun _ _ _ _ => ⟨rfl, (if_neg hfits).symm⟩))
    simpa using (within_ok he).1
  refine .bind (.start (.guarded ?_))
  refine .bind (.exec fun n _ =>
    ⟨_, (within_fits (by simpa using hfits)).trans (insertRows_free ?_ ?_), ?_⟩)
  · simp [hmaster, hconversation]
  · rw [Bool.or_eq_false_iff, has_eq_false]
    refine ⟨by simpa using hg.group, fun k r hr => decide_eq_false ?_⟩
    rw [hconversation]
    exact hc.groupConversation k r hr
  refine .bind (.exec fun n _ => ⟨_, insertRows_free ?_ ?_, ?_⟩)
  · simp [hconversation]
  · rw [Bool.or_eq_false_iff, has_eq_false, hconversation]
    exact ⟨by simpa using hc.conversation, fun k r hr => decide_eq_false (hg.business .group k r hr)⟩
  refine .bind (.exec fun n _ => ⟨_, insertRows_free ?_ ?_, ?_⟩)
  · simp [hmaster]
  · simpa using hg.member _
  refine .bind (.exec fun n _ => ⟨_, insertRows_free ?_ ?_, ?_⟩)
  · simp [hmaster, hconversation]
  · simpa [hconversation] using hc.userState _
  exact .bind (.commit (.pure ⟨rfl, (if_pos hfits).symm⟩))

omit [Collation] in
theorem lockGroup_total (g : ℤ) (n : ℕ) (d : Db) : ∃ e, lockGroup g n d = .ok e := by
  rw [lockGroup]
  split <;> exact ⟨_, rfl⟩

omit [Collation] in
theorem insertIgnoreGroupApply_total (g u : ℤ) (row : GroupApply) (n : ℕ) (d : Db) :
    ∃ e, insertIgnoreGroupApply g u row n d = .ok e := by
  rw [insertIgnoreGroupApply]
  split <;> exact ⟨_, rfl⟩

omit [Collation] in
theorem lockMember_total (g u : ℤ) (n : ℕ) (d : Db) : ∃ e, lockMember g u n d = .ok e := by
  rw [lockMember]
  split <;> exact ⟨_, rfl⟩

/-- The answers of a group operation that the store has not failed. -/
def GroupOperationResult.Decided (r : GroupOperationResult) : Prop :=
  r.error = .Success ∨ r.error = .GroupNotExists ∨ r.error = .GroupAlreadyExists ∨
    r.error = .MessageOwnershipInvalid ∨ r.error = .NotFound

theorem requestGroupJoin_safe (g u : ℤ) (message now : String) (d : Db) :
    Safe H E (fun r _ ws => ws = none ∧ r.Decided) (requestGroupJoin g u message now) d none := by
  refine .bind (.start (.guarded (.bind (.exec_total (lockGroup_total g) fun found us => ?_))))
  cases found with
  | none => exact .bind (.rollback (.pure ⟨rfl, .inr (.inl rfl)⟩))
  | some group =>
    refine .guarded (.bind (.select ?_))
    split
    · exact .bind (.rollback (.pure ⟨rfl, .inr (.inr (.inl rfl))⟩))
    refine .bind (.exec_total (insertIgnoreGroupApply_total g u _) fun affected us => ?_)
    exact .guarded (.bind (.commit (.pure ⟨rfl, .inl rfl⟩)))

theorem removeGroupMember_safe (g a u : ℤ) (dissolve : Bool) (d : Db) :
    Safe H E (fun r _ ws => ws = none ∧ r.Decided) (removeGroupMember g a u dissolve) d none := by
  have hdelete {E : Rest} {Q : Unit → Rest} {us : List Write} {conversationId : ℤ} {dissolves : Bool}
      (h : ∀ us, Q () d (some us)) :
      Safe H E Q (removeGroupMember.deleteRows g u conversationId dissolves) d (some us) := by
    unfold removeGroupMember.deleteRows
    split
    · refine .bind (.exec_total (fun _ _ => ⟨_, rfl⟩) fun _ _ => ?_)
      refine .bind (.exec_total (fun _ _ => ⟨_, rfl⟩) fun _ _ => ?_)
      refine .bind (.exec_total (fun _ _ => ⟨_, rfl⟩) fun _ _ => ?_)
      exact .exec_total (fun _ _ => ⟨_, rfl⟩) fun _ us => h us
    · refine .bind (.exec_total (fun _ _ => ⟨_, rfl⟩) fun _ _ => ?_)
      exact .exec_total (fun _ _ => ⟨_, rfl⟩) fun _ us => h us
  refine .bind (.start (.guarded (.bind (.exec_total (lockGroup_total g) fun found us => ?_))))
  cases found with
  | none => exact .bind (.rollback (.pure ⟨rfl, .inr (.inl rfl)⟩))
  | some group =>
    refine .guarded ?_
    split
    · exact .bind (.rollback (.pure ⟨rfl, .inr (.inr (.inr (.inl rfl)))⟩))
    split
    · exact .bind (.rollback (.pure ⟨rfl, .inr (.inr (.inr (.inl rfl)))⟩))
    refine .bind (.exec_total (lockMember_total g u) fun member us => ?_)
    split
    · exact .bind (.rollback (.pure ⟨rfl, .inr (.inr (.inr (.inr rfl)))⟩))
    refine .bind (.select (.guarded (.bind (hdelete fun us => ?_))))
    exact .bind (.commit (.pure ⟨rfl, .inl rfl⟩))

theorem pullGroup_safe (g u : ℤ) (d : Db) : Safe H E (fun r _ ws => ws = none ∧ r.Decided) (pullGroup g u)
    d none := by
  have hcaught {E : Rest} {r : GroupOperationResult} {x : Operating GroupOperationResult}
      (h : Safe H (fun _ _ => False) (fun r _ ws => ws = none ∧ r.Decided) x d none) :
      Safe H E (fun r _ ws => ws = none ∧ r.Decided) (pullGroup.caught r x) d none :=
    fun b => (h b).catching fun _ _ _ _ => False.elim
  refine hcaught (.bind (.select ?_))
  split
  · exact .pure ⟨rfl, .inr (.inl rfl)⟩
  refine hcaught (.bind (.select ?_))
  split
  · exact .pure ⟨rfl, .inr (.inr (.inr (.inl rfl)))⟩
  refine .bind (.select (hcaught ?_))
  split
  · exact .bind (.select (.pure ⟨rfl, .inl rfl⟩))
  · exact .pure ⟨rfl, .inl rfl⟩

omit [Collation] in
theorem deleteGroupApply_some {g : ℤ} {row : GroupApply} {d : Db} (n : ℕ)
    (h : d.groupApplys.get (g, u) = some row) :
    deleteGroupApply g u n d = .ok { reply := (), writes := [.groupApplys (g, u) none] } := by
  simp [deleteGroupApply, h]

omit [Collation] in
theorem insertUserStateFromNow_free {d : Db} (n : ℕ) (hu : 0 ≤ u)
    (h : d.conversationUserStates.get (c, u) = none) : ∃ e, insertUserStateFromNow u c n d = .ok e := by
  rw [insertUserStateFromNow]
  split
  · rw [insertRows_free (by simpa using hu) (by simp [h])]
    exact ⟨_, rfl⟩
  · exact ⟨_, rfl⟩

/-- Where the membership tables agree, an applicant is no member and has no seat yet. -/
theorem replyGroupJoin_safe {g : ℤ} (accept : Bool) (now : String) {d : Db} (hd : d.Aligned) (hg : 0 ≤ g)
    (hu : 0 ≤ u) : Safe H E (fun r _ ws => ws = none ∧ r.Decided) (replyGroupJoin g a u accept now) d none := by
  have hfinish {E : Rest} {r : GroupOperationResult} {us : List Write} :
      Safe H E (fun r _ ws => ws = none ∧ r.Decided) (replyGroupJoin.finish r) d (some us) :=
    .guarded (.bind (.commit (.pure ⟨rfl, .inl rfl⟩)))
  refine .bind (.start (.guarded (.bind (.exec fun n _ => ?_))))
  rw [lockGroup]
  split
  · rename_i gi hgroup
    refine ⟨_, rfl, .guarded ?_⟩
    split
    · exact .bind (.rollback (.pure ⟨rfl, .inr (.inr (.inr (.inl rfl)))⟩))
    refine .bind (.exec fun n _ => ?_)
    rw [lockGroupApply]
    split
    · rename_i row hrow
      refine ⟨_, rfl, .bind (.exec fun n _ => ⟨_, deleteGroupApply_some n hrow, ?_⟩)⟩
      cases accept with
      | false => exact hfinish
      | true =>
        have hmember : d.groupMembers.get (g, u) = none := by
          rw [← Option.not_isSome_iff_eq_none]
          intro hmember
          cases (hd.applys g u hmember).symm.trans hrow
        have hseat : d.conversationUserStates.get (gi.conversationId, u) = none := by
          rw [← Option.not_isSome_iff_eq_none, ← hd.members g gi hgroup u, hmember]
          simp
        refine .bind (.exec fun n _ => ⟨_, insertRows_free (by simp [hg, hu]) ?_, ?_⟩)
        · exact Option.isSome_eq_false_iff.2 (Option.isNone_iff_eq_none.2 hmember)
        refine .bind (.exec fun n _ => ?_)
        obtain ⟨e, he⟩ := insertUserStateFromNow_free n hu hseat
        exact ⟨e, he, .guarded (.bind (.select hfinish))⟩
    · exact ⟨_, rfl, .bind (.rollback (.pure ⟨rfl, .inr (.inr (.inr (.inr rfl)))⟩))⟩
  · exact ⟨_, rfl, .bind (.rollback (.pure ⟨rfl, .inr (.inl rfl)⟩))⟩

end Imm
