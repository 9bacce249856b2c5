import Imm.Store.FriendDeeds

/-! The message operations commit nothing but their deeds, and a successful answer names a stored
    message. -/

namespace Imm

open Txn SQL MysqlStore List

variable [Collation] {V : Versions} {J : ℕ → Prop} {a₀ : ℕ} {dn₀ : Option ℕ}

omit [Collation] in
theorem clientKey_eq [Collation] {m : Message} {s : ℤ} {c : String} (hs : m.senderId = s)
    (hc : m.clientMessageId = some c) : m.clientKey = some (s, weight c) := by
  simp [Message.clientKey, hs, hc]

section joins

variable {c : ℤ} {us : List ℤ} {d : Db}

theorem joins_conversations : (applyAll (us.map (joinedAtOne c)) d).conversations = d.conversations :=
  applyAll_untouched Db.conversations fun w hw d => by
    obtain ⟨u, -, rfl⟩ := mem_map.1 hw
    rfl

theorem joins_messages : (applyAll (us.map (joinedAtOne c)) d).messages = d.messages :=
  applyAll_untouched Db.messages fun w hw d => by
    obtain ⟨u, -, rfl⟩ := mem_map.1 hw
    rfl

end joins

section sends

variable {c senderId : ℤ} {clientMessageId : String} {ws : List Write} {y : Tx Key Write} {t g j : ℕ}
  {u v w : Version Db Key}

theorem refers_found {mid : ℤ} {m : Message} {r : MessageAcceptResult} (hv : V[g]? = some u)
    (hget : u.db.messages.get mid = some m) (hkey : m.clientKey = some (senderId, weight clientMessageId))
    (hr : r.messageId = mid ∨ r.duplicate = false) : Refers V senderId clientMessageId r := fun _ =>
  ⟨u, mem_of_getElem? hv, mid, m, hget, hkey, fun h => by simpa [h] using hr⟩

theorem updateLatestSeq_landing {seq n : ℕ} {conv : Conversation} {e : Effect Key Write Unit}
    (hland : Landing V t y v) (hheld : (exclusive (.conversation c), g) ∈ y.held) (hu : V[g]? = some u)
    (hconv : u.db.conversations.get c = some conv) (hgj : g ≤ j) (hjt : j ≤ t) (hw : V[j]? = some w)
    (hws : (applyAll ws w.db).conversations = w.db.conversations)
    (h : updateLatestSeq seq c n (applyAll ws w.db) = .ok e) :
    v.db.conversations.get c = some conv ∧
      e = { reply := (), writes := [.conversations c (some { conv with latestSeq := seq })] } := by
  have hfound : w.db.conversations.get c = some conv :=
    (conversations_frame.between hland hheld hu hgj hjt hw).trans hconv
  refine ⟨(conversations_frame.kept hland hheld hu).trans hconv, ?_⟩
  obtain ⟨hnone, -⟩ | ⟨row, hrow, rfl⟩ := updateLatestSeq_ok h
  · rw [hws, hfound] at hnone
    cases hnone
  rw [hws, hfound] at hrow
  cases hrow
  rfl

/-- INSERT locked the message's two keys, so what it found free is free at COMMIT. -/
theorem insertMessage_landing {n : ℕ} {m : Message} (hland : Landing V t y v)
    (hid : (exclusive (.message n), g) ∈ y.held)
    (hclient : (exclusive (.messageClient senderId (weight clientMessageId)), g) ∈ y.held)
    (hu : V[g]? = some u) (hws : (applyAll ws u.db).messages = u.db.messages)
    (hkey : m.clientKey = some (senderId, weight clientMessageId))
    (hnone : (applyAll ws u.db).messages.get n = none)
    (hnew : ∀ key, m.clientKey = some key → (applyAll ws u.db).NoClientMessage key) :
    v.db.messages.get n = none ∧
      v.db.NoClientMessage (senderId, weight clientMessageId) := by
  rw [hws] at hnone
  have hno : u.db.NoClientMessage (senderId, weight clientMessageId) := by
    simpa only [Db.NoClientMessage, hws] using hnew _ hkey
  exact ⟨(messages_frame.kept hland hid hu).trans hnone, noClientMessage_kept hland hclient hu hno⟩

end sends

variable {C : ℕ → Tx Key Write → Prop}

/-- The receipt is recorded on the message if the reader is its direct recipient; either way the locks of
    the first statement are kept. -/
theorem markReceived_ensures (op : AcknowledgeConversationMessage) {m : Message} {x : Tx Key Write} {t₁ : ℕ}
    {v₁ : Version Db Key} {direct : Bool} (hx : x.writes = []) (hv₁ : V[t₁]? = some v₁)
    (hm : v₁.db.messages.get op.messageId = some m)
    (hlock : (exclusive (.message op.messageId), t₁) ∈ x.held) :
    Ensures V J C (fun _ a tx dn => dn = dn₀ ∧ t₁ ≤ a ∧ ∃ y : Tx Key Write, tx = some y ∧
        (∀ p ∈ x.held, p ∈ y.held) ∧ (y.writes = [] ∨ ∃ row, y.writes = [.messages op.messageId (some row)]) ∧
        ∀ t z v, Landing V t z v → a ≤ t → (∀ p ∈ y.held, p ∈ z.held) → y.writes = if direct then
          [.messages op.messageId (some (m.receive op.status op.readDateTime))] else [])
      (acknowledgeConversationMessage.markReceived op direct) t₁ (some x) dn₀ := by
  unfold acknowledgeConversationMessage.markReceived
  split
  · rename_i hdirect
    refine .exec fun t v n e ht hv hs => ⟨rfl, ht, _, rfl, by simp +contextual, ?_, ?_⟩
    · obtain ⟨-, rfl⟩ | ⟨row, -, rfl⟩ := updateReceipt_ok hs
      · exact .inl (by simp [hx])
      · exact .inr ⟨row.receive op.status op.readDateTime, by simp [hx]⟩
    · intro t' z v' hland ha hsub
      have hrow := messages_frame.between hland
        (hsub (exclusive (.message op.messageId), t₁) (by simp [hlock])) hv₁ ht ha hv.here
      rw [hm] at hrow
      rw [hx, applyAll_nil] at hs
      obtain ⟨hnone, -⟩ | ⟨row, hrow', rfl⟩ := updateReceipt_ok hs
      · rw [hrow] at hnone
        cases hnone
      cases hrow.symm.trans hrow'
      simp [hx]
  · rename_i hdirect
    exact .pure ⟨rfl, Nat.le_refl _, _, rfl, fun _ h => h, .inl hx, fun _ _ _ _ _ _ => by simp [hx]⟩

variable (hJ : ∀ j, J j → ∃ x : Tx Key Write, Commits V j x)

include hJ

theorem acceptDirectText_ensures (op : AcceptDirectText) :
    Ensures V J (Does V (.acceptDirectText op))
      (fun r _ tx dn => tx = none ∧ (r.error = .Success → Accepted V op.senderId op.receiverId
        op.clientMessageId op.messageType op.content r dn) ∧ Refers V op.senderId op.clientMessageId r)
      (MysqlStore.acceptDirectText op) a₀ none dn₀ := by
  refine .bind (.start (guarded_ensures ?_ fun e a dn =>
    ⟨rfl, by rintro ⟨⟩, refers_not rfl (by rintro ⟨⟩)⟩))
  refine .bind (.select_first rfl fun t₀ v₀ _ hv₀ => ?_)
  split
  · exact .bind (.rollback (.pure ⟨rfl, by simp, refers_not rfl (by simp)⟩))
  rename_i c hfriends
  refine guarded_ensures ?_ fun e a dn => ⟨rfl, by rintro ⟨⟩, refers_not rfl (by rintro ⟨⟩)⟩
  refine .bind (.exec fun t₁ v₁ n₁ e₁ ht₁ hv₁ h₁ => ?_)
  obtain ⟨us, ls, hus, rfl⟩ : ∃ (us : List ℤ) (ls : List (Lock Key)),
      (∀ u ∈ us, v₁.db.conversationUserStates.get (c, u) = none) ∧
        e₁ = { reply := (), reads := ls, writes := us.map (joinedAtOne c) } := by
    cases h₁
    exact ⟨_, _, fun u hu => by simpa using (mem_filter.1 hu).2, rfl⟩
  -- the rows INSERT IGNORE added are locked, so they are still new at the commit
  have joins : ∀ {t v y}, Landing V t y v →
      (∀ u ∈ us, (⟨.userState c u, .exclusive⟩, t₁) ∈ y.held) → Joins v.db c (us.map (joinedAtOne c)) := by
    intro t v y hland hheld w hw
    obtain ⟨u, hu, rfl⟩ := mem_map.1 hw
    exact ⟨u, rfl, (userStates_frame.kept hland (hheld u hu) hv₁.here).trans (hus u hu)⟩
  refine .bind (.exec fun t₂ v₂ n₂ e₂ ht₂ hv₂ h₂ => ?_)
  obtain rfl | ⟨conv, hconv, rfl⟩ := lockLatestSeq_ok h₂
  · exact .bind (.rollback (.pure ⟨rfl, by simp, refers_not rfl (by simp)⟩))
  simp only [Tx.writes_add, nil_append, joins_conversations] at hconv
  refine .bind (.select_again rfl fun v₀' hv₀' => ?_)
  cases hv₀.here.symm.trans hv₀'.here
  simp only [Tx.writes_add, nil_append, append_nil, duplicateMessage, joins_messages]
  have before : ∀ {t}, t₂ ≤ t → Before V t v₀.db := fun {t} ht =>
    ⟨t₀, v₀, ht₁.trans (ht₂.trans ht), hv₀.here, rfl⟩
  split
  · rename_i mid m hm
    obtain ⟨hget, hkey⟩ := Table.of_first hm
    have hkey' : m.clientKey = some (op.senderId, weight op.clientMessageId) := by simpa using hkey
    split
    · rename_i hsame
      refine guarded_ensures ?_ fun e a dn => ⟨rfl, by rintro ⟨⟩, refers_found hv₀.here hget hkey' (.inl rfl)⟩
      refine .bind (.commit_landing hJ fun t v ht hland _ => ⟨⟨v, hland.here, ?_⟩, ?_⟩)
      · have hj := joins hland fun u hu => by simp [joinedAtOne, hu]
        simpa using Deed.joinDirect (before ht) hfriends hj
      · exact .pure ⟨rfl, fun _ =>
          ⟨t₀, v₀, m, hv₀.here, hget, hkey', hsame, rfl, by simp⟩,
          refers_found hv₀.here hget hkey' (.inl rfl)⟩
    · exact .bind (.rollback (.pure ⟨rfl, by simp, refers_found hv₀.here hget hkey' (.inr rfl)⟩))
  · refine guarded_ensures ?_ fun e a dn => ⟨rfl, by rintro ⟨⟩, refers_not rfl (by rintro ⟨⟩)⟩
    refine .bind (.exec fun t₃ v₃ n₃ e₃ ht₃ hv₃ h₃ => ?_)
    refine .bind (.exec fun t₄ v₄ n₄ e₄ ht₄ hv₄ h₄ => ?_)
    obtain ⟨hid, hnew, rfl⟩ := insertMessage_ok h₄
    refine guarded_ensures ?_ fun e a dn => ⟨rfl, by rintro ⟨⟩, refers_not rfl (by rintro ⟨⟩)⟩
    refine .bind (.commit_landing hJ fun t v ht hland hv' => ?_)
    obtain ⟨hconv', rfl⟩ := updateLatestSeq_landing hland (by simp) hv₂.here hconv ht₃ (ht₄.trans ht)
      hv₃.here (by simp [joins_conversations]) h₃
    obtain ⟨hid', hkey'⟩ := insertMessage_landing hland (by simp)
      (by simp [clientKey_eq (m := op.message c (conv.latestSeq + 1)) rfl rfl]) hv₄.here (by simp [joins_messages])
      (clientKey_eq rfl rfl) hid hnew
    refine ⟨⟨v, hland.here, ?_⟩, .pure ⟨rfl, fun _ => ⟨t + 1, _, op.stored c (conv.latestSeq + 1), hv',
      ?_, (Message.clientKey_stored _).trans (clientKey_eq rfl rfl), ?_, ?_,
      fun _ => ⟨rfl, t, v, rfl, hland.here, hkey'⟩⟩,
      refers_not rfl (by simp)⟩⟩
    · have hj := joins hland fun u hu => by simp [joinedAtOne, hu]
      simpa using Deed.sendDirect (before (ht₃.trans (ht₄.trans ht))) hfriends hj hconv' hid' hkey'
    · simp
    · simp [sameCommand, AcceptDirectText.message, Message.stored]
    · rfl

theorem recipients_ensures
    {Q : GroupMessageAcceptResult → Post Key Write}
    {op : AcceptGroupMessage} {accepted : GroupMessageAcceptResult} {y : Tx Key Write} {j : ℕ}
    (hview : y.view = some j) (hmembers : ∀ d : Db, (applyAll y.writes d).groupMembers = d.groupMembers)
    (hfailed : ∀ r a dn, r.error = .MysqlFailed → r.duplicate = accepted.duplicate →
      r.messageId = accepted.messageId → Q r a none dn)
    (h : ∀ t u v, a₀ ≤ t → V[j]? = some u → Landing V t y v →
      V[t + 1]? = some ⟨applyAll y.writes v.db, y.locks⟩ → C t y ∧
        Q { accepted with
            recipientUids := otherMemberUids op.groupId op.senderId u.db, error := .Success }
          (t + 1) none (some (t + 1))) :
    Ensures V J C Q (acceptGroupMessage.recipients op accepted) a₀ (some y) dn₀ := by
  refine guarded_ensures ?_ fun e a dn => hfailed _ _ _ rfl rfl rfl
  refine .bind (.select_again hview fun u hu => ?_)
  refine guarded_ensures ?_ fun e a dn => hfailed _ _ _ rfl rfl rfl
  refine .bind (.commit_landing hJ fun t v ht hland hv' => ?_)
  obtain ⟨hC, hQ⟩ := h t u v ht hu.here hland hv'
  refine ⟨hC, .pure ?_⟩
  simpa [otherMemberUids, hmembers] using hQ

theorem acceptGroupMessage_ensures (op : AcceptGroupMessage) :
    Ensures V J (Does V (.acceptGroupMessage op))
      (fun r a tx dn => tx = none ∧ (r.error = .Success →
        Accepted V op.senderId op.groupId op.clientMessageId op.messageType op.content
          r.toMessageAcceptResult dn ∧
        WasMember V op.groupId op.senderId a₀ a ∧ (r.duplicate = false → Delivered V op r dn)) ∧
        Refers V op.senderId op.clientMessageId r.toMessageAcceptResult)
      (MysqlStore.acceptGroupMessage op) a₀ none dn₀ := by
  refine .bind (.start (guarded_ensures ?_ fun e a dn =>
    ⟨rfl, by rintro ⟨⟩, refers_not rfl (by rintro ⟨⟩)⟩))
  refine .bind (.exec fun t₁ v₁ n₁ e₁ ht₁ hv₁ h₁ => ?_)
  obtain rfl | ⟨gi, hgroup, hmember, rfl⟩ := lockGroupMember_ok h₁
  · exact .bind (.rollback (.pure ⟨rfl, by simp, refers_not rfl (by simp)⟩))
  refine guarded_ensures ?_ fun e a dn => ⟨rfl, by rintro ⟨⟩, refers_not rfl (by rintro ⟨⟩)⟩
  -- with or without the file check, nothing is written yet and the two rows stay locked
  refine .bind (.mono
    (Q := fun _ a tx _ => t₁ ≤ a ∧ ∃ y : Tx Key Write, tx = some y ∧ y.writes = [] ∧ y.view = none ∧
      (exclusive (.group op.groupId), t₁) ∈ y.held ∧
      (exclusive (.member op.groupId op.senderId), t₁) ∈ y.held) ?_ (fun _ _ _ h => h) ?_)
  · unfold acceptGroupMessage.fileReady
    split
    · refine .exec fun t v n e ht _ hs => ⟨ht, _, rfl, ?_, rfl, by simp, by simp⟩
      rw [lockReadyFile] at hs
      split at hs <;> cases hs <;> rfl
    · exact .pure ⟨Nat.le_refl _, _, rfl, rfl, rfl, by simp, by simp⟩
  rintro ready a tx dn ⟨ha, y, rfl, hw, hview, hlockG, hlockM⟩
  have hwas : ∀ {b}, a ≤ b → WasMember V op.groupId op.senderId a₀ b := fun {b} hb =>
    ⟨t₁, v₁, ht₁, ha.trans hb, hv₁.here, hmember⟩
  split
  · exact .bind (.rollback (.pure ⟨rfl, by simp, refers_not rfl (by simp)⟩))
  refine .bind (.exec fun t₂ v₂ n₂ e₂ ht₂ hv₂ h₂ => ?_)
  rw [hw] at h₂
  obtain rfl | ⟨conv, hconv, rfl⟩ := lockLatestSeq_ok h₂
  · exact .bind (.rollback (.pure ⟨rfl, by simp, refers_not rfl (by simp)⟩))
  refine .bind (.select_first hview fun t₃ v₃ ht₃ hv₃ => ?_)
  simp only [Tx.writes_add, hw, append_nil, applyAll_nil, duplicateMessage]
  split
  · rename_i mid m hm
    obtain ⟨hget, hkey⟩ := Table.of_first hm
    have hkey' : m.clientKey = some (op.senderId, weight op.clientMessageId) := by simpa using hkey
    split
    · rename_i hsame
      refine recipients_ensures hJ rfl (by simp)
        (fun r _ _ hr _ hid => ⟨rfl, by simp [hr], refers_found hv₃.here hget hkey' (.inl hid)⟩)
        fun t u v ht _ hland _ => ?_
      refine ⟨⟨v, hland.here, by simpa [hw] using Deed.idle _⟩, rfl, fun _ => ⟨?_, ?_, by simp⟩,
        refers_found hv₃.here hget hkey' (.inl rfl)⟩
      · exact ⟨t₃, v₃, m, hv₃.here, hget, hkey', hsame, rfl, by simp⟩
      · exact hwas (ht₂.trans (ht₃.trans (ht.trans (Nat.le_succ t))))
    · exact .bind (.rollback (.pure ⟨rfl, by simp, refers_found hv₃.here hget hkey' (.inr rfl)⟩))
  · refine guarded_ensures ?_ fun e a dn => ⟨rfl, by rintro ⟨⟩, refers_not rfl (by rintro ⟨⟩)⟩
    refine .bind (.exec fun t₄ v₄ n₄ e₄ ht₄ hv₄ h₄ => ?_)
    refine .bind (.exec fun t₅ v₅ n₅ e₅ ht₅ hv₅ h₅ => ?_)
    obtain ⟨hid, hnew, rfl⟩ := insertMessage_ok h₅
    have hmembers : ∀ d : Db, (applyAll e₄.writes d).groupMembers = d.groupMembers := by
      obtain ⟨-, rfl⟩ | ⟨r, -, rfl⟩ := updateLatestSeq_ok h₄ <;> simp
    refine recipients_ensures hJ rfl (by simp [hmembers])
      (fun r _ _ hr hdup _ => ⟨rfl, by simp [hr], refers_not hdup (by simp [hr])⟩)
      fun t u v ht hu hland hv' => ?_
    obtain ⟨hconv', rfl⟩ := updateLatestSeq_landing hland (by simp) hv₂.here hconv (ht₃.trans ht₄)
      (ht₅.trans ht) hv₄.here (by simp) h₄
    obtain ⟨hid', hkey'⟩ := insertMessage_landing hland (by simp)
      (by simp [clientKey_eq (m := op.message gi.conversationId (conv.latestSeq + 1)) rfl rfl]) hv₅.here (by simp)
      (clientKey_eq rfl rfl) hid hnew
    have hgroup' : v.db.groupInfo.get op.groupId = some gi :=
      (groupInfo_frame.kept (m := .exclusive) hland (by simp [hlockG]) hv₁.here).trans hgroup
    have hmember' : (v.db.groupMembers.get (op.groupId, op.senderId)).isSome := by
      rw [groupMembers_frame.kept (m := .exclusive) hland (by simp [hlockM]) hv₁.here]
      exact hmember
    have hquiet := (hland.commits.quiet (exclusive (.group op.groupId), t₁) (by simp [hlockG])).2
    refine ⟨⟨v, hland.here, ?_⟩, rfl, fun _ => ⟨?_, ?_, fun _ => ?_⟩, refers_not rfl (by simp)⟩
    · exact Deed.sendGroup (Tx.mem_locks (g := t₁) (by simp [hlockG])) hgroup' hmember' hconv' hid' hkey'
    · refine ⟨t + 1, _, op.stored gi.conversationId (conv.latestSeq + 1), hv', by simp,
        (Message.clientKey_stored _).trans (clientKey_eq rfl rfl), ?_, ?_, fun _ =>
        ⟨rfl, t, v, rfl, hland.here, hkey'⟩⟩
      · simp [sameCommand, AcceptGroupMessage.message, Message.stored]
      · rfl
    · exact hwas (ht₂.trans (ht₃.trans (ht₄.trans (ht₅.trans (ht.trans (Nat.le_succ t))))))
    · have hsince : Since V (exclusive (.group op.groupId)) t u.db :=
        ⟨t₃, u, ht₄.trans (ht₅.trans ht), hu, rfl, hquiet.later (ha.trans (ht₂.trans ht₃))⟩
      exact ⟨t, v, _, gi, conv, u.db, rfl, hland.here, hv', hgroup', hmember', hconv', hid', rfl, rfl,
        hsince, rfl⟩

omit hJ in
theorem syncConversation_ensures (op : SyncConversation) :
    Ensures V J C (fun r a tx _ => tx = none ∧ (r.error = .Success → Synced V op r a₀ a))
      (MysqlStore.syncConversation op) a₀ none dn₀ := by
  unfold MysqlStore.syncConversation
  split
  · exact .pure ⟨rfl, by simp⟩
  rename_i hvalid
  refine .bind (.select fun t₁ v₁ ht₁ hv₁ => ?_)
  split
  · exact .pure ⟨rfl, by simp⟩
  rename_i c m hmember
  refine .bind (.select fun t₂ v₂ ht₂ hv₂ => ?_)
  exact .pure ⟨rfl, fun _ => ⟨t₁, t₂, v₁, v₂, c, m, ht₁, ht₂, Nat.le_refl _, hv₁.here, hv₂.here,
    by omega, hmember, rfl⟩⟩

theorem acknowledge_ensures (op : AcknowledgeConversationMessage) :
    Ensures V J (Does V (.acknowledgeConversationMessage op))
      (fun r a tx dn => tx = none ∧
        (r.updated ≠ 0 → WasParticipant V op.conversationId op.uid a₀ a ∧ Recorded V op r dn) ∧
        (r.updated = 0 → dn = dn₀ ∧ r.readStateChanged = false))
      (MysqlStore.acknowledgeConversationMessage op) a₀ none dn₀ := by
  unfold MysqlStore.acknowledgeConversationMessage
  split
  · exact .pure ⟨rfl, fun h => absurd rfl h, fun _ => ⟨rfl, rfl⟩⟩
  refine .bind (.start (rethrowing_ensures ?_))
  refine .bind (.exec fun t₁ v₁ n₁ e₁ ht₁ hv₁ h₁ => ?_)
  obtain rfl | ⟨conv, m, hm, hmc, hmq, hconv, hst, rfl⟩ := lockReceipt_ok h₁
  · exact .bind (.rollback (.pure ⟨rfl, fun h => absurd rfl h, fun _ => ⟨rfl, rfl⟩⟩))
  refine .bind ((markReceived_ensures op rfl hv₁.here hm (by simp)).mono (fun _ _ _ h => h) ?_)
  rintro - a tx dn ⟨rfl, ha, y, rfl, hlocks, hwrites, hreceipt⟩
  have hlock : ∀ l ∈ [exclusive (.message op.messageId), exclusive (.conversation op.conversationId),
      exclusive (.userState op.conversationId op.uid)], (l, t₁) ∈ y.held := fun l hl =>
    hlocks _ (by simp at hl; rcases hl with rfl | rfl | rfl <;> simp)
  have hstates : ∀ d : Db, (applyAll y.writes d).conversationUserStates = d.conversationUserStates := by
    rcases hwrites with h | ⟨row, h⟩ <;> simp [h]
  have hdevices : ∀ d : Db, (applyAll y.writes d).conversationDeviceStates = d.conversationDeviceStates := by
    rcases hwrites with h | ⟨row, h⟩ <;> simp [h]
  refine .bind (.exec fun t₂ v₂ n₂ e₂ ht₂ hv₂ h₂ => ?_)
  refine .bind (.exec fun t₃ v₃ n₃ e₃ ht₃ hv₃ h₃ => ?_)
  cases h₃
  refine .bind (.commit_landing hJ fun t v ht hland hv' => ?_)
  obtain ⟨st, hst₁⟩ := Option.isSome_iff_exists.1 hst
  have hst₂ : v₂.db.conversationUserStates.get (op.conversationId, op.uid) = some st :=
    (userStates_frame.between (m := .exclusive) hland (by simp [hlock]) hv₁.here (ha.trans ht₂)
      (ht₃.trans ht) hv₂.here).trans hst₁
  have hst' : v.db.conversationUserStates.get (op.conversationId, op.uid) = some st :=
    (userStates_frame.kept (m := .exclusive) hland (by simp [hlock]) hv₁.here).trans hst₁
  obtain ⟨hnone, -⟩ | ⟨st₂, hget₂, rfl⟩ := updateUserState_ok h₂
  · simp [hstates, hst₂] at hnone
  obtain rfl : st = st₂ := by simpa [hstates, hst₂] using hget₂
  have hm' : v.db.messages.get op.messageId = some m :=
    (messages_frame.kept (m := .exclusive) hland (by simp [hlock]) hv₁.here).trans hm
  have hconv' : v.db.conversations.get op.conversationId = some conv :=
    (conversations_frame.kept (m := .exclusive) hland (by simp [hlock]) hv₁.here).trans hconv
  have hdevice : v.db.conversationDeviceStates.get (op.conversationId, weight op.deviceId)
      = v₃.db.conversationDeviceStates.get (op.conversationId, weight op.deviceId) :=
    deviceStates_frame.kept (m := .exclusive) hland (by simp) hv₃.here
  have hr := hreceipt t _ v hland (ht₂.trans (ht₃.trans ht)) fun p hp => by
    obtain ⟨l, g⟩ := p
    simp [hp]
  have hack : Acknowledges v.db op m y.writes (max ((v.db.conversationDeviceStates.get
      (op.conversationId, weight op.deviceId)).getD 0) op.conversationSeq.toNat) :=
    ⟨hmc, hmq, ⟨conv, hconv', by simpa using hr⟩, rfl⟩
  have hmarked : y.writes = [] ∨
      y.writes = [.messages op.messageId (some (m.receive op.status op.readDateTime))] := by
    rw [hr]
    split
    · exact .inr rfl
    · exact .inl rfl
  refine ⟨⟨v, hland.here, ?_⟩, .pure ⟨rfl, fun _ => ⟨⟨t₁, v₁, ht₁, by omega, hv₁.here, hst⟩,
    t, v, _, m, conv, rfl, hland.here, hv', hm', hconv', ?_, ?_⟩, fun h => absurd h Int.one_ne_zero⟩⟩
  · simpa [hdevices, hdevice] using Deed.receive hm' hack hmarked hst'
  · simp [hr]
    split <;> simp
  · simp

end Imm
