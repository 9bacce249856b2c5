import Imm.Store.Sequences

/-! What lasts. A message keeps its place, its sender and its content for ever, a conversation keeps
    its type and never loses a number, and a participant's `joinedSeq` is fixed as long as the row of
    the participant is there. -/

namespace Imm

open Txn SQL MysqlStore Table

/-- The same message, with a later receipt perhaps. -/
def Message.Same (m m' : Message) : Prop :=
  { m with status := m'.status, readDateTime := m'.readDateTime } = m'

theorem Message.Same.refl (m : Message) : m.Same m := rfl

theorem Message.Same.trans {m m' m'' : Message} (h : m.Same m') (h' : m'.Same m'') : m.Same m'' := by
  simp only [Same] at *
  rw [← h', ← h]

theorem Message.same_receive (m : Message) (status : MessageStatus) (time : String) :
    m.Same (m.receive status time) := rfl

/-- The same conversation, with more messages perhaps. -/
structure Conversation.Extends (c c' : Conversation) : Prop where
  type : c'.type = c.type
  businessId : c'.businessId = c.businessId
  latestSeq : c.latestSeq ≤ c'.latestSeq

theorem Conversation.Extends.refl (c : Conversation) : c.Extends c := ⟨rfl, rfl, Nat.le_refl _⟩

theorem Conversation.Extends.trans {c c' c'' : Conversation} (h : c.Extends c')
    (h' : c'.Extends c'') : c.Extends c'' :=
  ⟨h'.type.trans h.type, h'.businessId.trans h.businessId, h.latestSeq.trans h'.latestSeq⟩

variable [Collation]

section deeds

variable {V : Versions} {t : ℕ} {d : Db} {ls : List (Lock Key)} {o : Operation} {ws : List Write}

/-- `m` is the row that the send `o` stores, in the conversation and at the number it is given. -/
def Operation.Sends : Operation → Message → Prop
  | .acceptDirectText op, m => ∃ c seq, m = op.stored c seq
  | .acceptGroupMessage op, m => ∃ c seq, m = op.stored c seq
  | _, _ => False

omit [Collation] in
theorem Operation.Sends.unread {m : Message} (h : o.Sends m) : m.status = .WAIT ∧ m.readDateTime = "" := by
  cases o with
  | acceptDirectText op | acceptGroupMessage op =>
    obtain ⟨c, seq, rfl⟩ := h
    exact ⟨rfl, rfl⟩
  | _ => exact h.elim

/-- `m` takes the next number of its conversation. -/
def Message.Next (m : Message) (d : Db) : Prop :=
  ∃ conv, d.conversations.get m.conversationId = some conv ∧ m.conversationSeq = conv.latestSeq + 1

/-- The direct recipient of `m` acknowledges it. -/
structure Receives (d : Db) (op : AcknowledgeConversationMessage) (m : Message) : Prop where
  message : d.messages.get op.messageId = some m
  direct : ∃ conv, d.conversations.get op.conversationId = some conv ∧ conv.type = .direct
  recipient : m.receiverId = op.uid

theorem Deed.messages_cases (h : Deed V t d ls o ws) :
    (applyAll ws d).messages = d.messages ∨
    (∃ k m, d.messages.get k = none ∧ o.Sends m ∧ m.Next d ∧
      (applyAll ws d).messages = d.messages.set k (some m)) ∨
    ∃ op m, o = .acknowledgeConversationMessage op ∧ Receives d op m ∧
      (applyAll ws d).messages = d.messages.set op.messageId (some (m.receive op.status op.readDateTime)) := by
  cases h with
  | idle | apply | answer | befriend | upload | reupload | progress | profile | found | requestJoin | reject
  | welcome | welcomeBare => exact .inl rfl
  | unfriend => exact .inl (applyAll_map Db.messages _ _ rfl)
  | @sendDirect op c m conv joins _ _ _ hjoins hconv hid _ =>
    refine .inr (.inl ⟨m, op.stored c (conv.latestSeq + 1), hid, ⟨_, _, rfl⟩, ⟨conv, hconv, rfl⟩, ?_⟩)
    simp [applyAll_append, hjoins.rest.2]
  | joinDirect _ _ hjoins => exact .inl hjoins.rest.2
  | sendGroup _ _ _ hconv hid _ => exact .inr (.inl ⟨_, _, hid, ⟨_, _, rfl⟩, ⟨_, hconv, rfl⟩, rfl⟩)
  | @receive op m st receipt persisted hmessage hack _ _ =>
    obtain ⟨conv, hconv, hreceipt⟩ := hack.receipt
    split at hreceipt
    · rename_i hdirect
      subst hreceipt
      exact .inr (.inr ⟨op, m, rfl, ⟨hmessage, ⟨conv, hconv, hdirect.1⟩, hdirect.2⟩, rfl⟩)
    subst hreceipt
    exact .inl rfl
  | leave _ _ _ _ _ _ hstates => rcases hstates with rfl | ⟨rfl, -⟩ <;> exact .inl rfl
  | dissolve => exact .inl (dissolved_rest Db.messages rfl rfl rfl rfl)

theorem Deed.message (h : Deed V t d ls o ws) {k : ℤ} {row : Message} (hrow : d.messages.get k = some row) :
    ∃ row', (applyAll ws d).messages.get k = some row' ∧ row.Same row' := by
  rcases h.messages_cases with hsame | ⟨k', m, hnew, -, -, hset⟩ | ⟨op, m, -, hrec, hset⟩
  · exact ⟨row, hsame ▸ hrow, .refl row⟩
  · exact ⟨row, hset ▸ get_set_new hnew hrow, .refl row⟩
  rw [hset, get_set]
  split
  · rename_i hk
    obtain rfl := Option.some.inj (hrec.message.symm.trans (hk ▸ hrow))
    exact ⟨_, rfl, m.same_receive _ _⟩
  · exact ⟨row, hrow, .refl row⟩

theorem Deed.message_origin (h : Deed V t d ls o ws) {k : ℤ} {row' : Message}
    (hrow : (applyAll ws d).messages.get k = some row') :
    (∃ row, d.messages.get k = some row ∧ row.Same row') ∨ o.Sends row' ∧ row'.Next d := by
  rcases h.messages_cases with hsame | ⟨k', m, -, hsends, hnext, hset⟩ | ⟨op, m, -, hrec, hset⟩
  · exact .inl ⟨row', hsame ▸ hrow, .refl row'⟩
  · rw [hset, get_set] at hrow
    split at hrow
    · cases hrow
      exact .inr ⟨hsends, hnext⟩
    · exact .inl ⟨row', hrow, .refl row'⟩
  · rw [hset, get_set] at hrow
    split at hrow
    · rename_i hk
      cases hrow
      exact .inl ⟨m, hk ▸ hrec.message, m.same_receive _ _⟩
    · exact .inl ⟨row', hrow, .refl row'⟩

/-- A message that a deed stores has a key that was free, and it is the only one. It is in a direct
    conversation, or it takes the next number of a conversation whose participants stay as they are. -/
theorem Deed.new_message (h : Deed V t d ls o ws) {k : ℤ} {row : Message}
    (hnone : d.messages.get k = none) (hrow : (applyAll ws d).messages.get k = some row) :
    (∃ key, row.clientKey = some key ∧ d.NoClientMessage key) ∧
      (∀ k' ≠ k, (applyAll ws d).messages.get k' = d.messages.get k') ∧
      ((∃ d' a b, Before V t d' ∧ friendConversation a b d' = some row.conversationId) ∨
        ∃ conv, d.conversations.get row.conversationId = some conv ∧
          row.conversationSeq = conv.latestSeq + 1 ∧
          (applyAll ws d).conversationUserStates = d.conversationUserStates) := by
  have old : ∀ {d' : Db}, d'.messages = d.messages → ¬ d'.messages.get k = some row := by
    intro d' hd' hget
    rw [hd', hnone] at hget
    cases hget
  have new : ∀ {m : ℤ} {row' : Message}, (applyAll ws d).messages = d.messages.set m (some row') →
      row' = row ∧ ∀ k' ≠ k, (applyAll ws d).messages.get k' = d.messages.get k' := by
    intro m row' hset
    rw [hset] at hrow ⊢
    by_cases hk : k = m
    · subst hk
      exact ⟨Option.some.inj ((get_set_self _ _ _).symm.trans hrow), fun _ hne =>
        get_set_ne _ _ hne⟩
    · cases hnone.symm.trans ((get_set_ne _ _ hk).symm.trans hrow)
  cases h with
  | idle | apply | answer | upload | reupload | progress | profile | befriend | found | requestJoin | reject
  | welcome | welcomeBare =>
    exact absurd hrow (old rfl)
  | unfriend => exact absurd hrow (old (applyAll_map Db.messages _ _ rfl))
  | @sendDirect op c m conv joins d' hbefore hfriends hjoins _ _ hkey =>
    obtain ⟨rfl, hrest⟩ := @new m (op.stored c (conv.latestSeq + 1)) (by
      simp [applyAll_append, hjoins.rest.2])
    exact ⟨⟨_, (Message.clientKey_stored _).trans (clientKey_eq rfl rfl), hkey⟩, hrest,
      .inl ⟨d', _, _, hbefore, hfriends⟩⟩
  | joinDirect _ _ hjoins => exact absurd hrow (old hjoins.rest.2)
  | sendGroup _ _ _ hconv _ hkey =>
    obtain ⟨rfl, hrest⟩ := new rfl
    exact ⟨⟨_, (Message.clientKey_stored _).trans (clientKey_eq rfl rfl), hkey⟩, hrest, .inr ⟨_, hconv, rfl, rfl⟩⟩
  | @receive op m st receipt persisted hmessage _ hreceipt _ =>
    rcases hreceipt with rfl | rfl
    · exact absurd hrow (old rfl)
    have hk : k ≠ op.messageId := by
      rintro rfl
      simp [hmessage] at hnone
    cases hnone.symm.trans ((get_set_ne _ _ hk).symm.trans hrow)
  | leave _ _ _ _ _ _ hstates => rcases hstates with rfl | ⟨rfl, -⟩ <;> exact absurd hrow (old rfl)
  | dissolve =>
    exact absurd hrow (old (dissolved_rest Db.messages rfl rfl rfl rfl))

theorem Deed.conversation (h : Deed V t d ls o ws) {k : ℤ} {conv : Conversation}
    (hconv : d.conversations.get k = some conv) :
    ∃ conv', (applyAll ws d).conversations.get k = some conv' ∧ conv.Extends conv' := by
  have same : ∀ {d' : Db}, d'.conversations = d.conversations →
      ∃ conv', d'.conversations.get k = some conv' ∧ conv.Extends conv' :=
    fun h => ⟨conv, h ▸ hconv, .refl conv⟩
  have sent : ∀ {c : ℤ} {old : Conversation}, d.conversations.get c = some old →
      ∃ conv', (d.conversations.set c (some { old with latestSeq := old.latestSeq + 1 })).get k =
        some conv' ∧ conv.Extends conv' := by
    intro c old hold
    by_cases hk : k = c
    · obtain rfl : old = conv := Option.some.inj (hold.symm.trans (hk ▸ hconv))
      exact ⟨{ old with latestSeq := old.latestSeq + 1 }, by rw [hk, get_set_self], rfl, rfl, Nat.le_succ _⟩
    · exact ⟨conv, by rw [get_set_ne _ _ hk, hconv], .refl conv⟩
  cases h with
  | idle | apply | answer | upload | reupload | progress | profile | requestJoin | reject | welcome
  | welcomeBare => exact same rfl
  | befriend _ hnew _ _ => exact ⟨conv, get_set_new hnew hconv, .refl conv⟩
  | found _ _ hnew _ _ _ => exact ⟨conv, get_set_new hnew hconv, .refl conv⟩
  | unfriend => exact same (applyAll_map Db.conversations _ _ rfl)
  | sendDirect _ _ hjoins hold _ _ =>
    simpa [applyAll_append, hjoins.rest.1] using sent hold
  | joinDirect _ _ hjoins => exact same hjoins.rest.1
  | sendGroup _ _ _ hold _ _ => exact sent hold
  | receive _ _ hreceipt _ => rcases hreceipt with rfl | rfl <;> exact same rfl
  | leave _ _ _ _ _ _ hstates => rcases hstates with rfl | ⟨rfl, -⟩ <;> exact same rfl
  | dissolve => exact same (dissolved_rest Db.conversations rfl rfl rfl rfl)

/-- The operation opens the conversation `c`. -/
def Operation.Opens (c : ℤ) : Operation → Prop
  | .insertFriend _ conversationId _ _ _ => conversationId = c
  | .createGroup _ group => group.conversationId = c
  | _ => False

theorem Deed.conversation_origin (h : Deed V t d ls o ws) {c : ℤ}
    (hconv : ((applyAll ws d).conversations.get c).isSome) :
    (d.conversations.get c).isSome ∨ o.Opens c := by
  have same : ∀ {d' : Db}, d'.conversations = d.conversations → (d'.conversations.get c).isSome →
      (d.conversations.get c).isSome := fun h hd' => h ▸ hd'
  have sent : ∀ {c' : ℤ} {old new : Conversation}, d.conversations.get c' = some old →
      ((d.conversations.set c' (some new)).get c).isSome → (d.conversations.get c).isSome := by
    intro c' old new hold hset
    by_cases hc : c = c'
    · simp [hc, hold]
    · rwa [get_set_ne _ _ hc] at hset
  have opened : ∀ {c' : ℤ} {new : Conversation}, ((d.conversations.set c' (some new)).get c).isSome →
      (d.conversations.get c).isSome ∨ c' = c := by
    intro c' new hset
    by_cases hc : c = c'
    · exact .inr hc.symm
    rw [get_set_ne _ _ hc] at hset
    exact .inl hset
  cases h with
  | idle | apply | answer | upload | reupload | progress | profile | requestJoin | reject | welcome
  | welcomeBare => exact .inl hconv
  | befriend => exact opened hconv
  | found => exact opened hconv
  | unfriend => exact .inl (same (applyAll_map Db.conversations _ _ rfl) hconv)
  | sendDirect _ _ hjoins hold _ _ =>
    simp only [applyAll_append, applyAll_cons, applyAll_nil, rows_apply, Write.apply, hjoins.rest.1] at hconv
    exact .inl (sent hold hconv)
  | joinDirect _ _ hjoins => exact .inl (same hjoins.rest.1 hconv)
  | sendGroup _ _ _ hold _ _ => exact .inl (sent hold hconv)
  | receive _ _ hreceipt _ => rcases hreceipt with rfl | rfl <;> exact .inl (same rfl hconv)
  | leave _ _ _ _ _ _ hstates => rcases hstates with rfl | ⟨rfl, -⟩ <;> exact .inl (same rfl hconv)
  | dissolve => exact .inl (same (dissolved_rest Db.conversations rfl rfl rfl rfl) hconv)

/-- INSERT IGNORE does not touch a participant that is there. -/
theorem Joins.userState {c : ℤ} {joins : List Write} {k : ℤ × ℤ} {st : UserState} :
    ∀ {d' : Db}, Joins d c joins → d.conversationUserStates.get k = some st →
      (applyAll joins d').conversationUserStates.get k = d'.conversationUserStates.get k := by
  induction joins with
  | nil => exact fun _ _ => rfl
  | cons w joins ih =>
    intro d' h hst
    obtain ⟨u, rfl, hnew⟩ := h w List.mem_cons_self
    rw [applyAll_cons, ih (fun w hw => h w (List.mem_cons_of_mem _ hw)) hst]
    exact get_set_ne _ _ (by rintro rfl; simp [hnew] at hst)

theorem Deed.userState (h : Deed V t d ls o ws) {k : ℤ × ℤ} {st : UserState}
    (hst : d.conversationUserStates.get k = some st) :
    (applyAll ws d).conversationUserStates.get k = none ∨
      ∃ st', (applyAll ws d).conversationUserStates.get k = some st' ∧ st'.joinedSeq = st.joinedSeq := by
  have same : ∀ {T : Table (ℤ × ℤ) UserState}, T.get k = d.conversationUserStates.get k →
      T.get k = none ∨ ∃ st', T.get k = some st' ∧ st'.joinedSeq = st.joinedSeq :=
    fun h => .inr ⟨st, h.trans hst, rfl⟩
  cases h with
  | idle | apply | answer | upload | reupload | progress | profile | requestJoin | reject | welcomeBare
  | sendGroup => exact same rfl
  | befriend _ _ _ hjoins =>
    refine same ?_
    exact hjoins.userState hst
  | found _ _ _ _ _ hjoins =>
    refine same ?_
    exact hjoins.userState hst
  | unfriend =>
    exact same (congrArg (·.get k) (applyAll_map Db.conversationUserStates _ _ rfl))
  | sendDirect _ _ hjoins _ _ _ => exact same (by rw [applyAll_append]; exact hjoins.userState hst)
  | joinDirect _ _ hjoins => exact same (hjoins.userState hst)
  | @receive op m old receipt persisted _ _ hreceipt hold =>
    have hset : (d.conversationUserStates.set (op.conversationId, op.uid)
          (some (old.advance op.conversationSeq.toNat op.status))).get k = none ∨
        ∃ st', (d.conversationUserStates.set (op.conversationId, op.uid)
          (some (old.advance op.conversationSeq.toNat op.status))).get k = some st' ∧
            st'.joinedSeq = st.joinedSeq := by
      by_cases hk : k = (op.conversationId, op.uid)
      · subst hk
        cases hold.symm.trans hst
        exact .inr ⟨_, get_set_self _ _ _, rfl⟩
      · exact same (get_set_ne _ _ hk)
    rcases hreceipt with rfl | rfl <;> exact hset
  | welcome _ _ _ _ hnew => exact same (by rw [hst]; exact get_set_new hnew hst)
  | @leave g _ u _ gi _ _ _ _ _ _ _ _ hstates =>
    rcases hstates with rfl | ⟨rfl, -⟩
    · by_cases hk : k = (gi.conversationId, u)
      · exact .inl (by simp [hk])
      · exact same (by simp [get_set_ne _ _ hk])
    · exact same rfl
  | dissolve =>
    rw [dissolved_userStates]
    split
    · exact .inl rfl
    · exact .inr ⟨st, hst, rfl⟩

end deeds

/-! ### Along a history -/

section history

variable {A : Operation → Prop} {V : Versions} {i j : ℕ} {u v : Version Db Key}

theorem History.message (h : History A V) (hij : i ≤ j) (hu : V[i]? = some u) (hv : V[j]? = some v)
    {k : ℤ} {row : Message} (hrow : u.db.messages.get k = some row) :
    ∃ row', v.db.messages.get k = some row' ∧ row.Same row' :=
  h.grows .refl .trans (·.message) hij hu hv hrow

theorem History.conversation (h : History A V) (hij : i ≤ j) (hu : V[i]? = some u)
    (hv : V[j]? = some v) {k : ℤ} {conv : Conversation} (hconv : u.db.conversations.get k = some conv) :
    ∃ conv', v.db.conversations.get k = some conv' ∧ conv.Extends conv' :=
  h.grows .refl .trans (·.conversation) hij hu hv hconv

/-- A participant who is there all the time keeps its `joinedSeq`. -/
theorem History.joinedSeq (h : History A V) (hij : i ≤ j) (hu : V[i]? = some u) (hv : V[j]? = some v)
    {k : ℤ × ℤ} {st st' : UserState} (hst : u.db.conversationUserStates.get k = some st)
    (hst' : v.db.conversationUserStates.get k = some st')
    (hstay : ∀ n w, i ≤ n → n ≤ j → V[n]? = some w → (w.db.conversationUserStates.get k).isSome) :
    st'.joinedSeq = st.joinedSeq := by
  refine h.stays (f := (·.conversationUserStates.get k)) (R := fun st st' => st'.joinedSeq = st.joinedSeq)
    (fun _ => rfl) (fun h h' => h'.trans h) (fun hdeed hst hst' => ?_) hij hu hv hst hst' hstay
  rcases hdeed.userState hst with hnone | ⟨st₂, hst₂, hjoined⟩
  · simp [hnone] at hst'
  cases hst₂.symm.trans hst'
  exact hjoined

end history

end Imm
