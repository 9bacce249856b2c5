import Imm.Store.Exits
import Imm.Store.Visibility

/-! Receipts. A receipt moves a direct message's own status, the positions of the participant and the
    position of the device, each by GREATEST, under locks on the rows it has read. So all of them only
    grow, none passes the end of the conversation, and the first READ of the recipient is the only one
    that finds the message unread. -/

namespace Imm

open Txn SQL MysqlStore List Table Nat

theorem MessageStatus.code_greatest (a b : MessageStatus) : (a.greatest b).code = max a.code b.code := by
  unfold MessageStatus.greatest
  split <;> omega

theorem MessageStatus.eq_read {a : MessageStatus} : a = .READ ↔ 3 ≤ a.code := by
  cases a <;> decide

/-- A message is read exactly when it has a time of reading. -/
def Message.Timed (m : Message) : Prop := m.status = .READ ↔ m.readDateTime ≠ ""

/-- The first READ is the only receipt that changes the time. -/
theorem Message.Timed.receive_time {m : Message} (h : m.Timed) {status : MessageStatus} {time : String}
    (htime : status = .READ → time ≠ "") :
    (m.receive status time).readDateTime ≠ m.readDateTime ↔ status = .READ ∧ m.status.code < 3 := by
  have hread : m.status.code < 3 ↔ m.readDateTime = "" := by
    rw [← not_iff_not, not_lt, ← MessageStatus.eq_read]
    exact h
  simp only [Message.receive, hread, or_self]
  split
  · rename_i hfirst
    simp [hfirst.1, hfirst.2, htime hfirst.1]
  rename_i hlater
  simpa using hlater

theorem Message.Timed.receive {m : Message} (h : m.Timed) {status : MessageStatus} {time : String}
    (htime : status = .READ → time ≠ "") : (m.receive status time).Timed := by
  have hread : (m.receive status time).status = .READ ↔ m.status = .READ ∨ status = .READ := by
    simp only [MessageStatus.eq_read, Message.receive, MessageStatus.code_greatest]
    omega
  unfold Message.Timed at *
  rw [hread, h]
  simp only [Message.receive]
  split
  · rename_i hfirst
    simp [hfirst.1, htime hfirst.1]
  rename_i hlater
  refine or_iff_left_of_imp fun hstatus => ?_
  rw [not_and, not_or] at hlater
  exact (hlater hstatus).2

/-- Positions and times of a database in which every receipt was recorded in turn. -/
structure Db.Receipted (d : Db) : Prop where
  timed : ∀ k m, d.messages.get k = some m → m.Timed
  states : ∀ k st conv, d.conversationUserStates.get k = some st → d.conversations.get k.1 = some conv →
    st.readSeq ≤ st.deliveredSeq ∧ st.deliveredSeq ≤ conv.latestSeq
  devices : ∀ k seq, d.conversationDeviceStates.get k = some seq →
    ∃ conv, d.conversations.get k.1 = some conv ∧ seq ≤ conv.latestSeq

variable [Collation]

/-! ### What a deed does -/

section deeds

variable {V : Versions} {t : ℕ} {d : Db} {ls : List (Lock Key)} {o : Operation} {ws : List Write}

/-- The message a receipt names, where it is. -/
structure Located (d : Db) (op : AcknowledgeConversationMessage) (m : Message) : Prop where
  message : d.messages.get op.messageId = some m
  conversationId : m.conversationId = op.conversationId
  conversationSeq : (m.conversationSeq : ℤ) = op.conversationSeq

theorem Deed.states_cases (h : Deed V t d ls o ws) {k : ℤ × ℤ} {st' : UserState}
    (hst' : (applyAll ws d).conversationUserStates.get k = some st') :
    d.conversationUserStates.get k = some st' ∨
    (d.conversationUserStates.get k = none ∧ st'.deliveredSeq = 0 ∧ st'.readSeq = 0) ∨
    ∃ op m st, o = .acknowledgeConversationMessage op ∧ Located d op m ∧
      k = (op.conversationId, op.uid) ∧ d.conversationUserStates.get k = some st ∧
      st' = st.advance op.conversationSeq.toNat op.status := by
  have joined : ∀ {c joins} {d' : Db}, Joins d c joins →
      d'.conversationUserStates = d.conversationUserStates →
      (applyAll joins d').conversationUserStates.get k = some st' →
      d.conversationUserStates.get k = some st' ∨
        (d.conversationUserStates.get k = none ∧ st'.deliveredSeq = 0 ∧ st'.readSeq = 0) := by
    intro c joins d' hjoins hd' hst
    rcases hjoins.new hst with hold | ⟨hnone, -, rfl⟩
    · exact .inl (hd' ▸ hold)
    · exact .inr ⟨hnone, rfl, rfl⟩
  cases h with
  | idle | apply | answer | upload | reupload | progress | profile | requestJoin | reject | welcomeBare
  | sendGroup => exact .inl hst'
  | unfriend =>
    rw [applyAll_map Db.conversationUserStates _ _ rfl] at hst'
    exact .inl hst'
  | befriend _ _ _ hjoins =>
    exact (joined hjoins rfl hst').imp_right .inl
  | found _ _ _ _ _ hjoins =>
    exact (joined hjoins rfl hst').imp_right .inl
  | sendDirect _ _ hjoins _ _ _ =>
    rw [applyAll_append] at hst'
    exact (joined hjoins rfl hst').imp_right .inl
  | joinDirect _ _ hjoins => exact (joined hjoins rfl hst').imp_right .inl
  | @receive op m old receipt persisted hmessage hack hreceipt hold =>
    have hset : (d.conversationUserStates.set (op.conversationId, op.uid)
        (some (old.advance op.conversationSeq.toNat op.status))).get k = some st' := by
      rcases hreceipt with rfl | rfl <;> exact hst'
    by_cases hk : k = (op.conversationId, op.uid)
    · subst hk
      cases (get_set_self _ _ _).symm.trans hset
      exact .inr (.inr ⟨op, m, old, rfl, ⟨hmessage, hack.conversationId, hack.conversationSeq⟩, rfl, hold, rfl⟩)
    · exact .inl ((get_set_ne _ _ hk).symm.trans hset)
  | @welcome g a u now gi conv _ _ _ _ hnone =>
    by_cases hk : k = (gi.conversationId, u)
    · subst hk
      cases (get_set_self _ _ _).symm.trans hst'
      exact .inr (.inl ⟨hnone, rfl, rfl⟩)
    · exact .inl ((get_set_ne _ _ hk).symm.trans hst')
  | @leave g a u dissolve gi d' states _ _ _ _ _ _ hstates =>
    rcases hstates with rfl | ⟨rfl, -⟩
    · by_cases hk : k = (gi.conversationId, u)
      · subst hk
        cases (get_set_self _ _ _).symm.trans hst'
      · exact .inl ((get_set_ne _ _ hk).symm.trans hst')
    · exact .inl hst'
  | dissolve =>
    rw [dissolved_userStates] at hst'
    split at hst'
    · cases hst'
    · exact .inl hst'

theorem Deed.devices_cases (h : Deed V t d ls o ws) :
    (applyAll ws d).conversationDeviceStates = d.conversationDeviceStates ∨
    ∃ op m, o = .acknowledgeConversationMessage op ∧ Located d op m ∧
      (applyAll ws d).conversationDeviceStates = d.conversationDeviceStates.set
        (op.conversationId, weight op.deviceId) (some (max ((d.conversationDeviceStates.get
          (op.conversationId, weight op.deviceId)).getD 0) op.conversationSeq.toNat)) := by
  cases h with
  | idle | apply | answer | befriend | upload | reupload | progress | profile | found | requestJoin | reject
  | welcome | welcomeBare | sendGroup => exact .inl rfl
  | unfriend => exact .inl (applyAll_map Db.conversationDeviceStates _ _ rfl)
  | sendDirect _ _ hjoins _ _ _ =>
    rw [applyAll_append]
    exact .inl (hjoins.untouched Db.conversationDeviceStates rfl)
  | joinDirect _ _ hjoins => exact .inl (hjoins.untouched Db.conversationDeviceStates rfl)
  | @receive op m st receipt persisted hmessage hack hreceipt _ =>
    refine .inr ⟨op, m, rfl, ⟨hmessage, hack.conversationId, hack.conversationSeq⟩, ?_⟩
    rw [← hack.persisted]
    rcases hreceipt with rfl | rfl <;> rfl
  | leave _ _ _ _ _ _ hstates => rcases hstates with rfl | ⟨rfl, -⟩ <;> exact .inl rfl
  | dissolve => exact .inl (dissolved_rest Db.conversationDeviceStates rfl rfl rfl rfl)

end deeds

/-! ### One deed -/

/-- A READ receipt brings the time of reading; `messages::acknowledge` takes it from the clock. -/
def Operation.Stamped : Operation → Prop
  | .acknowledgeConversationMessage op => op.status = .READ → op.readDateTime ≠ ""
  | _ => True

section step

variable {V : Versions} {t : ℕ} {d : Db} {ls : List (Lock Key)} {o : Operation} {ws : List Write}

omit [Collation] in
theorem Located.le_latest (hs : d.Sound) {op : AcknowledgeConversationMessage} {m : Message}
    (hm : Located d op m) : ∃ conv, d.conversations.get op.conversationId = some conv ∧
      op.conversationSeq.toNat ≤ conv.latestSeq := by
  obtain ⟨conv, hconv⟩ := Option.isSome_iff_exists.1 (hs.attached _ m hm.message)
  rw [hm.conversationId] at hconv
  have hle := ((hs.gapless _ conv hconv).1 _ m hm.message hm.conversationId).2
  have := hm.conversationSeq
  exact ⟨conv, hconv, by omega⟩

theorem Deed.timed (h : Deed V t d ls o ws) (ho : o.Stamped)
    (hold : ∀ k m, d.messages.get k = some m → m.Timed) {k : ℤ} {m' : Message}
    (hm' : (applyAll ws d).messages.get k = some m') : m'.Timed := by
  rcases h.messages_cases with hsame | ⟨k', m, -, hsends, -, hset⟩ | ⟨op, m, rfl, hrec, hset⟩
  · exact hold k m' (hsame ▸ hm')
  · rw [hset, get_set] at hm'
    split at hm'
    · cases hm'
      simp [Message.Timed, hsends.unread]
    · exact hold k m' hm'
  · rw [hset, get_set] at hm'
    split at hm'
    · cases hm'
      exact (hold _ m hrec.message).receive ho
    · exact hold k m' hm'

theorem Deed.states_bounded (h : Deed V t d ls o ws) (hs : d.Sound) (hold : d.Receipted) {k : ℤ × ℤ}
    {st' : UserState} {conv' : Conversation} (hst' : (applyAll ws d).conversationUserStates.get k = some st')
    (hconv' : (applyAll ws d).conversations.get k.1 = some conv') :
    st'.readSeq ≤ st'.deliveredSeq ∧ st'.deliveredSeq ≤ conv'.latestSeq := by
  have hlast : ∀ {st}, d.conversationUserStates.get k = some st →
      ∃ conv, d.conversations.get k.1 = some conv ∧ conv.latestSeq ≤ conv'.latestSeq := by
    intro st hst
    obtain ⟨conv, hconv⟩ := Option.isSome_iff_exists.1 (hs.aligned.state_conversation k.1 k.2 (by simp [hst]))
    obtain ⟨conv'', hconv'', hext⟩ := h.conversation hconv
    cases hconv''.symm.trans hconv'
    exact ⟨conv, hconv, hext.latestSeq⟩
  rcases h.states_cases hst' with hst | ⟨-, hd0, hr0⟩ | ⟨op, m, st, rfl, hm, rfl, hst, rfl⟩
  · obtain ⟨conv, hconv, hle⟩ := hlast hst
    have := hold.states k st' conv hst hconv
    omega
  · omega
  obtain ⟨conv, hconv, hle⟩ := hlast hst
  have hst₀ := hold.states _ st conv hst hconv
  obtain ⟨conv₁, hconv₁, hseq⟩ := hm.le_latest hs
  cases hconv.symm.trans hconv₁
  simp only [UserState.advance]
  split <;> omega

theorem Deed.devices_bounded (h : Deed V t d ls o ws) (hs : d.Sound) (hold : d.Receipted)
    {k : ℤ × String} {seq : ℕ} (hseq : (applyAll ws d).conversationDeviceStates.get k = some seq) :
    ∃ conv, (applyAll ws d).conversations.get k.1 = some conv ∧ seq ≤ conv.latestSeq := by
  have hlater : ∀ {n conv}, d.conversations.get k.1 = some conv → n ≤ conv.latestSeq →
      ∃ conv', (applyAll ws d).conversations.get k.1 = some conv' ∧ n ≤ conv'.latestSeq := by
    intro n conv hconv hn
    obtain ⟨conv', hconv', hext⟩ := h.conversation hconv
    exact ⟨conv', hconv', hn.trans hext.latestSeq⟩
  rcases h.devices_cases with hsame | ⟨op, m, rfl, hm, hset⟩
  · obtain ⟨conv, hconv, hle⟩ := hold.devices k seq (hsame ▸ hseq)
    exact hlater hconv hle
  rw [hset, get_set] at hseq
  split at hseq
  · rename_i hk
    subst hk
    cases hseq
    obtain ⟨conv, hconv, hle⟩ := hm.le_latest hs
    refine hlater hconv (max_le ?_ hle)
    cases hdev : d.conversationDeviceStates.get (op.conversationId, weight op.deviceId) with
    | none => exact zero_le _
    | some seq =>
      obtain ⟨conv₁, hconv₁, hle₁⟩ := hold.devices _ seq hdev
      cases hconv.symm.trans hconv₁
      exact hle₁
  · obtain ⟨conv, hconv, hle⟩ := hold.devices k seq hseq
    exact hlater hconv hle

theorem Deed.receipted (h : Deed V t d ls o ws) (hs : d.Sound) (ho : o.Stamped) (hold : d.Receipted) :
    (applyAll ws d).Receipted :=
  ⟨fun _ _ => h.timed ho hold.timed, fun _ _ _ => h.states_bounded hs hold,
    fun _ _ => h.devices_bounded hs hold⟩

theorem Deed.status_le (h : Deed V t d ls o ws) {k : ℤ} {m : Message} (hm : d.messages.get k = some m) :
    ∃ m', (applyAll ws d).messages.get k = some m' ∧ m.status.code ≤ m'.status.code := by
  rcases h.messages_cases with hsame | ⟨k', m', hnew, -, -, hset⟩ | ⟨op, m₀, rfl, hrec, hset⟩
  · exact ⟨m, hsame ▸ hm, le_refl _⟩
  · exact ⟨m, hset ▸ get_set_new hnew hm, le_refl _⟩
  rw [hset, get_set]
  split
  · rename_i hk
    cases hrec.message.symm.trans (hk ▸ hm)
    refine ⟨_, rfl, ?_⟩
    rw [Message.receive, MessageStatus.code_greatest]
    exact le_max_left _ _
  · exact ⟨m, hm, le_refl _⟩

theorem Deed.states_le (h : Deed V t d ls o ws) {k : ℤ × ℤ} {st st' : UserState}
    (hst : d.conversationUserStates.get k = some st)
    (hst' : (applyAll ws d).conversationUserStates.get k = some st') :
    st.deliveredSeq ≤ st'.deliveredSeq ∧ st.readSeq ≤ st'.readSeq := by
  rcases h.states_cases hst' with hsame | ⟨hnone, -⟩ | ⟨op, m, st₀, rfl, -, -, hst₀, rfl⟩
  · cases hst.symm.trans hsame
    exact ⟨le_refl _, le_refl _⟩
  · cases hst.symm.trans hnone
  cases hst.symm.trans hst₀
  simp only [UserState.advance]
  split <;> omega

theorem Deed.devices_le (h : Deed V t d ls o ws) {k : ℤ × String} {seq : ℕ}
    (hseq : d.conversationDeviceStates.get k = some seq) :
    ∃ seq', (applyAll ws d).conversationDeviceStates.get k = some seq' ∧ seq ≤ seq' := by
  rcases h.devices_cases with hsame | ⟨op, m, rfl, -, hset⟩
  · exact ⟨seq, hsame ▸ hseq, le_refl _⟩
  rw [hset, get_set]
  split
  · rename_i hk
    refine ⟨_, rfl, ?_⟩
    rw [← hk, hseq]
    exact le_max_left _ _
  · exact ⟨seq, hseq, le_refl _⟩

end step

/-! ### Along a history -/

/-- Version `j + 1` has another time of reading for message `k` than version `j`. -/
def ReadAt (V : Versions) (k : ℤ) (j : ℕ) : Prop :=
  ∃ v v' m m', V[j]? = some v ∧ V[j + 1]? = some v' ∧ v.db.messages.get k = some m ∧
    v'.db.messages.get k = some m' ∧ m'.readDateTime ≠ m.readDateTime

/-- Positions and statuses only grow and stay within their conversations. -/
structure Advancing (V : Versions) : Prop where
  status : ∀ (i j : ℕ) (u v : Version Db Key) k m, i ≤ j → V[i]? = some u → V[j]? = some v →
    u.db.messages.get k = some m → ∃ m', v.db.messages.get k = some m' ∧ m.status.code ≤ m'.status.code
  /-- while the row of the participant is there -/
  states : ∀ (i j : ℕ) (u v : Version Db Key) k st st', i ≤ j → V[i]? = some u → V[j]? = some v →
    u.db.conversationUserStates.get k = some st → v.db.conversationUserStates.get k = some st' →
    (∀ n w, i ≤ n → n ≤ j → V[n]? = some w → (w.db.conversationUserStates.get k).isSome) →
    st.deliveredSeq ≤ st'.deliveredSeq ∧ st.readSeq ≤ st'.readSeq
  devices : ∀ (i j : ℕ) (u v : Version Db Key) k seq, i ≤ j → V[i]? = some u → V[j]? = some v →
    u.db.conversationDeviceStates.get k = some seq →
    ∃ seq', v.db.conversationDeviceStates.get k = some seq' ∧ seq ≤ seq'
  states_le : ∀ v ∈ V, ∀ c u st, v.db.conversationUserStates.get (c, u) = some st →
    ∃ conv, v.db.conversations.get c = some conv ∧ st.readSeq ≤ st.deliveredSeq ∧
      st.deliveredSeq ≤ conv.latestSeq
  devices_le : ∀ v ∈ V, ∀ c device seq, v.db.conversationDeviceStates.get (c, device) = some seq →
    ∃ conv, v.db.conversations.get c = some conv ∧ seq ≤ conv.latestSeq

section history

variable {A : Operation → Prop} {V : Versions} (h : History A V)

include h

variable {j i : ℕ} {v u : Version Db Key} {k : ℤ}

theorem History.receipted (hA : ∀ o, A o → o.Stamped)
    (hsound : ∀ (j : ℕ) (v : Version Db Key), V[j]? = some v → v.db.Sound)
    (hinit : ∀ v, V[0]? = some v → v.db.Receipted) (hv : V[j]? = some v) :
    v.db.Receipted := by
  refine h.invariant hinit ?_ j v hv
  intro j v v' o ws hv _ hpast ho hdeed
  exact hdeed.receipted (hsound j v hv) (hA o ho) (hpast j v (le_refl j) hv)

theorem History.status_le (hij : i ≤ j) (hu : V[i]? = some u)
    (hv : V[j]? = some v) {m : Message} (hm : u.db.messages.get k = some m) :
    ∃ m', v.db.messages.get k = some m' ∧ m.status.code ≤ m'.status.code :=
  h.grows (f := (·.messages.get k)) (fun _ => Nat.le_refl _) .trans (·.status_le) hij hu hv hm

theorem History.devices_le (hij : i ≤ j) (hu : V[i]? = some u) (hv : V[j]? = some v) {k : ℤ × String}
    {seq : ℕ} (hseq : u.db.conversationDeviceStates.get k = some seq) :
    ∃ seq', v.db.conversationDeviceStates.get k = some seq' ∧ seq ≤ seq' :=
  h.grows le_refl .trans (·.devices_le) hij hu hv hseq

theorem History.states_le (hij : i ≤ j) (hu : V[i]? = some u) (hv : V[j]? = some v) {k : ℤ × ℤ}
    {st st' : UserState} (hst : u.db.conversationUserStates.get k = some st)
    (hst' : v.db.conversationUserStates.get k = some st')
    (hstay : ∀ n w, i ≤ n → n ≤ j → V[n]? = some w → (w.db.conversationUserStates.get k).isSome) :
    st.deliveredSeq ≤ st'.deliveredSeq ∧ st.readSeq ≤ st'.readSeq :=
  h.stays (f := (·.conversationUserStates.get k)) (fun _ => ⟨le_refl _, le_refl _⟩)
    (fun h h' => ⟨h.1.trans h'.1, h.2.trans h'.2⟩) (·.states_le) hij hu hv hst hst' hstay

/-- The time of reading changes by the first READ of the direct recipient. -/
theorem History.readAt (hA : ∀ o, A o → o.Stamped)
    (htimed : ∀ (j : ℕ) (v : Version Db Key), V[j]? = some v → v.db.Receipted)
    (hread : ReadAt V k j) : ∃ v op m, V[j]? = some v ∧ A (.acknowledgeConversationMessage op) ∧
      op.messageId = k ∧ op.status = .READ ∧ Receives v.db op m ∧ m.status.code < 3 ∧
      ∃ v' m', V[j + 1]? = some v' ∧ v'.db.messages.get k = some m' ∧ m'.status = .READ := by
  obtain ⟨v, v', m, m', hv, hv', hm, hm', hne⟩ := hread
  obtain ⟨o, ws, ho, hdeed, hdb⟩ := h.step hv hv'
  rw [hdb] at hm'
  rcases hdeed.messages_cases with hsame | ⟨k', m₀, hnew, -, -, hset⟩ | ⟨op, m₀, rfl, hrec, hset⟩
  · rw [hsame] at hm'
    exact absurd (congrArg Message.readDateTime (Option.some.inj (hm'.symm.trans hm))) hne
  · rw [hset, get_set_new hnew hm] at hm'
    exact absurd (congrArg Message.readDateTime (Option.some.inj hm').symm) hne
  rw [hset, get_set] at hm'
  split at hm'
  · rename_i hk
    obtain rfl := Option.some.inj (hrec.message.symm.trans (hk ▸ hm))
    obtain rfl := Option.some.inj hm'
    obtain ⟨hstatus, hlt⟩ := ((htimed j v hv).timed _ _ hrec.message).receive_time (hA _ ho) |>.mp hne
    refine ⟨v, op, m₀, hv, ho, hk.symm, hstatus, hrec, hlt, v', _, hv',
      by rw [hdb, hset, get_set, if_pos hk], ?_⟩
    rw [MessageStatus.eq_read, Message.receive, MessageStatus.code_greatest, hstatus]
    exact le_max_right _ _
  · exact absurd (congrArg Message.readDateTime (Option.some.inj (hm'.symm.trans hm))) hne

/-- So it changes at most once. -/
theorem History.readAt_unique (hA : ∀ o, A o → o.Stamped)
    (htimed : ∀ (j : ℕ) (v : Version Db Key), V[j]? = some v → v.db.Receipted)
    (hi : ReadAt V k i) (hj : ReadAt V k j) : i = j := by
  have later : ∀ {i j : ℕ}, ReadAt V k i → ReadAt V k j → ¬ i < j := by
    intro i j hi hj hlt
    obtain ⟨-, -, -, -, -, -, -, -, -, v', m', hv', hm', hread⟩ := h.readAt hA htimed hi
    obtain ⟨w, op, m, hw, -, rfl, -, hrec, hunread, -⟩ := h.readAt hA htimed hj
    obtain ⟨m'', hm'', hle⟩ := h.status_le hlt hv' hw hm'
    cases hm''.symm.trans hrec.message
    rw [hread] at hle
    exact absurd hunread (not_lt.2 hle)
  exact le_antisymm (not_lt.1 (later hj hi)) (not_lt.1 (later hi hj))

end history

/-! ### Runs -/

section runs

variable {d : Db} {s : Store}

theorem Runs.receipted (hrun : Runs d s) (hd : d.Sound) (hr : d.Receipted)
    (hops : ∀ σ ∈ s.sessions, σ.op.Stamped) (j : ℕ) (v : Version Db Key) (hv : s.versions[j]? = some v) :
    v.db.Receipted := by
  refine (hrun.history_of hops).receipted (fun _ h => h) (fun _ _ hv => hrun.sound hd hv) ?_ hv
  intro v hv
  cases hrun.first.symm.trans hv
  exact hr

theorem Runs.advancing (hrun : Runs d s) (hd : d.Sound) (hr : d.Receipted)
    (hops : ∀ σ ∈ s.sessions, σ.op.Stamped) : Advancing s.versions where
  status _ _ _ _ _ _ hij hu hv hm := hrun.history.status_le hij hu hv hm
  states _ _ _ _ _ _ _ hij hu hv hst hst' hstay := hrun.history.states_le hij hu hv hst hst' hstay
  devices _ _ _ _ _ _ hij hu hv hseq := hrun.history.devices_le hij hu hv hseq
  states_le v hv c u st hst := by
    obtain ⟨j, hj⟩ := getElem?_of_mem hv
    obtain ⟨conv, hconv⟩ := Option.isSome_iff_exists.1
      ((hrun.sound hd hj).aligned.state_conversation c u (by simp [hst]))
    exact ⟨conv, hconv, (hrun.receipted hd hr hops j v hj).states _ st conv hst hconv⟩
  devices_le v hv c device seq hseq := by
    obtain ⟨j, hj⟩ := getElem?_of_mem hv
    exact (hrun.receipted hd hr hops j v hj).devices _ seq hseq

/-- A receipt announces the first reading exactly when its own commit has recorded it. -/
theorem Runs.announced (hrun : Runs d s) (hd : d.Sound) (hr : d.Receipted)
    (hops : ∀ σ ∈ s.sessions, σ.op.Stamped) {σ : Session Db Key Write Reply Operation} (hσ : σ ∈ s.sessions)
    {op : AcknowledgeConversationMessage} {r : ConversationAckResult}
    (hop : σ.op = .acknowledgeConversationMessage op) (hret : σ.prog = .ret (.acknowledged r)) :
    r.readStateChanged = true ↔ ∃ t, σ.done = some (t + 1) ∧ ReadAt s.versions op.messageId t := by
  have hans := hrun.coherent.answer hσ hret
  rw [hop] at hans
  by_cases hupdated : r.updated = 0
  · obtain ⟨hdone, hunchanged⟩ := hans.2 hupdated
    simp [hdone, hunchanged]
  obtain ⟨-, t, v, v', m, conv, hdone, hv, hv', hm, -, hset, rfl⟩ := hans.1 hupdated
  have hstamped : op.status = .READ → op.readDateTime ≠ "" := by
    simpa [Operation.Stamped, hop] using hops σ hσ
  have htime := ((hrun.receipted hd hr hops t v hv).timed _ m hm).receive_time hstamped
  have hreadAt : ReadAt s.versions op.messageId t ↔
      (conv.type = .direct ∧ m.receiverId = op.uid) ∧ op.status = .READ ∧ m.status.code < 3 := by
    rw [← htime]
    constructor
    · rintro ⟨w, w', m₀, m', hw, hw', hm₀, hm', hne⟩
      cases hv.symm.trans hw
      cases hv'.symm.trans hw'
      cases hm.symm.trans hm₀
      rw [hset] at hm'
      split at hm'
      · rename_i hdirect
        cases (get_set_self _ _ _).symm.trans hm'
        exact ⟨hdirect, hne⟩
      · exact absurd (congrArg Message.readDateTime (Option.some.inj (hm'.symm.trans hm))) hne
    · rintro ⟨hdirect, hne⟩
      refine ⟨v, v', m, _, hv, hv', hm, ?_, hne⟩
      rw [hset, if_pos hdirect, get_set_self]
  simp only [Bool.and_eq_true, decide_eq_true_eq, ← hreadAt, hdone, Option.some.injEq, add_right_cancel_iff]
  constructor
  · exact fun h => ⟨t, rfl, h⟩
  · rintro ⟨t', ht, h⟩
    exact ht ▸ h

end runs

/-- In every run, from any database whose receipts were recorded in turn: statuses and positions advance;
    the time of reading of a message changes at most once, by the first READ of its direct recipient; a
    receipt announces a reading exactly if it is that one, so no two announce the same; and a receipt that
    updated nothing has committed nothing. -/
theorem receipts_advance {d : Db} {s : Store} {evs : List (Event Operation)}
    (hrun : (Sys.init d).run execute evs = some s) (hd : d.Sound) (hr : d.Receipted)
    (hops : ∀ σ ∈ s.sessions, σ.op.Stamped) :
    Advancing s.versions ∧
    (∀ k i j, ReadAt s.versions k i → ReadAt s.versions k j → i = j) ∧
    (∀ k j, ReadAt s.versions k j → ∃ σ ∈ s.sessions, ∃ op v m,
      σ.op = .acknowledgeConversationMessage op ∧ op.messageId = k ∧ op.status = .READ ∧
      s.versions[j]? = some v ∧ Receives v.db op m ∧
      ∀ (i : ℕ) (u : Version Db Key) m', i ≤ j → s.versions[i]? = some u →
        u.db.messages.get k = some m' → m'.status ≠ .READ) ∧
    (∀ (i : ℕ) (σ : Session Db Key Write Reply Operation) op r, s.sessions[i]? = some σ →
      σ.op = .acknowledgeConversationMessage op → σ.prog = .ret (.acknowledged r) →
      (r.readStateChanged = true ↔ ∃ t, σ.done = some (t + 1) ∧ ReadAt s.versions op.messageId t) ∧
      (r.updated = 0 → (Sys.init d).Idle execute i evs)) ∧
    ∀ (i j : ℕ) (σ τ : Session Db Key Write Reply Operation) op op' r r', s.sessions[i]? = some σ →
      s.sessions[j]? = some τ → σ.op = .acknowledgeConversationMessage op →
      τ.op = .acknowledgeConversationMessage op' → σ.prog = .ret (.acknowledged r) →
      τ.prog = .ret (.acknowledged r') → r.readStateChanged = true → r'.readStateChanged = true →
      op.messageId = op'.messageId → i = j := by
  have hruns : Runs d s := ⟨evs, hrun⟩
  have hhist := hruns.history_of (A := fun o => o.Stamped ∧ ∃ σ ∈ s.sessions, σ.op = o)
    fun σ hσ => ⟨hops σ hσ, σ, hσ, rfl⟩
  have htimed := hruns.receipted hd hr hops
  have hunique : ∀ {k i j}, ReadAt s.versions k i → ReadAt s.versions k j → i = j :=
    fun hi hj => hhist.readAt_unique (fun _ h => h.1) htimed hi hj
  refine ⟨hruns.advancing hd hr hops, fun _ _ _ => hunique, fun k j hread => ?_, fun i σ op r hi hop hret => ?_,
    fun i j σ τ op op' r r' hi hj hop hop' hret hret' hchanged hchanged' hsame => ?_⟩
  · obtain ⟨v, op, m, hv, ⟨-, σ, hσ, hop⟩, hk, hstatus, hrec, hunread, -⟩ :=
      hhist.readAt (fun _ h => h.1) htimed hread
    refine ⟨σ, hσ, op, v, m, hop, hk, hstatus, hv, hrec, fun i u m' hij hu hm' hread' => ?_⟩
    obtain ⟨m'', hm'', hle⟩ := hhist.status_le hij hu hv hm'
    cases hm''.symm.trans (hk ▸ hrec.message)
    rw [hread'] at hle
    exact absurd hunread (not_lt.2 hle)
  · refine ⟨hruns.announced hd hr hops (mem_of_getElem? hi) hop hret, fun hupdated => ?_⟩
    refine Leaves.idle_new execute_exits (fun ψ hψ => ?_) hret (zero_le _) hrun hi
    have huntouched := hψ.untouched
    rw [hop] at huntouched
    exact huntouched hupdated
  · obtain ⟨t, hdone, hread⟩ := (hruns.announced hd hr hops (mem_of_getElem? hi) hop hret).1 hchanged
    obtain ⟨t', hdone', hread'⟩ := (hruns.announced hd hr hops (mem_of_getElem? hj) hop' hret').1 hchanged'
    obtain rfl := hunique hread (hsame ▸ hread')
    exact hruns.coherent.done_inj i j σ τ (t + 1) hi hj hdone hdone'

omit [Collation]

/-- Two friends with an open conversation, and the phone of one of them. -/
def phoneStore : Db := { friendsStore with devices := .ofList [("phone", 2)] }

theorem phoneStore_sound : phoneStore.Sound ∧ phoneStore.Receipted := by
  have hconv : ∀ c conv, phoneStore.conversations.get c = some conv → c = 5 ∧ conv = ⟨.direct, 7, 0, ""⟩ := by
    intro c conv h
    simpa [phoneStore, friendsStore, Table.ofList, get_set, eq_comm] using h
  have hstate : ∀ c u st, phoneStore.conversationUserStates.get (c, u) = some st →
      c = 5 ∧ st = { joinedSeq := 1 } := by
    intro c u st h
    simp only [phoneStore, friendsStore, Table.ofList, List.foldr, get_set, get_empty, Prod.mk.injEq] at h
    grind
  have hmessage : ∀ m, phoneStore.messages.get m = none := fun _ => rfl
  have hgroup : ∀ g, phoneStore.groupInfo.get g = none := fun _ => rfl
  have hmember : ∀ k, phoneStore.groupMembers.get k = none := fun _ => rfl
  have happly : ∀ k, phoneStore.groupApplys.get k = none := fun _ => rfl
  have hdevice : ∀ k, phoneStore.conversationDeviceStates.get k = none := fun _ => rfl
  refine ⟨⟨?_, by simp [Db.Attached, hmessage], ⟨by simp [hgroup], by simp [hmember], by simp [hgroup],
    by simp [hmember], by simp [happly], ?_, ?_⟩, ?_⟩, ⟨by simp [hmessage], ?_, by simp [hdevice]⟩⟩
  · intro c conv h
    obtain ⟨rfl, rfl⟩ := hconv c conv h
    exact ⟨by simp [hmessage], fun q h1 h0 => absurd h1 (by simpa using h0)⟩
  · intro c u conv _ h htype
    obtain ⟨-, rfl⟩ := hconv c conv h
    cases htype
  · intro c u h
    obtain ⟨st, hst⟩ := Option.isSome_iff_exists.1 h
    obtain ⟨rfl, -⟩ := hstate c u st hst
    rfl
  · intro c u st conv hst _
    obtain ⟨-, rfl⟩ := hstate c u st hst
    exact le_add_left 1 _
  · intro k st conv hst _
    obtain ⟨-, rfl⟩ := hstate k.1 k.2 st hst
    exact ⟨le_refl 0, zero_le _⟩

def firstHello : AcceptDirectText := {
  senderId := 1, receiverId := 2, clientMessageId := "a", content := "hi", sendDateTime := "" }

def reading (time : String) : AcknowledgeConversationMessage := {
  messageId := 1, uid := 2, deviceId := "phone", conversationId := 5, conversationSeq := 1, status := .READ,
  readDateTime := time }

/-- The recipient of a message reads it twice. -/
def readTwice : List (Event Operation) :=
  [.begin (.acceptDirectText firstHello), .act 0 0, .act 0 0, .act 0 0, .act 0 0, .act 0 0, .act 0 0, .act 0 1,
    .act 0 0, .begin (.acknowledgeConversationMessage (reading "9:00")), .act 1 0, .act 1 0, .act 1 0, .act 1 0,
    .act 1 0, .act 1 0, .begin (.acknowledgeConversationMessage (reading "9:01")), .act 2 0, .act 2 0, .act 2 0,
    .act 2 0, .act 2 0, .act 2 0]

/-- The message of an answered receipt, the version it made and what it announced. -/
def announcement (σ : Session Db Key Write Reply Operation) : Option (ℤ × ℕ × Bool) :=
  match σ.op, σ.prog, σ.done with
  | .acknowledgeConversationMessage op, .ret (.acknowledged r), some t =>
    some (op.messageId, t, r.readStateChanged)
  | _, _, _ => none

theorem announcement_eq_some {σ : Session Db Key Write Reply Operation} {k : ℤ} {t : ℕ} {b : Bool}
    (h : announcement σ = some (k, t, b)) : ∃ op r, σ.op = .acknowledgeConversationMessage op ∧
      σ.prog = .ret (.acknowledged r) ∧ σ.done = some t ∧ op.messageId = k ∧ r.readStateChanged = b := by
  unfold announcement at h
  split at h
  · rename_i op r t' hop hret hdone
    cases h
    exact ⟨op, r, hop, hret, hdone, rfl, rfl⟩
  · cases h

/-- The first reading is announced, and it is the only one that sets the time. -/
theorem receipts_advance_read_twice :
    let _ := Collation.binary
    ∃ s : Store, (Sys.init phoneStore).run execute readTwice = some s ∧
      s.sessions.map announcement = [none, some (1, 2, true), some (1, 3, false)] ∧
      ReadAt s.versions 1 1 ∧ ∀ j, ReadAt s.versions 1 j → j = 1 := by
  let _ := Collation.binary
  have heval : ((Sys.init phoneStore).run execute readTwice).map (fun s : Store => s.sessions.map announcement)
      = some [none, some (1, 2, true), some (1, 3, false)] := by
    decide +kernel
  obtain ⟨s, hrun, hannounced⟩ := Option.map_eq_some_iff.1 heval
  have hops : ∀ σ ∈ s.sessions, σ.op.Stamped := by
    intro σ hσ
    rcases Sys.begun hrun σ hσ with ⟨τ, hτ, -⟩ | hbegun
    · cases hτ
    have hcases : σ.op = .acceptDirectText firstHello ∨
        ∃ time, time ≠ "" ∧ σ.op = .acknowledgeConversationMessage (reading time) := by
      simp only [readTwice, mem_cons, Event.begin.injEq, reduceCtorEq, false_or, or_false,
        not_mem_nil] at hbegun
      rcases hbegun with h | h | h
      · exact .inl h
      · exact .inr ⟨"9:00", by decide, h⟩
      · exact .inr ⟨"9:01", by decide, h⟩
    rcases hcases with h | ⟨time, htime, h⟩ <;> rw [h]
    · trivial
    · exact fun _ => htime
  obtain ⟨σ, hσ, hfirst⟩ : ∃ σ, s.sessions[1]? = some σ ∧ announcement σ = some (1, 2, true) := by
    have hget := congrArg (·[1]?) hannounced
    rw [getElem?_map] at hget
    exact Option.map_eq_some_iff.1 hget
  obtain ⟨op, r, hop, hret, hdone, hmessage, hchanged⟩ := announcement_eq_some hfirst
  obtain ⟨-, hunique, -, hanswer, -⟩ := receipts_advance hrun phoneStore_sound.1 phoneStore_sound.2 hops
  obtain ⟨t, ht, hread⟩ := (hanswer 1 σ op r hσ hop hret).1.1 hchanged
  obtain rfl : t = 1 := succ_injective (Option.some.inj (ht.symm.trans hdone))
  rw [hmessage] at hread
  exact ⟨s, hrun, hannounced, hread, fun j hj => hunique 1 j 1 hj hread⟩

end Imm
