import Imm.Store.Groups
import Imm.Store.Sync

/-! Who sees a group message. The push list is the member list at the commit of the message, because
    the group's row is locked; the history of a member starts at the number after the last message at
    the time of joining. Both ways lead to the same users as long as they stay. -/

namespace Imm

open Txn SQL MysqlStore List Option Table Nat

def Db.Member (d : Db) (g u : ℤ) : Prop := (d.groupMembers.get (g, u)).isSome

/-- A participant's history starts at the latest after the last message. -/
def Db.Joined (d : Db) : Prop :=
  ∀ c u st conv, d.conversationUserStates.get (c, u) = some st → d.conversations.get c = some conv →
    st.joinedSeq ≤ conv.latestSeq + 1

/-- A store as the server leaves it. -/
structure Db.Sound (d : Db) : Prop where
  gapless : d.Gapless
  attached : d.Attached
  aligned : d.Aligned
  joined : d.Joined

variable [Collation]

/-! ### Where participants start -/

theorem Joins.new {d : Db} {c : ℤ} {joins : List Write} {k : ℤ × ℤ} {st : UserState} :
    ∀ {d' : Db}, Joins d c joins → (applyAll joins d').conversationUserStates.get k = some st →
      d'.conversationUserStates.get k = some st ∨
        d.conversationUserStates.get k = none ∧ k.1 = c ∧ st = { joinedSeq := 1 } := by
  induction joins with
  | nil => exact fun _ hst => .inl hst
  | cons w joins ih =>
    intro d' h hst
    obtain ⟨u, rfl, hnone⟩ := h w mem_cons_self
    refine (ih (fun w hw => h w (mem_cons_of_mem _ hw)) hst).elim (fun hst => ?_) .inr
    by_cases hk : k = (c, u)
    · subst hk
      rw [show ((Rows.apply (joinedAtOne c u) d' : Db)).conversationUserStates.get (c, u) =
        some { joinedSeq := 1 } from get_set_self _ _ _] at hst
      cases hst
      exact .inr ⟨hnone, rfl, rfl⟩
    · exact .inl ((get_set_ne _ _ hk).symm.trans hst)

section deeds

variable {A : Operation → Prop} {V : Versions} (h : History A V)

include h

/-- A participant is new in a conversation that is new or direct, and starts with the first message,
    or is admitted to a group, and starts with the next one. -/
theorem Deed.new_state {t : ℕ} {v : Version Db Key} (hv : V[t]? = some v) {ls : List (Lock Key)}
    {o : Operation} {ws : List Write} (hdeed : Deed V t v.db ls o ws) {k : ℤ × ℤ} {st : UserState}
    (hnone : v.db.conversationUserStates.get k = none)
    (hst : (applyAll ws v.db).conversationUserStates.get k = some st) :
    st.joinedSeq = 1 ∧ (v.db.rooms.owner k.1 = none ∨ v.db.rooms.owner k.1 = some none) ∨
      ∃ conv, v.db.conversations.get k.1 = some conv ∧ st.joinedSeq = conv.latestSeq + 1 ∧
        ∃ g a now gi, o = .replyGroupJoin g a k.2 true now ∧ v.db.groupInfo.get g = some gi ∧
          gi.conversationId = k.1 := by
  have joined : ∀ {c joins} {d' : Db}, Joins v.db c joins →
      d'.conversationUserStates = v.db.conversationUserStates →
      (applyAll joins d').conversationUserStates.get k = some st →
      (v.db.rooms.owner c = none ∨ v.db.rooms.owner c = some none) →
      st.joinedSeq = 1 ∧ (v.db.rooms.owner k.1 = none ∨ v.db.rooms.owner k.1 = some none) := by
    intro c joins d' hjoins hd' hst howner
    rcases hjoins.new hst with hold | ⟨-, rfl, rfl⟩
    · rw [hd', hnone] at hold
      cases hold
    · exact ⟨rfl, howner⟩
  cases hdeed with
  | idle | apply | answer | upload | reupload | progress | profile | requestJoin | reject | welcomeBare
  | sendGroup =>
    cases hnone.symm.trans hst
  | unfriend =>
    rw [applyAll_map Db.conversationUserStates _ _ rfl] at hst
    cases hnone.symm.trans hst
  | befriend _ hconv _ hjoins =>
    exact .inl (joined hjoins rfl hst (.inl (Db.rooms_owner_none.2 hconv)))
  | found _ _ hconv _ _ hjoins =>
    exact .inl (joined hjoins rfl hst (.inl (Db.rooms_owner_none.2 hconv)))
  | sendDirect hbefore hfriends hjoins _ _ _ =>
    rw [applyAll_append] at hst
    exact .inl (joined hjoins rfl hst (.inr (h.direct hbefore hfriends hv)))
  | joinDirect hbefore hfriends hjoins =>
    exact .inl (joined hjoins rfl hst (.inr (h.direct hbefore hfriends hv)))
  | @receive op m old receipt persisted _ _ hreceipt hold =>
    have hk : k ≠ (op.conversationId, op.uid) := by
      rintro rfl
      simp [hold] at hnone
    rcases hreceipt with rfl | rfl <;> cases hnone.symm.trans ((get_set_ne _ _ hk).symm.trans hst)
  | @welcome g a u now gi conv _ hgroup _ hconv _ =>
    by_cases hk : k = (gi.conversationId, u)
    · subst hk
      cases (get_set_self _ _ _).symm.trans hst
      exact .inr ⟨conv, hconv, rfl, g, a, now, gi, rfl, hgroup, rfl⟩
    · cases hnone.symm.trans ((get_set_ne _ _ hk).symm.trans hst)
  | @leave g a u dissolve gi d' states _ _ _ _ _ _ hstates =>
    rcases hstates with rfl | ⟨rfl, -⟩
    · by_cases hk : k = (gi.conversationId, u)
      · subst hk
        cases (get_set_self _ _ _).symm.trans hst
      · cases hnone.symm.trans ((get_set_ne _ _ hk).symm.trans hst)
    · cases hnone.symm.trans hst
  | dissolve =>
    rw [dissolved_userStates, hnone, ite_self] at hst
    cases hst

theorem History.joined (hinit : ∀ v, V[0]? = some v → v.db.Aligned ∧ v.db.Joined) {j : ℕ}
    {v : Version Db Key} (hv : V[j]? = some v) : v.db.Joined := by
  refine h.invariant (fun v hv => (hinit v hv).2) ?_ j v hv
  intro j v v' o ws hv _ hpast _ hdeed c u st' conv' hst' hconv'
  cases hst : v.db.conversationUserStates.get (c, u) with
  | some st =>
    have haligned := h.aligned (fun v hv => (hinit v hv).1) hv
    obtain ⟨conv, hconv⟩ := isSome_iff_exists.1 (haligned.state_conversation c u (by simp [hst]))
    obtain ⟨conv'', hconv'', hext⟩ := hdeed.conversation hconv
    cases hconv''.symm.trans hconv'
    rcases hdeed.userState hst with hnone | ⟨st'', hst'', hsame⟩
    · simp [hnone] at hst'
    cases hst''.symm.trans hst'
    have := hpast j v (le_refl j) hv c u st conv hst hconv
    have := hext.latestSeq
    omega
  | none =>
    rcases hdeed.new_state h hv hst hst' with ⟨hone, -⟩ | ⟨conv, hconv, hnext, -⟩
    · omega
    obtain ⟨conv'', hconv'', hext⟩ := hdeed.conversation hconv
    cases hconv''.symm.trans hconv'
    have := hext.latestSeq
    omega

section group

variable (haligned : ∀ (j : ℕ) (v : Version Db Key), V[j]? = some v → v.db.Aligned) {i j : ℕ}
  {v w : Version Db Key} {g : ℤ} {gi : GroupInfo} (hv : V[i]? = some v) (hgroup : v.db.groupInfo.get g = some gi)

include haligned hv hgroup

theorem History.group_conversation (hw : V[j]? = some w) {conv : Conversation}
    (hconv : w.db.conversations.get gi.conversationId = some conv) :
    conv.type = .group ∧ conv.businessId = g := by
  obtain ⟨conv', hconv', htype, hbusiness⟩ :=
    ((haligned i v hv).conversation g gi hgroup gi.conversationId).2 rfl
  rcases le_total i j with hij | hji
  · obtain ⟨conv'', hconv'', hext⟩ := h.conversation hij hv hw hconv'
    cases hconv''.symm.trans hconv
    exact ⟨hext.type.trans htype, hext.businessId.trans hbusiness⟩
  obtain ⟨conv'', hconv'', hext⟩ := h.conversation hji hw hv hconv
  cases hconv''.symm.trans hconv'
  exact ⟨hext.type.symm.trans htype, hext.businessId.symm.trans hbusiness⟩

/-- A group that is gone does not come back with another conversation. -/
theorem History.same_conversation (hw : V[j]? = some w) {gi' : GroupInfo}
    (hgroup' : w.db.groupInfo.get g = some gi') : gi'.conversationId = gi.conversationId := by
  rcases le_total i j with hij | hji
  · obtain ⟨conv, hconv, -⟩ := ((haligned i v hv).conversation g gi hgroup _).2 rfl
    obtain ⟨conv', hconv', -⟩ := h.conversation hij hv hw hconv
    exact (((haligned j w hw).conversation g gi' hgroup' _).1
      ⟨conv', hconv', h.group_conversation haligned hv hgroup hw hconv'⟩).symm
  · obtain ⟨conv, hconv, -⟩ := ((haligned j w hw).conversation g gi' hgroup' _).2 rfl
    obtain ⟨conv', hconv', -⟩ := h.conversation hji hw hv hconv
    exact ((haligned i v hv).conversation g gi hgroup _).1
      ⟨conv', hconv', h.group_conversation haligned hw hgroup' hv hconv'⟩

/-- At every version of the history, the members of a group are the participants of its
    conversation. -/
theorem History.member_iff (hw : V[j]? = some w) (u : ℤ) :
    w.db.Member g u ↔ (w.db.conversationUserStates.get (gi.conversationId, u)).isSome := by
  have hal := haligned j w hw
  constructor
  · intro hm
    obtain ⟨gi', hgroup'⟩ := isSome_iff_exists.1 (hal.member_group g u hm)
    rw [← h.same_conversation haligned hv hgroup hw hgroup']
    exact (hal.members g gi' hgroup' u).1 hm
  · intro hu
    obtain ⟨conv, hconv⟩ := isSome_iff_exists.1 (hal.state_conversation _ u hu)
    obtain ⟨htype, rfl⟩ := h.group_conversation haligned hv hgroup hw hconv
    obtain ⟨gi', hgroup'⟩ := isSome_iff_exists.1 (hal.state_group _ u conv hu hconv htype)
    rw [← h.same_conversation haligned hv hgroup hw hgroup'] at hu
    exact (hal.members _ gi' hgroup' u).2 hu

/-- Who joins a group after number `q` was taken starts after `q`. -/
theorem History.rejoined {n : ℕ} {z : Version Db Key} (hjn : j ≤ n) (hw : V[j]? = some w)
    (hz : V[n]? = some z) {q : ℕ} {conv : Conversation}
    (hconv : w.db.conversations.get gi.conversationId = some conv) (hq : q ≤ conv.latestSeq) {u : ℤ}
    (hnone : w.db.conversationUserStates.get (gi.conversationId, u) = none) {st : UserState}
    (hst : z.db.conversationUserStates.get (gi.conversationId, u) = some st) : q < st.joinedSeq := by
  refine (h.onwards (P := fun d => (∃ conv, d.conversations.get gi.conversationId = some conv ∧
    q ≤ conv.latestSeq) ∧ ∀ st, d.conversationUserStates.get (gi.conversationId, u) = some st →
      q < st.joinedSeq) ?_ hjn hw hz ⟨⟨conv, hconv, hq⟩, by simp [hnone]⟩).2 st hst
  rintro m x x' o ws hx - - hdeed ⟨⟨conv₁, hconv₁, hq₁⟩, hall⟩
  obtain ⟨conv₂, hconv₂, hext⟩ := hdeed.conversation hconv₁
  refine ⟨⟨conv₂, hconv₂, hq₁.trans hext.latestSeq⟩, fun st' hst' => ?_⟩
  cases hold : x.db.conversationUserStates.get (gi.conversationId, u) with
  | some st₁ =>
    rcases hdeed.userState hold with hgone | ⟨st₂, hst₂, hsame⟩
    · simp [hgone] at hst'
    cases hst₂.symm.trans hst'
    exact hsame ▸ hall st₁ hold
  | none =>
    rcases hdeed.new_state h hx hold hst' with ⟨-, howner⟩ | ⟨conv₃, hconv₃, hnext⟩
    · obtain ⟨htype, hbusiness⟩ := h.group_conversation haligned hv hgroup hx hconv₁
      simp [Db.rooms, hconv₁, Conversation.owner, htype] at howner
    cases hconv₃.symm.trans hconv₁
    omega

end group

end deeds

/-! ### Pulling in a given state -/

/-- In the state `s`, a pull of conversation `c` by user `u` can return the message `m`: some calls
    that begin now, with no commit in between, do. -/
def CanReturn (s : Store) (c u m : ℤ) : Prop :=
  ∃ (op : SyncConversation) (evs : List (Event Operation)) (s' : Store)
    (σ : Session Db Key Write Reply Operation) (r : ConversationSyncResult),
    op.conversationId = c ∧ op.uid = u ∧ s.run execute evs = some s' ∧ s'.versions = s.versions ∧
    σ ∈ s'.sessions ∧ σ.began = s.now ∧ σ.op = .syncConversation op ∧ σ.prog = .ret (.synced r) ∧
    r.error = .Success ∧ m ∈ r.messages.map (·.messageId)

theorem execute_sync {op : SyncConversation} (hu : 0 < op.uid) (hc : 0 < op.conversationId)
    (ha : 0 ≤ op.afterSeq) :
    ∃ next, execute (.syncConversation op) = .query (membership op.conversationId op.uid) next ∧
      ∀ conv st, ∃ next', next (.ok (some (conv, st))) = .query (historyRows op.now op.conversationId
          (max op.afterSeq ((st.joinedSeq : ℤ) - 1)) conv.latestSeq (boundedCount op.pullCount + 1)) next' ∧
        ∀ rows, next' (.ok rows) = .ret (.synced (syncPage op conv st rows)) := by
  have hvalid : ¬ (op.uid ≤ 0 ∨ op.conversationId ≤ 0 ∨ op.afterSeq < 0) := by omega
  simp only [execute, replying, Driver.execute, rethrowing, syncConversation, if_neg hvalid]
  exact ⟨_, rfl, fun conv st => ⟨_, rfl, fun rows => rfl⟩⟩

theorem sync_runs (s : Store) (op : SyncConversation) (hu : 0 < op.uid) (hc : 0 < op.conversationId)
    (ha : 0 ≤ op.afterSeq) {conv : Conversation} {st : UserState}
    (hm : membership op.conversationId op.uid s.cur.db = some (conv, st)) :
    ∃ (evs : List (Event Operation)) (s' : Store) (σ : Session Db Key Write Reply Operation),
      s.run execute evs = some s' ∧ s'.versions = s.versions ∧ σ ∈ s'.sessions ∧ σ.began = s.now ∧
      σ.op = .syncConversation op ∧ σ.prog = .ret (.synced (syncPage op conv st
        (historyRows op.now op.conversationId (max op.afterSeq ((st.joinedSeq : ℤ) - 1)) conv.latestSeq
          (boundedCount op.pullCount + 1) s.cur.db))) := by
  obtain ⟨next, hprog, hnext⟩ := execute_sync hu hc ha
  obtain ⟨next', hprog', hnext'⟩ := hnext conv st
  let i := s.sessions.length
  let σ : Session Db Key Write Reply Operation := {
    op := .syncConversation op, began := s.now, seen := s.now, prog := .ret (.synced (syncPage op conv st
      (historyRows op.now op.conversationId (max op.afterSeq ((st.joinedSeq : ℤ) - 1)) conv.latestSeq
        (boundedCount op.pullCount + 1) s.cur.db))) }
  refine ⟨[.begin (.syncConversation op), .act i 0, .act i 0], { s with sessions := s.sessions ++ [σ] }, σ,
    ?_, rfl, by simp, rfl, rfl, rfl⟩
  simp [Sys.run, Sys.step, Sys.perform, Sys.put, i, σ, hprog, hm, hprog', hnext', Sys.now]

theorem Runs.continue {d : Db} {s s' : Store} {evs : List (Event Operation)} (h : Runs d s)
    (hs : s.run execute evs = some s') : Runs d s' := by
  obtain ⟨evs₀, hrun⟩ := h
  refine ⟨evs₀ ++ evs, ?_⟩
  rw [Sys.run, foldlM_append]
  exact (congrArg (· >>= _) hrun).trans hs

/-! ### Push and pull -/

theorem History.sound {A : Operation → Prop} {V : Versions} (h : History A V)
    (hinit : ∀ v, V[0]? = some v → v.db.Sound) {j : ℕ} {v : Version Db Key} (hv : V[j]? = some v) :
    v.db.Sound := by
  obtain ⟨hg, ha⟩ := h.gapless (fun v hv => ⟨(hinit v hv).gapless, (hinit v hv).attached⟩) hv
  exact ⟨hg, ha, h.aligned (fun v hv => (hinit v hv).aligned) hv,
    h.joined (fun v hv => ⟨(hinit v hv).aligned, (hinit v hv).joined⟩) hv⟩

theorem Runs.sound {d : Db} {s : Store} (hrun : Runs d s) (hd : d.Sound) {j : ℕ} {v : Version Db Key}
    (hv : s.versions[j]? = some v) : v.db.Sound := by
  refine hrun.history.sound (fun v hv => ?_) hv
  cases hrun.first.symm.trans hv
  exact hd

omit [Collation] in
theorem membership_of_member {d : Db} (hal : d.Aligned) {g u : ℤ} {gi : GroupInfo}
    (hgroup : d.groupInfo.get g = some gi) (hm : d.Member g u) :
    ∃ conv st, membership gi.conversationId u d = some (conv, st) := by
  obtain ⟨conv, hconv, -⟩ := (hal.conversation g gi hgroup _).2 rfl
  obtain ⟨st, hst⟩ := isSome_iff_exists.1 ((hal.members g gi hgroup u).1 hm)
  have hhas : d.groupInfo.has (fun g gi' => decide (gi'.conversationId = gi.conversationId) &&
      (d.groupMembers.get (g, u)).isSome) = true := by
    rw [← Bool.not_eq_false, has_eq_false]
    intro hno
    have hm' : (d.groupMembers.get (g, u)).isSome = true := hm
    simpa [hm'] using hno g gi hgroup
  exact ⟨conv, st, by simp [membership, hconv, hst, hhas]⟩

omit [Collation] in
theorem Page.reaches {c first : ℤ} {d : Db} {r : ConversationSyncResult} (hp : Page c first d r)
    (hlt : first < r.latestSeq) : first < r.nextSeq := by
  by_contra hnot
  obtain ⟨e, he⟩ := exists_mem_of_ne_nil _ (hp.nonempty (hp.more.2 (by omega)))
  have := (hp.numbers e.message.conversationSeq).1 (mem_map_of_mem he)
  omega

/-- A pull returns a message only to a participant who had joined by then. -/
theorem CanReturn.visible {d : Db} {s : Store} (hrun : Runs d s) (hd : d.Sound) {c u m : ℤ}
    (hcan : CanReturn s c u m) : ∃ conv st row, membership c u s.cur.db = some (conv, st) ∧
      s.cur.db.messages.get m = some row ∧ row.conversationId = c ∧ st.joinedSeq ≤ row.conversationSeq := by
  obtain ⟨op, evs, s', σ, r, rfl, rfl, hevs, hversions, hσ, hbegan, hop, hr, hok, hm⟩ := hcan
  have hcur := s.cur_now
  -- no commit in between: both SELECTs saw the current version
  have hsync := (hrun.continue hevs).synced hσ hop hr hok
  rw [hversions] at hsync
  obtain ⟨t₁, t₂, v₁, v₂, c₁, st, h₁, h₂, -, hv₁, hv₂, hafter, hmem, hpage⟩ := hsync
  have := Sys.le_now hv₂
  obtain rfl : t₁ = s.now := by omega
  obtain rfl : t₂ = s.now := by omega
  cases hcur.symm.trans hv₁
  cases hcur.symm.trans hv₂
  have hp := syncPage_page (hrun.sound hd hcur).gapless (membership_eq_some hmem).1 (le_refl _) st hafter
  rw [← hpage] at hp
  obtain ⟨e, he, rfl⟩ := mem_map.1 hm
  obtain ⟨hrow, hconv⟩ := hp.stored e he
  have hnum := (hp.numbers e.message.conversationSeq).1 (mem_map_of_mem he)
  exact ⟨c₁, st, e.message, hmem, hrow, hconv, by omega⟩

/-- A participant who had joined by then can pull the message, from just below it. -/
theorem canReturn_of_visible {d : Db} {s : Store} (hrun : Runs d s) (hd : d.Sound) {c u m : ℤ} (hc : 0 < c)
    (hu : 0 < u) {conv : Conversation} {st : UserState} {row : Message}
    (hmem : membership c u s.cur.db = some (conv, st)) (hrow : s.cur.db.messages.get m = some row)
    (hrowc : row.conversationId = c) (hjoined : st.joinedSeq ≤ row.conversationSeq) : CanReturn s c u m := by
  have hsound := hrun.sound hd s.cur_now
  obtain ⟨hconv, -⟩ := membership_eq_some hmem
  have hseq := (hsound.gapless _ conv hconv).1 m row hrow hrowc
  let op : SyncConversation := {
    uid := u, conversationId := c, afterSeq := row.conversationSeq - 1, pullCount := 1, now := "" }
  have hafter : 0 ≤ op.afterSeq := by simp only [op]; omega
  have hfirst : max op.afterSeq ((st.joinedSeq : ℤ) - 1) = (row.conversationSeq : ℤ) - 1 := by
    simp only [op]
    omega
  obtain ⟨evs, s', σ, hevs, hversions, hσ, hbegan, hop, hr⟩ := sync_runs s op hu hc hafter hmem
  have hp := syncPage_page hsound.gapless hconv (le_refl _) st hafter
  rw [hfirst] at hp hr
  have hreach := hp.reaches (by rw [syncPage_eq]; show (row.conversationSeq : ℤ) - 1 < conv.latestSeq; omega)
  obtain ⟨hids, -⟩ := hp.received hrun hsound.gapless hsound.attached s.cur_now
  refine ⟨op, evs, s', σ, _, rfl, rfl, hevs, hversions, hσ, hbegan, hop, hr, by rw [syncPage_eq], ?_⟩
  exact (hids m).2 ⟨row, hrow, hrowc, by omega, by omega⟩

section visible

variable {d : Db} {s : Store} (hrun : Runs d s) (hd : d.Sound) {t : ℕ} {v v' : Version Db Key}
  {m g u : ℤ} {row : Message} {gi : GroupInfo} (hv : s.versions[t]? = some v)
  (hv' : s.versions[t + 1]? = some v') (hnone : v.db.messages.get m = none)
  (hrow : v'.db.messages.get m = some row) (hgroup : v'.db.groupInfo.get g = some gi)
  (hc : row.conversationId = gi.conversationId)

include hrun hd hv hv' hnone hrow hgroup hc

theorem new_group_message : ∃ conv, v.db.conversations.get gi.conversationId = some conv ∧
    row.conversationSeq = conv.latestSeq + 1 ∧
      v'.db.conversationUserStates = v.db.conversationUserStates := by
  obtain ⟨o, ws, -, hdeed, hdb⟩ := hrun.history.step hv hv'
  rw [hdb] at hrow ⊢
  rcases (hdeed.new_message hnone hrow).2.2 with ⟨d', a, b, hbefore, hfriends⟩ | hnew
  · -- the conversation of a group is not direct
    obtain ⟨conv, hconv, hnotgroup⟩ : ∃ conv, v.db.conversations.get row.conversationId = some conv ∧
        conv.owner = none := by simpa [Db.rooms] using hrun.history.direct hbefore hfriends hv
    rw [hc] at hconv
    obtain ⟨htype, -⟩ := hrun.history.group_conversation
      (fun _ _ hv => (hrun.sound hd hv).aligned) hv' hgroup hv hconv
    simp [Conversation.owner, htype] at hnotgroup
  · rwa [hc] at hnew

omit hv hnone in
theorem group_message_head {j : ℕ} {w : Version Db Key} (hj : t + 1 ≤ j) (hw : s.versions[j]? = some w) :
    ∃ conv, w.db.conversations.get gi.conversationId = some conv ∧
      row.conversationSeq ≤ conv.latestSeq := by
  have hsound := hrun.sound hd hv'
  obtain ⟨conv, hconv, -⟩ := (hsound.aligned.conversation g gi hgroup _).2 rfl
  obtain ⟨conv', hconv', hext⟩ := hrun.history.conversation hj hv' hw hconv
  exact ⟨conv', hconv', ((hsound.gapless _ conv hconv).1 m row hrow hc).2.trans hext.latestSeq⟩

omit hv hnone in
theorem member_of_canReturn (hcan : CanReturn s gi.conversationId u m) {j : ℕ} {w : Version Db Key}
    (hj : t + 1 ≤ j) (hw : s.versions[j]? = some w) : w.db.Member g u := by
  have hcur := s.cur_now
  obtain ⟨conv', st, row', hmem, hrow', -, hjoined⟩ := hcan.visible hrun hd
  obtain ⟨-, hst⟩ := membership_eq_some hmem
  obtain ⟨row'', hrow'', hsame⟩ := hrun.history.message (Sys.le_now hv') hv' hcur hrow
  obtain rfl : row'' = row' := Option.some.inj (hrow''.symm.trans hrow')
  have hkept : row.conversationSeq = row''.conversationSeq := congrArg (·.conversationSeq) hsame
  -- had the user been out at `j`, the history would start after the message
  by_contra hnot
  rw [hrun.history.member_iff (fun _ _ hv => (hrun.sound hd hv).aligned) hv' hgroup hw,
    Bool.not_eq_true, isSome_eq_false_iff, isNone_iff_eq_none] at hnot
  obtain ⟨conv, hconv, hle⟩ := group_message_head hrun hd hv' hrow hgroup hc hj hw
  have := hrun.history.rejoined (fun _ _ hv => (hrun.sound hd hv).aligned) hv' hgroup (Sys.le_now hw)
    hw hcur hconv hle hnot hst
  omega

theorem canReturn_of_member (hpos : 0 < gi.conversationId) (hu : 0 < u)
    (hmember : ∀ (j : ℕ) (w : Version Db Key), t + 1 ≤ j → s.versions[j]? = some w → w.db.Member g u) :
    CanReturn s gi.conversationId u m := by
  have hcur := s.cur_now
  have hnow := Sys.le_now hv'
  have hal : ∀ (j : ℕ) (v : Version Db Key), s.versions[j]? = some v → v.db.Aligned :=
    fun _ _ hv => (hrun.sound hd hv).aligned
  have hmem := hmember s.now s.cur hnow hcur
  obtain ⟨gi', hgroup'⟩ := isSome_iff_exists.1 ((hal _ _ hcur).member_group g u hmem)
  obtain ⟨conv', st, hmem⟩ := membership_of_member (hal _ _ hcur) hgroup' hmem
  rw [hrun.history.same_conversation hal hv' hgroup hcur hgroup'] at hmem
  obtain ⟨-, hst⟩ := membership_eq_some hmem
  -- a member at the time of the message started before it, and still does
  have hstay : ∀ n w, t + 1 ≤ n → n ≤ s.now → s.versions[n]? = some w →
      (w.db.conversationUserStates.get (gi.conversationId, u)).isSome :=
    fun n w hn _ hw => (hrun.history.member_iff hal hv' hgroup hw u).1 (hmember n w hn hw)
  obtain ⟨st', hst'⟩ := isSome_iff_exists.1 (hstay _ v' (le_refl _) hnow hv')
  have hjoined := hrun.history.joinedSeq hnow hv' hcur hst' hst hstay
  obtain ⟨conv, hconv, hseq, hstates⟩ := new_group_message hrun hd hv hv' hnone hrow hgroup hc
  rw [hstates] at hst'
  have hstart := (hrun.sound hd hv).joined _ u st' conv hst' hconv
  obtain ⟨row', hrow', hsame⟩ := hrun.history.message hnow hv' hcur hrow
  have hkept : row.conversationSeq = row'.conversationSeq := congrArg (·.conversationSeq) hsame
  exact canReturn_of_visible hrun hd hpos hu hmem hrow' ((congrArg (·.conversationId) hsame).symm.trans hc)
    (by omega)

end visible

/-- The commit on version `t` stored the message `m` in the conversation of the group `g`. -/
structure NewGroupMessage (V : Versions) (t : ℕ) (g : ℤ) (gi : GroupInfo) (m : ℤ) (row : Message) :
    Prop where
  absent : ∃ v, V[t]? = some v ∧ v.db.messages.get m = none
  stored : ∃ v, V[t + 1]? = some v ∧ v.db.messages.get m = some row ∧ v.db.groupInfo.get g = some gi
  conversation : row.conversationId = gi.conversationId

/-- A message that is not a duplicate is new, and it goes to the members of its group. -/
theorem Delivered.recipients {A : Operation → Prop} {V : Versions} (h : History A V)
    {op : AcceptGroupMessage} {r : GroupMessageAcceptResult} {dn : Option ℕ} (hdel : Delivered V op r dn) :
    ∃ t v gi row, dn = some (t + 1) ∧ V[t + 1]? = some v ∧ v.db.messages.get r.messageId = some row ∧
      NewGroupMessage V t op.groupId gi r.messageId row ∧
      ∀ u, u ∈ r.recipientUids ∨ u = op.senderId ↔ v.db.Member op.groupId u := by
  obtain ⟨t, v, v', gi, conv, d', rfl, hv, hv', hgroup, hsender, -, hnone, -, hdb, hsince, hto⟩ := hdel
  have hrow : v'.db.messages.get r.messageId = some (op.stored gi.conversationId (conv.latestSeq + 1)) := by
    rw [hdb]
    exact get_set_self _ _ _
  have hgroup' : v'.db.groupInfo.get op.groupId = some gi := by rw [hdb]; exact hgroup
  refine ⟨t, v', gi, _, rfl, hv', hrow, ⟨⟨v, hv, hnone⟩, ⟨v', hv', hrow, hgroup'⟩, rfl⟩, fun u => ?_⟩
  -- the member list was read under the group's lock, so it is that of the commit
  have hsame := (h.since hsince hv).2.1 u
  have hmember : v'.db.Member op.groupId u ↔ (d'.groupMembers.get (op.groupId, u)).isSome := by
    rw [Db.Member, hdb, ← hsame]
    rfl
  rw [hmember, hto]
  by_cases hu : u = op.senderId
  · subst hu
    simpa [← hsame] using hsender
  · simp [otherMemberUids, mem_keysOf, hu, isSome_iff_exists]

/-- `u` was no member of `g` at any version from `a` to `b`. -/
def Outside (V : Versions) (g u : ℤ) (a b : ℕ) : Prop :=
  ∀ (j : ℕ) (w : Version Db Key), a ≤ j → j ≤ b → V[j]? = some w → ¬ w.db.Member g u

/-- `c` is the conversation of `g`, maybe of a group that has been dissolved since. -/
def ConversationOf (V : Versions) (g c : ℤ) : Prop :=
  ∃ (j : ℕ) (w : Version Db Key) (gi : GroupInfo),
    V[j]? = some w ∧ w.db.groupInfo.get g = some gi ∧ gi.conversationId = c

/-- The answer `r` gives `u` nothing of the group `g`. -/
def Refused (V : Versions) (g u : ℤ) : Operation → Reply → Prop
  | .acceptGroupMessage op, .groupAccepted r => op.groupId = g → op.senderId = u → r.error ≠ .Success
  | .syncConversation op, .synced r => op.uid = u → ConversationOf V g op.conversationId → r.error ≠ .Success
  | .pullGroup g' u', .group r => g' = g → u' = u → r.error ≠ .Success
  | .acknowledgeConversationMessage op, .acknowledged r =>
    op.uid = u → ConversationOf V g op.conversationId → r.updated = 0
  | _, _ => True

theorem refused_of_outside {d : Db} {s : Store} (hrun : Runs d s) (hd : d.Sound) {g u : ℤ} {a b : ℕ}
    {o : Operation} {r : Reply} {dn : Option ℕ} (hout : Outside s.versions g u a b)
    (hans : Answers s.versions a o r b dn) : Refused s.versions g u o r := by
  have hal : ∀ (j : ℕ) (v : Version Db Key), s.versions[j]? = some v → v.db.Aligned :=
    fun _ _ hv => (hrun.sound hd hv).aligned
  have noMember : ¬ WasMember s.versions g u a b := by
    rintro ⟨j, w, ha, hb, hw, hmember⟩
    exact hout j w ha hb hw hmember
  have noParticipant : ∀ {c}, ConversationOf s.versions g c → ¬ WasParticipant s.versions c u a b := by
    rintro _ ⟨i, v, gi, hv, hgroup, rfl⟩ ⟨j, w, ha, hb, hw, hst⟩
    exact hout j w ha hb hw ((hrun.history.member_iff hal hv hgroup hw u).2 hst)
  unfold Refused
  split
  · rintro rfl rfl hok
    exact noMember (hans.1 hok).2.1
  · rintro rfl hc hok
    obtain ⟨t₁, t₂, v₁, _, c, st, ha, h₁, hb, hv₁, -, -, hmem, -⟩ := hans hok
    exact noParticipant hc ⟨t₁, v₁, ha, h₁.trans hb, hv₁, by simp [(membership_eq_some hmem).2]⟩
  · rintro rfl rfl hok
    exact noMember (hans hok)
  · rintro rfl hc
    by_contra hne
    exact noParticipant hc (hans.1 hne).1
  · trivial

/-- The users a group message is pushed to are those who can pull it as long as they stay, and who is
    outside gets nothing. -/
theorem push_agrees_with_pull {d : Db} {s : Store} (hrun : Runs d s) (hd : d.Sound) :
    (∀ σ ∈ s.sessions, ∀ op r, σ.op = .acceptGroupMessage op → σ.prog = .ret (.groupAccepted r) →
      r.error = .Success → r.duplicate = false →
      ∃ t v gi row, σ.done = some (t + 1) ∧ s.versions[t + 1]? = some v ∧
        NewGroupMessage s.versions t op.groupId gi r.messageId row ∧
        (row.conversationSeq : ℤ) = r.conversationSeq ∧
        ∀ u, u ∈ r.recipientUids ∨ u = op.senderId ↔ v.db.Member op.groupId u) ∧
    (∀ t g gi m row u, NewGroupMessage s.versions t g gi m row → 0 < gi.conversationId → 0 < u →
      (CanReturn s gi.conversationId u m ↔
        ∀ (j : ℕ) (w : Version Db Key), t + 1 ≤ j → s.versions[j]? = some w → w.db.Member g u)) ∧
    ∀ σ ∈ s.sessions, ∀ g u r, σ.prog = .ret r → Outside s.versions g u σ.began σ.seen →
      Refused s.versions g u σ.op r := by
  refine ⟨fun σ hσ op r hop hr hok hfresh => ?_, fun t g gi m row u hnew hpos hu => ?_,
    fun σ hσ g u r hr hout => refused_of_outside hrun hd hout (hrun.coherent.answer hσ hr)⟩
  · have hans := hrun.coherent.answer hσ hr
    rw [hop] at hans
    obtain ⟨haccepted, -, hdelivered⟩ := hans.1 hok
    obtain ⟨t, v, gi, row, hdone, hv, hrow, hnew, hmembers⟩ := (hdelivered hfresh).recipients hrun.history
    obtain ⟨j, v', row', hv', hrow', -, -, hseq, hcommit⟩ := haccepted
    cases (hcommit hfresh).1.symm.trans hdone
    obtain rfl : v' = v := Option.some.inj (hv'.symm.trans hv)
    obtain rfl : row' = row := Option.some.inj (hrow'.symm.trans hrow)
    exact ⟨t, v', gi, row', hdone, hv, hnew, hseq, hmembers⟩
  · obtain ⟨⟨v, hv, hnone⟩, ⟨v', hv', hrow, hgroup⟩, hc⟩ := hnew
    exact ⟨fun hcan j w hj hw => member_of_canReturn hrun hd hv' hrow hgroup hc hcan hj hw,
      canReturn_of_member hrun hd hv hv' hnone hrow hgroup hc hpos hu⟩

omit [Collation]

/-- A group of two with an empty conversation. -/
def teamStore : Db where
  conversations := .ofList [(9, { type := .group, businessId := 7, latestSeq := 0, createTime := "" })]
  conversationUserStates := .ofList [((9, 1), { joinedSeq := 1 }), ((9, 2), { joinedSeq := 1 })]
  groupInfo := .ofList [(7, { conversationId := 9, masterUid := 1, name := "", createTime := "" })]
  groupMembers := .ofList [((7, 1), ""), ((7, 2), "")]

theorem teamStore_sound : teamStore.Sound := by
  have hgroup : ∀ g gi, teamStore.groupInfo.get g = some gi → g = 7 ∧ ⟨1, "", 9, ""⟩ = gi := by
    intro g gi h
    simpa [teamStore, Table.ofList, get_set] using h
  have hconv : ∀ c conv, teamStore.conversations.get c = some conv → c = 9 ∧ ⟨.group, 7, 0, ""⟩ = conv := by
    intro c conv h
    simpa [teamStore, Table.ofList, get_set] using h
  have hmember : ∀ g u, (teamStore.groupMembers.get (g, u)).isSome ↔ g = 7 ∧ (u = 1 ∨ u = 2) := by
    intro g u
    simp only [teamStore, Table.ofList, List.foldr, get_set, get_empty, Prod.mk.injEq]
    grind
  have hstate : ∀ c u, teamStore.conversationUserStates.get (c, u) =
      if c = 9 ∧ (u = 1 ∨ u = 2) then some { joinedSeq := 1 } else none := by
    intro c u
    simp only [teamStore, Table.ofList, List.foldr, get_set, get_empty, Prod.mk.injEq]
    grind
  have hmessage : ∀ m, teamStore.messages.get m = none := fun _ => rfl
  have happly : ∀ k, teamStore.groupApplys.get k = none := fun _ => rfl
  refine ⟨?_, by simp [Db.Attached, hmessage],
    ⟨?_, fun _ _ _ => happly _, ?_, ?_, by simp [happly], ?_, ?_⟩, ?_⟩
  · intro c conv h
    obtain ⟨rfl, rfl⟩ := hconv c conv h
    exact ⟨by simp [hmessage], fun q h1 h0 => absurd h1 (by simpa using h0)⟩
  · intro g gi h u
    obtain ⟨rfl, rfl⟩ := hgroup g gi h
    simp [hmember, hstate]
  · intro g gi h c
    obtain ⟨rfl, rfl⟩ := hgroup g gi h
    constructor
    · rintro ⟨conv, h, -⟩
      exact (hconv c conv h).1
    · rintro rfl
      exact ⟨_, rfl, rfl, rfl⟩
  · intro g u h
    rw [((hmember g u).1 h).1]
    rfl
  · intro c u conv _ h _
    obtain ⟨rfl, rfl⟩ := hconv c conv h
    rfl
  · intro c u h
    obtain ⟨rfl, -⟩ : c = 9 ∧ (u = 1 ∨ u = 2) := by simpa [hstate] using h
    rfl
  · intro c u st conv hst _
    obtain ⟨-, rfl⟩ : (c = 9 ∧ (u = 1 ∨ u = 2)) ∧ { joinedSeq := 1 } = st := by simpa [hstate] using hst
    exact le_add_left 1 _

def teamMessage : AcceptGroupMessage where
  senderId := 1
  groupId := 7
  clientMessageId := "a"
  content := "hi"
  messageType := .TEXT
  sendDateTime := ""

set_option maxRecDepth 4000 in
/-- In a group of two, a message reaches the other member by push and by pull, and nobody else. -/
theorem push_agrees_with_pull_in_team : ∃ s : Store, @Runs Collation.binary teamStore s ∧
    (∃ σ ∈ s.sessions, ∃ r, σ.prog = .ret (.groupAccepted r) ∧ r.messageId = 3 ∧ r.recipientUids = [2]) ∧
    @CanReturn .binary s 9 2 3 ∧ ¬ @CanReturn .binary s 9 5 3 := by
  have hrun : ∃ s v, @Runs .binary teamStore s ∧ s.versions = [⟨teamStore, []⟩, v] ∧
      v.db.messages.get 3 = some (teamMessage.message 9 1) ∧
      v.db.groupInfo.get 7 = teamStore.groupInfo.get 7 ∧ v.db.groupMembers = teamStore.groupMembers ∧
      ∃ σ ∈ s.sessions, ∃ r, σ.prog = .ret (.groupAccepted r) ∧ r.messageId = 3 ∧ r.recipientUids = [2] :=
    ⟨_, _, ⟨[.begin (.acceptGroupMessage teamMessage), .act 0 0, .act 0 0, .act 0 0, .act 0 0, .act 0 0,
      .act 0 3, .act 0 0, .act 0 0], rfl⟩, rfl, rfl, rfl, rfl, _, List.mem_of_getElem? (i := 0) rfl, _,
      rfl, rfl, rfl⟩
  obtain ⟨s, v, hrun, hV, hrow, hgroup, hmembers, hpushed⟩ := hrun
  have hnew : NewGroupMessage s.versions 0 7 ⟨1, "", 9, ""⟩ 3 (teamMessage.message 9 1) := by
    rw [hV]
    exact ⟨⟨_, rfl, rfl⟩, ⟨v, rfl, hrow, hgroup⟩, rfl⟩
  obtain ⟨-, hpull, -⟩ := @push_agrees_with_pull .binary teamStore s hrun teamStore_sound
  refine ⟨s, hrun, hpushed, (hpull 0 7 _ 3 _ 2 hnew (by decide) (by decide)).2 ?_, fun hcan => ?_⟩
  · intro j w hj hw
    obtain rfl : j = 1 := by
      have := (List.getElem?_eq_some_iff.1 hw).1
      simp only [hV, length_cons, length_nil] at this
      omega
    rw [hV] at hw
    cases hw
    rw [Db.Member, hmembers]
    rfl
  · have hmember := (hpull 0 7 _ 3 _ 5 hnew (by decide) (by decide)).1 hcan 1 v (le_refl 1) (by rw [hV]; rfl)
    rw [Db.Member, hmembers] at hmember
    exact absurd hmember (by decide)

end Imm
