import Imm.Schemes.Rooms
import Imm.Store.Lasting

/-! Group membership. The four tables of a group are written by transactions that hold the lock of the
    group's row, so whatever one of them has read of the group is still true when it commits. Every
    deed is then a step of groups and rooms: the members are the participants of the group's
    conversation. -/

namespace Imm

open Txn SQL MysqlStore Option Table
open Function (update)

/-- The membership tables agree. -/
structure Db.Aligned (d : Db) : Prop where
  members : ∀ g gi, d.groupInfo.get g = some gi → ∀ u, (d.groupMembers.get (g, u)).isSome ↔
    (d.conversationUserStates.get (gi.conversationId, u)).isSome
  applys : ∀ g u, (d.groupMembers.get (g, u)).isSome → (d.groupApplys.get (g, u)) = none
  conversation : ∀ g gi, d.groupInfo.get g = some gi → ∀ c,
    (∃ conv, d.conversations.get c = some conv ∧ conv.type = .group ∧ conv.businessId = g) ↔
      c = gi.conversationId
  member_group : ∀ g u, (d.groupMembers.get (g, u)).isSome → (d.groupInfo.get g).isSome
  apply_group : ∀ g u, (d.groupApplys.get (g, u)).isSome → (d.groupInfo.get g).isSome
  state_group : ∀ c u conv, (d.conversationUserStates.get (c, u)).isSome →
    d.conversations.get c = some conv → conv.type = .group → (d.groupInfo.get conv.businessId).isSome
  /-- a participant row belongs to a conversation -/
  state_conversation : ∀ c u, (d.conversationUserStates.get (c, u)).isSome →
    (d.conversations.get c).isSome

/-- The master of a group is one of its members. -/
def Db.Mastered (d : Db) : Prop :=
  ∀ g gi, d.groupInfo.get g = some gi → (d.groupMembers.get (g, gi.masterUid)).isSome

/-- The owner of a conversation, as a room. -/
def Conversation.owner (c : Conversation) : Option ℤ :=
  if c.type = .group then some c.businessId else none

def Db.rooms (d : Db) : Rooms ℤ ℤ ℤ where
  room g := (d.groupInfo.get g).map fun gi => (gi.conversationId, gi.masterUid)
  owner c := (d.conversations.get c).map Conversation.owner
  member := d.groupMembers.under
  applied := d.groupApplys.under
  seated := d.conversationUserStates.under

section rooms

variable {d : Db}

theorem Db.rooms_room {g c m : ℤ} : d.rooms.room g = some (c, m) ↔
    ∃ gi, d.groupInfo.get g = some gi ∧ gi.conversationId = c ∧ gi.masterUid = m := by
  simp [rooms]

theorem Db.rooms_room_none {g : ℤ} : d.rooms.room g = none ↔ d.groupInfo.get g = none := by
  simp [rooms]

theorem Db.rooms_owner {c g : ℤ} : d.rooms.owner c = some (some g) ↔
    ∃ conv, d.conversations.get c = some conv ∧ conv.type = .group ∧ conv.businessId = g := by
  simp [rooms, Conversation.owner]

theorem Db.rooms_owner_none {c : ℤ} : d.rooms.owner c = none ↔ d.conversations.get c = none := by
  simp [rooms]

theorem Db.aligned_iff : d.Aligned ↔ d.rooms.Aligned := by
  constructor
  · intro h
    constructor
    · intro g c m hg
      obtain ⟨gi, hgi, rfl, -⟩ := rooms_room.1 hg
      exact Set.ext (h.members g gi hgi)
    · intro g u hm ha
      have := h.applys g u hm
      simp [rooms, Table.under, this] at ha
    · intro g c m hg c'
      obtain ⟨gi, hgi, rfl, -⟩ := rooms_room.1 hg
      rw [rooms_owner]
      exact h.conversation g gi hgi c'
    · intro g hg
      rw [rooms_room_none] at hg
      constructor <;> refine Set.eq_empty_iff_forall_notMem.2 fun u hu => ?_
      · simpa [hg] using h.member_group g u hu
      · simpa [hg] using h.apply_group g u hu
    · intro c g hc hg
      obtain ⟨conv, hconv, htype, rfl⟩ := rooms_owner.1 hc
      rw [rooms_room_none] at hg
      refine Set.eq_empty_iff_forall_notMem.2 fun u hu => ?_
      simpa [hg] using h.state_group c u conv hu hconv htype
    · intro c hc
      rw [rooms_owner_none] at hc
      refine Set.eq_empty_iff_forall_notMem.2 fun u hu => ?_
      simpa [hc] using h.state_conversation c u hu
  · intro h
    constructor
    · intro g gi hgi u
      exact Set.ext_iff.1 (h.seats g gi.conversationId gi.masterUid (rooms_room.2 ⟨gi, hgi, rfl, rfl⟩)) u
    · intro g u hm
      simpa [rooms, Table.under] using h.apart g u hm
    · intro g gi hgi c
      rw [← rooms_owner]
      exact h.rooms g gi.conversationId gi.masterUid (rooms_room.2 ⟨gi, hgi, rfl, rfl⟩) c
    · intro g u hu
      by_contra hg
      rw [not_isSome_iff_eq_none, ← rooms_room_none] at hg
      exact Set.eq_empty_iff_forall_notMem.1 (h.gone g hg).1 u hu
    · intro g u hu
      by_contra hg
      rw [not_isSome_iff_eq_none, ← rooms_room_none] at hg
      exact Set.eq_empty_iff_forall_notMem.1 (h.gone g hg).2 u hu
    · intro c u conv hu hconv htype
      by_contra hg
      rw [not_isSome_iff_eq_none, ← rooms_room_none] at hg
      exact Set.eq_empty_iff_forall_notMem.1
        (h.homeless c conv.businessId (rooms_owner.2 ⟨conv, hconv, htype, rfl⟩) hg) u hu
    · intro c u hu
      by_contra hc
      rw [not_isSome_iff_eq_none, ← rooms_owner_none] at hc
      exact Set.eq_empty_iff_forall_notMem.1 (h.closed c hc) u hu

theorem Db.mastered_iff : d.Mastered ↔ d.rooms.Mastered := by
  constructor
  · intro h g c m hg
    obtain ⟨gi, hgi, -, rfl⟩ := rooms_room.1 hg
    exact h g gi hgi
  · intro h g gi hgi
    exact h g gi.conversationId gi.masterUid (rooms_room.2 ⟨gi, hgi, rfl, rfl⟩)

end rooms

variable [Collation]

/-! ### Under the lock of the group's row -/

/-- The rows of a group: its own, its members and its applications. -/
def SameGroup (g : ℤ) (d d' : Db) : Prop :=
  d'.groupInfo.get g = d.groupInfo.get g ∧
    (∀ u, d'.groupMembers.get (g, u) = d.groupMembers.get (g, u)) ∧
    ∀ u, d'.groupApplys.get (g, u) = d.groupApplys.get (g, u)

omit [Collation] in
theorem SameGroup.trans {g : ℤ} {d d' d'' : Db} (h : SameGroup g d d') (h' : SameGroup g d' d'') :
    SameGroup g d d'' :=
  ⟨h'.1.trans h.1, fun u => (h'.2.1 u).trans (h.2.1 u), fun u => (h'.2.2 u).trans (h.2.2 u)⟩

section deeds

variable {V : Versions} {t : ℕ} {d : Db} {ls : List (Lock Key)} {o : Operation} {ws : List Write}

/-- A deed that does not hold the group's lock leaves the group alone. -/
theorem Deed.sameGroup (h : Deed V t d ls o ws) {g : ℤ}
    (hfree : ∀ l ∈ ls, (exclusive (.group g)).conflicts l = false) :
    SameGroup g d (applyAll ws d) := by
  have same : ∀ {d' : Db}, d'.groupInfo = d.groupInfo → d'.groupMembers = d.groupMembers →
      d'.groupApplys = d.groupApplys → SameGroup g d d' :=
    fun hi hm ha => ⟨by rw [hi], fun u => by rw [hm], fun u => by rw [ha]⟩
  have other : ∀ {g'}, exclusive (.group g') ∈ ls → g ≠ g' := by
    rintro g' hlock rfl
    simpa [Lock.conflicts] using hfree _ hlock
  have joins : ∀ {c joins}, Joins d c joins → SameGroup g d (applyAll joins d) := fun h =>
    same (h.untouched Db.groupInfo rfl) (h.untouched Db.groupMembers rfl) (h.untouched Db.groupApplys rfl)
  cases h with
  | idle | apply | answer | befriend | upload | reupload | progress | profile => exact same rfl rfl rfl
  | unfriend =>
    exact same (applyAll_map Db.groupInfo _ _ rfl) (applyAll_map Db.groupMembers _ _ rfl)
      (applyAll_map Db.groupApplys _ _ rfl)
  | sendDirect _ _ hjoins _ _ _ =>
    rw [applyAll_append]
    exact joins hjoins
  | joinDirect _ _ hjoins => exact joins hjoins
  | sendGroup => exact same rfl rfl rfl
  | receive _ _ hreceipt _ => rcases hreceipt with rfl | rfl <;> exact same rfl rfl rfl
  | found hlock _ _ _ _ _ =>
    have hne := other hlock
    exact ⟨get_set_ne _ _ hne, fun u => get_set_ne _ _ (by simp [hne]), fun u => rfl⟩
  | requestJoin hlock _ _ _ _ =>
    have hne := other hlock
    exact ⟨rfl, fun u => rfl, fun u => get_set_ne _ _ (by simp [hne])⟩
  | reject hlock _ =>
    have hne := other hlock
    exact ⟨rfl, fun u => rfl, fun u => get_set_ne _ _ (by simp [hne])⟩
  | welcome hlock _ _ _ _ =>
    have hne := other hlock
    exact ⟨rfl, fun u => get_set_ne _ _ (by simp [hne]), fun u => get_set_ne _ _ (by simp [hne])⟩
  | welcomeBare hlock _ _ _ _ =>
    have hne := other hlock
    exact ⟨rfl, fun u => get_set_ne _ _ (by simp [hne]), fun u => get_set_ne _ _ (by simp [hne])⟩
  | leave hlock _ _ _ _ _ hstates =>
    have hne := other hlock
    rcases hstates with rfl | ⟨rfl, -⟩ <;> exact ⟨rfl, fun u => get_set_ne _ _ (by simp [hne]), fun u => rfl⟩
  | dissolve hlock _ _ _ _ _ has hms =>
    have hne := other hlock
    refine ⟨?_, fun u => ?_, fun u => ?_⟩
    · rw [dissolved_groupInfo, get_set_ne _ _ hne]
    · rw [dissolved_groupMembers, if_neg (by simp [hms, hne])]
    · rw [dissolved_groupApplys, if_neg (by simp [has, hne])]

end deeds

variable {A : Operation → Prop} {v : Version Db Key} {c : ℤ}

/-- What was read of a group after its row had been locked still holds at the commit. -/
theorem History.since {V : Versions} (h : History A V) {g : ℤ} {t : ℕ} {d : Db}
    (hs : Since V (exclusive (.group g)) t d) (hv : V[t]? = some v) :
    SameGroup g d v.db := by
  obtain ⟨j, u, hjt, hu, rfl, hquiet⟩ := hs
  refine hquiet.induct hjt ?_ hu hv ⟨rfl, fun _ => rfl, fun _ => rfl⟩
  intro i w w' _ _ hw hw' hfree hsame
  obtain ⟨o, ws, -, hdeed, hdb⟩ := h.step hw hw'
  rw [hdb]
  exact hsame.trans (hdeed.sameGroup hfree)

/-! ### Deeds are steps of groups and rooms -/

omit [Collation] in
theorem friendConversation_direct {a b : ℤ} {d : Db} (h : friendConversation a b d = some c) :
    ∃ conv, d.conversations.get c = some conv ∧ conv.type = .direct := by
  obtain ⟨⟨c', conv⟩, hfind, rfl⟩ := map_eq_some_iff.1 h
  obtain ⟨⟨f, row⟩, -, hrow⟩ := List.exists_of_findSome?_eq_some hfind
  simp only at hrow
  split at hrow
  · obtain ⟨hget, hcond⟩ := of_first hrow
    exact ⟨conv, hget, (of_decide_eq_true hcond).1⟩
  · cases hrow

/-- The conversation a direct message goes to was direct when it was looked up, and it still is. -/
theorem History.direct {V : Versions} (h : History A V) {t : ℕ} {d : Db}
    (hbefore : Before V t d) {a b : ℤ} (hfriends : friendConversation a b d = some c) (hv : V[t]? = some v) :
    v.db.rooms.owner c = some none := by
  obtain ⟨j, u, hjt, hu, rfl⟩ := hbefore
  obtain ⟨conv, hconv, htype⟩ := friendConversation_direct hfriends
  obtain ⟨conv', hconv', hext⟩ := h.conversation hjt hu hv hconv
  simp [Db.rooms, hconv', Conversation.owner, hext.type, htype]

section steps

variable {d d' : Db}

omit [Collation]

theorem rooms_congr (hi : d'.groupInfo = d.groupInfo) (hc : d'.rooms.owner = d.rooms.owner)
    (hm : d'.groupMembers = d.groupMembers) (ha : d'.groupApplys = d.groupApplys)
    (hs : d'.conversationUserStates.under = d.conversationUserStates.under) : d'.rooms = d.rooms := by
  refine Rooms.ext ?_ hc ?_ ?_ hs
  · simp only [Db.rooms, hi]
  · simp only [Db.rooms, hm]
  · simp only [Db.rooms, ha]

theorem owner_set {c : ℤ} {conv : Conversation} {owner : Option ℤ}
    (hc : d'.conversations = d.conversations.set c (some conv)) (howner : conv.owner = owner) :
    d'.rooms.owner = update d.rooms.owner c (some owner) := by
  subst howner
  funext c'
  by_cases hcc : c' = c <;> simp [Db.rooms, hc, get_set, hcc]

theorem owner_kept {c : ℤ} {conv : Conversation} (hconv : d.conversations.get c = some conv) {n : ℕ}
    (hc : d'.conversations = d.conversations.set c (some { conv with latestSeq := n })) :
    d'.rooms.owner = d.rooms.owner := by
  rw [owner_set hc rfl, Function.update_eq_self_iff]
  simp [Db.rooms, hconv, Conversation.owner]

theorem room_set {g : ℤ} {r : GroupInfo} (hg : d'.groupInfo = d.groupInfo.set g (some r)) :
    d'.rooms.room = update d.rooms.room g (some (r.conversationId, r.masterUid)) := by
  funext g'
  by_cases hgg : g' = g <;> simp [Db.rooms, hg, get_set, hgg]

theorem room_set_none {g : ℤ} (hg : d'.groupInfo = d.groupInfo.set g none) :
    d'.rooms.room = update d.rooms.room g none := by
  funext g'
  by_cases hgg : g' = g <;> simp [Db.rooms, hg, get_set, hgg]

end steps

theorem Joins.under {d d' : Db} {joins : List Write} (h : Joins d c joins) :
    (applyAll joins d').conversationUserStates.under = update d'.conversationUserStates.under c
      ((applyAll joins d').conversationUserStates.under c) := by
  induction joins generalizing d' with
  | nil => simp
  | cons w joins ih =>
    obtain ⟨u, rfl, -⟩ := h w List.mem_cons_self
    rw [applyAll_cons, ih (fun w hw => h w (List.mem_cons_of_mem _ hw))]
    simp [joinedAtOne, under_set_some]

/-- A removal that keeps the group is a removal of somebody else. -/
def MastersStay : Operation → Prop
  | .removeGroupMember _ actorUid targetUid dissolveIfMaster =>
    dissolveIfMaster = false → actorUid ≠ targetUid
  | _ => True

theorem Deed.rooms_step {V : Versions} (h : History A V) {t : ℕ} (hv : V[t]? = some v)
    (hpast : ∀ i u, i ≤ t → V[i]? = some u → u.db.rooms.Aligned) {ls : List (Lock Key)}
    {o : Operation} {ws : List Write} (stays : Prop) (hstays : stays → MastersStay o)
    (hdeed : Deed V t v.db ls o ws) : v.db.rooms.Step stays (applyAll ws v.db).rooms := by
  have same : ∀ {d' : Db}, d'.rooms = v.db.rooms → v.db.rooms.Step stays d'.rooms := fun h => h ▸ .same
  have becomes : ∀ {R : Rooms ℤ ℤ ℤ} {d' : Db}, v.db.rooms.Step stays R → d'.rooms = R →
      v.db.rooms.Step stays d'.rooms := fun hs h => h ▸ hs
  have haligned := hpast t v (Nat.le_refl t) hv
  cases hdeed with
  | idle | apply | answer | upload | reupload | progress | profile => exact same rfl
  | unfriend => exact same (applyAll_map Db.rooms _ _ rfl)
  | befriend _ hconv _ hjoins =>
    exact becomes (.opened (Db.rooms_owner_none.2 hconv))
      (Rooms.ext rfl (owner_set rfl rfl) rfl rfl hjoins.under)
  | @sendDirect op c m conv joins d' hbefore hfriends hjoins hconv _ _ =>
    rw [applyAll_append]
    refine becomes (.sat (h.direct hbefore hfriends hv))
      (Rooms.ext ?_ (owner_kept (n := conv.latestSeq + 1) hconv ?_) ?_ ?_ hjoins.under)
    · exact hjoins.untouched (fun d => d.rooms.room) rfl
    · simp [hjoins.rest.1]
    · exact hjoins.untouched (fun d => d.rooms.member) rfl
    · exact hjoins.untouched (fun d => d.rooms.applied) rfl
  | joinDirect hbefore hfriends hjoins =>
    refine becomes (.sat (h.direct hbefore hfriends hv)) (Rooms.ext ?_ ?_ ?_ ?_ hjoins.under)
    · exact hjoins.untouched (fun d => d.rooms.room) rfl
    · exact hjoins.untouched (fun d => d.rooms.owner) rfl
    · exact hjoins.untouched (fun d => d.rooms.member) rfl
    · exact hjoins.untouched (fun d => d.rooms.applied) rfl
  | sendGroup _ _ _ hconv _ _ => exact same (rooms_congr rfl (owner_kept hconv rfl) rfl rfl rfl)
  | @receive op m st receipt persisted _ _ hreceipt hstate =>
    have hseat : op.uid ∈ v.db.conversationUserStates.under op.conversationId := by
      simp [Table.under, hstate]
    have hunder : ∀ st', (v.db.conversationUserStates.set (op.conversationId, op.uid) (some st')).under =
        v.db.conversationUserStates.under := fun st' => by
      rw [under_set_some, Set.insert_eq_of_mem hseat, Function.update_eq_self]
    rcases hreceipt with rfl | rfl <;> exact same (rooms_congr rfl rfl rfl rfl (hunder _))
  | @found g gi _ hgroup hconv hfree hmember hjoins =>
    have hempty := (haligned.gone g (Db.rooms_room_none.2 hgroup)).1
    have hclosed := haligned.closed gi.conversationId (Db.rooms_owner_none.2 hconv)
    refine becomes (.founded (Db.rooms_room_none.2 hgroup) (Db.rooms_owner_none.2 hconv) fun c' hc' => ?_)
      (Rooms.ext (room_set (r := gi.stored) rfl) (owner_set rfl rfl) ?_ rfl ?_)
    · obtain ⟨conv, hget, htype, hid⟩ := Db.rooms_owner.1 hc'
      exact hfree c' conv hget ⟨htype, hid⟩
    · refine (under_set_some _ _ _ _).trans (congrArg (update _ g) ?_)
      exact (congrArg (insert gi.masterUid) hempty).trans (insert_empty_eq _)
    · refine (under_set_some _ _ _ _).trans (congrArg (update _ gi.conversationId) ?_)
      exact (congrArg (insert gi.masterUid) hclosed).trans (insert_empty_eq _)
  | requestJoin _ hgroup hsince hmember _ =>
    refine becomes (.requested (by simp [Db.rooms, hgroup]) fun hu => ?_)
      (Rooms.ext rfl rfl rfl (under_set_some _ _ _ _) rfl)
    have hkept := (h.since hsince hv).2.1
    simp [Db.rooms, Table.under, hkept, hmember] at hu
  | reject => exact becomes .rejected (Rooms.ext rfl rfl rfl (under_set_none _ _ _) rfl)
  | welcome _ hgroup _ _ _ =>
    exact becomes (.admitted (Db.rooms_room.2 ⟨_, hgroup, rfl, rfl⟩))
      (Rooms.ext rfl rfl (under_set_some _ _ _ _) (under_set_none _ _ _) (under_set_some _ _ _ _))
  | @welcomeBare g a u now gi d' _ _ hbefore hgroup' hconv =>
    -- a group has its conversation at every version
    obtain ⟨j, w, hj, hw, rfl⟩ := hbefore
    have howner := (hpast j w hj hw).owner_room (Db.rooms_room.2 ⟨gi, hgroup', rfl, rfl⟩)
    simp [Db.rooms, hconv] at howner
  | @leave g a u dissolve gi d' states _ hgroup hactor hkeep hmember hsince hstates =>
    have hroom := Db.rooms_room.2 ⟨gi, hgroup, rfl, rfl⟩
    rcases hstates with rfl | ⟨rfl, hnone⟩
    · refine becomes (.left hroom fun hs => ?_)
        (Rooms.ext rfl rfl (under_set_none _ _ _) rfl (under_set_none _ _ _))
      rintro rfl
      cases dissolve with
      | true => exact hkeep ⟨rfl, rfl⟩
      | false => exact hstays hs rfl (hactor.elim id id)
    · -- a member is a participant, also of the version the DELETE looked at
      obtain ⟨hinfo, hmembers, -⟩ := h.since hsince hv
      obtain ⟨j, w, hj, hw, rfl, -⟩ := hsince
      have hal := Db.aligned_iff.2 (hpast j w hj hw)
      have := (hal.members g gi (hinfo.symm.trans hgroup) u).1 (by rw [← hmembers]; exact hmember)
      simp [hnone] at this
  | @dissolve g a u gi d₁ d₂ d₃ ss as ms _ hgroup h₁ h₂ h₃ hss has hms =>
    have hroom := Db.rooms_room.2 ⟨gi, hgroup, rfl, rfl⟩
    refine becomes (.dissolved hroom) (Rooms.ext (room_set_none dissolved_groupInfo) ?_
      (under_deleted dissolved_groupMembers (fun k hk => ((hms k).1 hk).1) fun b hb => ?_)
      (under_deleted dissolved_groupApplys (fun k hk => ((has k).1 hk).1) fun b hb => ?_)
      (under_deleted dissolved_userStates (fun k hk => ((hss k).1 hk).1) fun b hb => ?_))
    · exact dissolved_rest (fun d => d.rooms.owner) rfl rfl rfl rfl
    · exact (hms _).2 ⟨rfl, by rw [← (h.since h₃ hv).2.1]; exact hb⟩
    · exact (has _).2 ⟨rfl, by rw [← (h.since h₂ hv).2.2]; exact hb⟩
    · obtain ⟨hinfo, hmembers, -⟩ := h.since h₁ hv
      obtain ⟨j, w, hj, hw, rfl, -⟩ := h₁
      have hal := Db.aligned_iff.2 (hpast j w hj hw)
      have hb' := ((Db.aligned_iff.2 haligned).members g gi hgroup b).2 hb
      rw [hmembers] at hb'
      exact (hss _).2 ⟨rfl, (hal.members g gi (hinfo.symm.trans hgroup) b).1 hb'⟩

theorem History.aligned {V : Versions} (h : History A V)
    (hinit : ∀ v, V[0]? = some v → v.db.Aligned) {j : ℕ} (hv : V[j]? = some v) :
    v.db.Aligned := by
  refine h.invariant hinit ?_ j v hv
  intro j v v' o ws hv _ hpast _ hdeed
  rw [Db.aligned_iff]
  have hpast' : ∀ i u, i ≤ j → V[i]? = some u → u.db.rooms.Aligned :=
    fun i u hi hu => Db.aligned_iff.1 (hpast i u hi hu)
  exact (hdeed.rooms_step h hv hpast' False (by simp)).aligned (hpast' j v (Nat.le_refl j) hv)

theorem History.mastered {V : Versions} (h : History A V)
    (hA : ∀ o, A o → MastersStay o) (hinit : ∀ v, V[0]? = some v → v.db.Aligned ∧ v.db.Mastered)
    {j : ℕ} (hv : V[j]? = some v) : v.db.Mastered := by
  refine h.invariant (fun v hv => (hinit v hv).2) ?_ j v hv
  intro j v v' o ws hv _ hpast ho hdeed
  rw [Db.mastered_iff]
  have hpast' : ∀ i u, i ≤ j → V[i]? = some u → u.db.rooms.Aligned :=
    fun i u _ hu => Db.aligned_iff.1 (h.aligned (fun v hv => (hinit v hv).1) hu)
  exact (hdeed.rooms_step h hv hpast' True fun _ => hA o ho).mastered
    (Db.mastered_iff.1 (hpast j v (Nat.le_refl j) hv))

end Imm
