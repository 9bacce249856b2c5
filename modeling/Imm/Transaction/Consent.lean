import Imm.Transaction.Commands
import Imm.Store.Lasting
import Imm.Schemes.Paths

/-! Who becomes friends. An accepting reply stores the friendship without a look at the applications,
    so a user can make anybody a friend. As long as clients reply to applications only, and all
    replies between two users say the same, every friendship has the consent of both: the one asked,
    and the application was still waiting when the other's reply was stored. -/

namespace Imm

open Txn SQL MysqlStore Steps

variable [Collation]

/-! ### What commands do to friends and applications -/

section deeds

variable {V : Versions} {t : ℕ} {d : Db} {ls : List (Lock Key)} {o : Operation} {ws : List Write}

/-- Friendships come from `insert_friend`, between strangers; only `delete_friend` ends them. -/
theorem Deed.friends (h : Deed V t d ls o ws) (hkeep : ∀ a b, o ≠ .deleteFriend a b) :
    (applyAll ws d).friends = d.friends ∨
      ∃ f c a b time, o = .insertFriend f c a b time ∧ d.friends.get f = none ∧
        d.Strangers (min a b) (max a b) ∧
        (applyAll ws d).friends = d.friends.set f (some ⟨min a b, max a b, time⟩) := by
  cases h with
  | befriend hfriend _ _ _ hpair => exact .inr ⟨_, _, _, _, _, rfl, hfriend, hpair, rfl⟩
  | unfriend => exact absurd rfl (hkeep _ _)
  | sendDirect _ _ hjoins _ _ _ =>
    rw [applyAll_append]
    exact .inl (hjoins.untouched Db.friends rfl)
  | joinDirect _ _ hjoins => exact .inl (hjoins.untouched Db.friends rfl)
  | receive _ _ hreceipt _ => rcases hreceipt with rfl | rfl <;> exact .inl rfl
  | leave _ _ _ _ _ _ hstates => rcases hstates with rfl | ⟨rfl, -⟩ <;> exact .inl rfl
  | dissolve =>
    exact .inl (dissolved_rest Db.friends rfl rfl rfl rfl)
  | _ => exact .inl rfl

/-- Applications are stored where there was none and are then only answered. -/
theorem Deed.applications (h : Deed V t d ls o ws) :
    (applyAll ws d).friendApplys = d.friendApplys ∨
      (∃ a b data k, o = .insertFriendApply a b data ∧ (k = (a, b) ∨ k = (b, a)) ∧
        d.friendApplys.get k = none ∧ (applyAll ws d).friendApplys = d.friendApplys.set k (some data.stored)) ∨
      ∃ a b answer k, o = .updateFriendApplyStatus a b answer ∧ (k = (a, b) ∨ k = (b, a)) ∧
        (d.friendApplys.get k).isSome = true ∧
        (applyAll ws d).friendApplys = d.friendApplys.set k (some answer.stored) := by
  cases h with
  | apply hk hnew => exact .inr (.inl ⟨_, _, _, _, rfl, hk, hnew, rfl⟩)
  | answer hk hold => exact .inr (.inr ⟨_, _, _, _, rfl, hk, by rw [hold]; rfl, rfl⟩)
  | unfriend => exact .inl (applyAll_map Db.friendApplys _ _ rfl)
  | sendDirect _ _ hjoins _ _ _ =>
    rw [applyAll_append]
    exact .inl (hjoins.untouched Db.friendApplys rfl)
  | joinDirect _ _ hjoins => exact .inl (hjoins.untouched Db.friendApplys rfl)
  | receive _ _ hreceipt _ => rcases hreceipt with rfl | rfl <;> exact .inl rfl
  | leave _ _ _ _ _ _ hstates => rcases hstates with rfl | ⟨rfl, -⟩ <;> exact .inl rfl
  | dissolve =>
    exact .inl (dissolved_rest Db.friendApplys rfl rfl rfl rfl)
  | _ => exact .inl rfl

theorem Deed.new_friend (h : Deed V t d ls o ws) (hkeep : ∀ a b, o ≠ .deleteFriend a b) {f : ℤ}
    {row : Friend} (hnone : d.friends.get f = none) (hrow : (applyAll ws d).friends.get f = some row) :
    ∃ f c a b time, o = .insertFriend f c a b time ∧ row = ⟨min a b, max a b, time⟩ ∧
      d.Strangers (min a b) (max a b) := by
  rcases h.friends hkeep with hsame | ⟨f', c, a, b, time, rfl, -, hpair, hset⟩
  · rw [hsame, hnone] at hrow
    cases hrow
  rw [hset, Table.get_set] at hrow
  split at hrow
  · cases hrow
    exact ⟨f', c, a, b, time, rfl, rfl, hpair⟩
  · cases hnone.symm.trans hrow

theorem Deed.friends_kept (h : Deed V t d ls o ws) (hkeep : ∀ a b, o ≠ .deleteFriend a b) {a b : ℤ}
    (hfriends : ¬ d.Strangers a b) : ¬ (applyAll ws d).Strangers a b := by
  intro hnot
  refine hfriends fun f row hrow => ?_
  rcases h.friends hkeep with hsame | ⟨f', c, a, b, time, rfl, hnew, -, hset⟩
  · exact hnot f row (hsame ▸ hrow)
  · exact hnot f row (hset ▸ (Table.get_set_new hnew hrow))

theorem Deed.application_kept (h : Deed V t d ls o ws) {k : ℤ × ℤ} {data : FriendApply}
    (hdata : d.friendApplys.get k = some data)
    (hanswer : ∀ a b answer, o = .updateFriendApplyStatus a b answer → k ≠ (a, b) ∧ k ≠ (b, a)) :
    (applyAll ws d).friendApplys.get k = some data := by
  rcases h.applications with hsame | ⟨-, -, data', k', -, -, hnew, hset⟩ | ⟨a, b, answer, k', rfl, hk', -, hset⟩
  · rw [hsame, hdata]
  · rw [hset]
    exact Table.get_set_new hnew hdata
  obtain ⟨hne, hne'⟩ := hanswer a b answer rfl
  rw [hset, Table.get_set_ne]
  · exact hdata
  · rcases hk' with rfl | rfl
    · exact hne
    · exact hne'

end deeds

variable {c : Command} {s : ServiceStore} {a b : ℤ} {v : Version Db Key}

theorem Issues.keeps {V : Versions} {t : ℕ} {o : Operation} (h : Issues V t c o)
    (a b : ℤ) : o ≠ .deleteFriend a b := by
  cases h <;> simp

theorem Serves.friends_last {d : Db} (hrun : Serves d s) {i j : ℕ}
    {u : Version Db Key} (hij : i ≤ j) (hu : s.versions[i]? = some u) (hv : s.versions[j]? = some v)
    (hfriends : ¬ u.db.Strangers a b) : ¬ v.db.Strangers a b := by
  refine hrun.history.onwards (P := fun d => ¬ d.Strangers a b) ?_ hij hu hv hfriends
  rintro _ _ _ _ _ _ _ ⟨_, _, hissues⟩ hdeed h
  exact hdeed.friends_kept hissues.keeps h

/-! ### Replies -/

/-- The command is a reply to `toUid`. -/
def Command.Replies (c : Command) (accept : Bool) (toUid : ℤ) : Prop :=
  ∃ message, c.request = .replyFriend toUid (some accept) message

/-- The command is a reply between `a` and `b`, in either direction. -/
def Command.Between (c : Command) (accept : Bool) (a b : ℤ) : Prop :=
  (c.actorUid = a ∧ c.Replies accept b) ∨ (c.actorUid = b ∧ c.Replies accept a)

/-- The session is an `add_friend` of `a` to `b` that was answered with success. -/
def Asked (τ : Session Db Key Write Outcome Command) (a b : ℤ) : Prop :=
  τ.op.actorUid = a ∧ (∃ message, τ.op.request = .addFriend b message) ∧
    ∃ o, τ.prog = .ret o ∧ o.response.error = .Success

omit [Collation] in
theorem Asked.answer {τ : Session Db Key Write Outcome Command} (h : Asked τ a b) :
    ∃ o, τ.prog = .ret o := by
  obtain ⟨-, -, o, hret, -⟩ := h
  exact ⟨o, hret⟩

/-- The application of `a` to `b` is waiting for an answer. -/
def Waiting (d : Db) (a b : ℤ) : Prop := ∃ data, d.friendApplys.get (a, b) = some data ∧ data.status = .Wait

/-- How clients should reply: one accepts only what the other has asked for, and no reply takes a
    reply back. -/
def InTurn (s : ServiceStore) : Event Command → Prop
  | .begin c =>
    (∀ toUid, c.Replies true toUid → ∃ τ ∈ s.sessions, Asked τ toUid c.actorUid) ∧
    (∀ a b, c.Between true a b → ∀ ρ ∈ s.sessions, ¬ ρ.op.Between false a b) ∧
    ∀ a b, c.Between false a b →
      ¬ s.cur.db.Strangers (min a b) (max a b) ∨ ∀ σ ∈ s.sessions, ¬ σ.op.Between true a b
  | _ => True

omit [Collation] in
theorem Command.Replies.agree {x y : Bool} (h : c.Replies x a) (h' : c.Replies y b) : x = y := by
  obtain ⟨message, hreq⟩ := h
  obtain ⟨message', hreq'⟩ := h'
  simp only [hreq, Request.replyFriend.injEq, Option.some.injEq] at hreq'
  exact hreq'.2.1

omit [Collation] in
theorem Command.Between.agree {x y : Bool} (h : c.Between x a b) (h' : c.Between y a b) : x = y := by
  rcases h with ⟨-, h⟩ | ⟨-, h⟩ <;> rcases h' with ⟨-, h'⟩ | ⟨-, h'⟩ <;> exact h.agree h'

/-- Runs of clients that reply in turn. -/
def ServesInTurn (d : Db) (s : ServiceStore) : Prop :=
  Path (Sys.step Service.process) InTurn (Sys.init d) s

theorem ServesInTurn.serves {d : Db} (h : ServesInTurn d s) : Serves d s := h.events

/-- What replies in turn leave behind. -/
structure Answered (s : ServiceStore) : Prop where
  /-- who accepts had been asked -/
  asked : ∀ σ ∈ s.sessions, ∀ toUid, σ.op.Replies true toUid →
    ∃ τ ∈ s.sessions, Asked τ toUid σ.op.actorUid ∧ τ.seen ≤ σ.began
  /-- a refusal between two users of whom one accepts comes when they are friends -/
  late : ∀ σ ∈ s.sessions, ∀ ρ ∈ s.sessions, ∀ a b, σ.op.Between true a b → ρ.op.Between false a b →
    ∃ v, s.versions[ρ.began]? = some v ∧ ¬ v.db.Strangers (min a b) (max a b)

theorem Answered.step {d : Db} {s' : ServiceStore} {ev : Event Command} (hrun : Serves d s)
    (h : Answered s) (hok : InTurn s ev) (hstep : s.step Service.process ev = some s') : Answered s' := by
  obtain ⟨hfrom, hstay⟩ := Sys.sessions_step hstep
  have hpre := Sys.versions_step hstep
  have later : ∀ {n : ℕ} {v : Version Db Key}, s.versions[n]? = some v → s'.versions[n]? = some v := by
    intro n v hv
    obtain ⟨rest, hrest⟩ := hpre
    rw [← hrest, List.getElem?_append_left (List.getElem?_eq_some_iff.1 hv).1, hv]
  constructor
  · intro σ' hσ' toUid hreplies
    rcases hfrom σ' hσ' with ⟨σ, hσ, hop, hbegan⟩ | ⟨rfl, hbegan⟩
    · obtain ⟨τ, hτ, hasked, hseen⟩ := h.asked σ hσ toUid (hop ▸ hreplies)
      obtain ⟨o, hret⟩ := hasked.answer
      exact ⟨τ, hstay τ hτ o hret, hop ▸ hasked, hbegan ▸ hseen⟩
    obtain ⟨τ, hτ, hasked⟩ := hok.1 toUid hreplies
    obtain ⟨o, hret⟩ := hasked.answer
    exact ⟨τ, hstay τ hτ o hret, hasked, hbegan ▸ hrun.coherent.seen_le τ hτ⟩
  · intro σ' hσ' ρ' hρ' a b haccept hrefuse
    rcases hfrom σ' hσ' with ⟨σ, hσ, hop, -⟩ | ⟨hev, -⟩ <;>
      rcases hfrom ρ' hρ' with ⟨ρ, hρ, hop', hbegan⟩ | ⟨hev', hbegan⟩
    · obtain ⟨v, hv, hfriends⟩ := h.late σ hσ ρ hρ a b (hop ▸ haccept) (hop' ▸ hrefuse)
      exact ⟨v, later (hbegan ▸ hv), hfriends⟩
    · subst hev'
      have hfriends := (hok.2.2 a b hrefuse).resolve_right fun hnone => hnone σ hσ (hop ▸ haccept)
      exact ⟨s.cur, later (hbegan ▸ s.cur_now), hfriends⟩
    · subst hev
      exact absurd (hop' ▸ hrefuse) (hok.2.1 a b haccept ρ hρ)
    obtain hsame : σ'.op = ρ'.op := by simpa [hev] using hev'
    cases haccept.agree (hsame ▸ hrefuse)

theorem ServesInTurn.answered {d : Db} (h : ServesInTurn d s) : Answered s :=
  h.invariant ⟨by simp [Sys.init], by simp [Sys.init]⟩
    fun _ _ _ path hpast hok hstep => hpast.step (ServesInTurn.serves path) hok hstep

/-- As long as two users are strangers, one of whom accepts, no reply answers an application. -/
theorem ServesInTurn.unanswered {d : Db} (h : ServesInTurn d s) {t : ℕ} (hv : s.versions[t]? = some v)
    (hstrangers : v.db.Strangers (min a b) (max a b)) {σ : Session Db Key Write Outcome Command}
    (hσ : σ ∈ s.sessions) (haccept : σ.op.Between true a b) {ρ : Session Db Key Write Outcome Command}
    (hρ : ρ ∈ s.sessions) {j : ℕ} (hbegan : ρ.began ≤ j) (hj : j ≤ t) {x y : ℤ} {answer : FriendApply}
    (hissues : Issues s.versions j ρ.op (.updateFriendApplyStatus x y answer)) :
    ¬ ((a = x ∧ b = y) ∨ (a = y ∧ b = x)) := by
  intro hpair
  have hmin : min x y = min a b ∧ max x y = max a b := by
    rcases hpair with ⟨rfl, rfl⟩ | ⟨rfl, rfl⟩
    · exact ⟨rfl, rfl⟩
    · exact ⟨min_comm _ _, max_comm _ _⟩
  -- a friendship at an earlier version would still be there
  have parted : ∀ {i : ℕ} {w : Version Db Key}, i ≤ t → s.versions[i]? = some w →
      w.db.Strangers (min a b) (max a b) := fun hi hw =>
    by_contra fun hfriends => h.serves.friends_last hi hw hv hfriends hstrangers
  cases hissues with
  | agree _ hfriends =>
    obtain ⟨i, w, hi, hw, hfriends⟩ := hfriends
    rw [hmin.1, hmin.2] at hfriends
    exact hfriends (parted (hi.trans hj) hw)
  | refuse hreq =>
    have hrefuse : ρ.op.Between false a b := by
      rcases hpair with ⟨rfl, rfl⟩ | ⟨rfl, rfl⟩
      · exact .inl ⟨rfl, _, hreq⟩
      · exact .inr ⟨rfl, _, hreq⟩
    obtain ⟨w, hw, hfriends⟩ := h.answered.late σ hσ ρ hρ a b haccept hrefuse
    exact hfriends (parted (hbegan.trans hj) hw)

/-- So an application between them still waits. -/
theorem ServesInTurn.still_waiting {d : Db} (h : ServesInTurn d s) {i t : ℕ}
    {u : Version Db Key} {data : FriendApply} (hit : i ≤ t) (hu : s.versions[i]? = some u)
    (hv : s.versions[t]? = some v) (hstrangers : v.db.Strangers (min a b) (max a b))
    {σ : Session Db Key Write Outcome Command} (hσ : σ ∈ s.sessions) (haccept : σ.op.Between true a b)
    (hdata : u.db.friendApplys.get (b, a) = some data) : v.db.friendApplys.get (b, a) = some data := by
  have upto : ∀ j, i ≤ j → j ≤ t → ∀ w, s.versions[j]? = some w →
      w.db.friendApplys.get (b, a) = some data := by
    intro j hij
    induction j, hij using Nat.le_induction with
    | base =>
      intro _ w hw
      cases hu.symm.trans hw
      exact hdata
    | succ j hij ih =>
      intro hj w' hw'
      have hlt : j < s.versions.length := Nat.lt_of_succ_lt (List.getElem?_eq_some_iff.1 hw').1
      have hw : s.versions[j]? = some s.versions[j] := List.getElem?_eq_getElem hlt
      obtain ⟨ρ, hρ, hbegan, o, ws, hissues, hdeed, hdb, -⟩ := h.serves.maker hw hw'
      rw [hdb]
      refine hdeed.application_kept (ih (Nat.le_of_succ_le hj) _ hw) ?_
      rintro x y answer rfl
      have hnot := h.unanswered hv hstrangers hσ haccept hρ hbegan (Nat.le_of_succ_le hj) hissues
      exact ⟨fun e => hnot (.inr ⟨congrArg (·.2) e, congrArg (·.1) e⟩),
        fun e => hnot (.inl ⟨congrArg (·.2) e, congrArg (·.1) e⟩)⟩
  exact upto t hit (Nat.le_refl t) v hv

/-- The friendship `row`, stored over the version `u`, was accepted by one of the two, whom the other
    had asked before, and the application was still waiting. -/
def Consented (s : ServiceStore) (u : Version Db Key) (row : Friend) : Prop :=
  ∃ σ ∈ s.sessions, ∃ τ ∈ s.sessions, ∃ toUid, σ.op.Replies true toUid ∧
    row.uidA = min σ.op.actorUid toUid ∧ row.uidB = max σ.op.actorUid toUid ∧
    Asked τ toUid σ.op.actorUid ∧ τ.seen ≤ σ.began ∧ Waiting u.db toUid σ.op.actorUid

/-- Friendship needs consent, among clients that reply in turn. -/
theorem friendship_needs_consent {d : Db} {s : ServiceStore} (h : ServesInTurn d s) {t : ℕ}
    {u v : Version Db Key} (hu : s.versions[t]? = some u) (hv : s.versions[t + 1]? = some v) {f : ℤ}
    {row : Friend} (hnone : u.db.friends.get f = none) (hrow : v.db.friends.get f = some row) :
    Consented s u row := by
  obtain ⟨σ, hσ, hbegan, o, ws, hissues, hdeed, hdb, -⟩ := h.serves.maker hu hv
  rw [hdb] at hrow
  obtain ⟨f', c, a, b, time, rfl, rfl, hstrangers⟩ := hdeed.new_friend hissues.keeps hnone hrow
  cases hissues with
  | befriend hreq _ =>
    have hreplies : σ.op.Replies true b := ⟨_, hreq⟩
    obtain ⟨τ, hτ, hasked, hseen⟩ := h.answered.asked σ hσ b hreplies
    refine ⟨σ, hσ, τ, hτ, b, hreplies, rfl, rfl, hasked, hseen, ?_⟩
    obtain ⟨rfl, ⟨message, hadd⟩, r, hret, hok⟩ := hasked
    obtain ⟨i, j, w, -, hij, hj, hw, hdata, -⟩ := (h.serves.coherent.answer hτ hret).applied _ _ hadd hok
    exact ⟨_, h.still_waiting (hij.trans (hj.trans (hseen.trans hbegan))) hw hu hstrangers hσ
      (.inl ⟨rfl, hreplies⟩) hdata, rfl⟩

omit [Collation]

/-- User 1 accepts user 2. -/
def acceptance : Command where
  actorUid := 1
  actorDeviceId := ""
  request := .replyFriend 2 (some true) ""

/-- User 2 asks user 1. -/
def asking : List (Event Command) :=
  [.begin { actorUid := 2, actorDeviceId := "", request := .addFriend 1 "" },
    .act 0 1, .act 0 3, .act 0 0, .act 0 0, .act 0 0]

/-- User 1 accepts, and the friendship is stored. -/
def accepting : List (Event Command) :=
  [.begin acceptance, .act 1 1, .act 1 4, .act 1 7, .act 1 9, .act 1 0, .act 1 0, .act 1 0, .act 1 0,
    .act 1 0, .act 1 0]

set_option maxRecDepth 4000 in
theorem friendship_needs_consent_when_asked : ∃ (s : ServiceStore) (u v : Version Db Key) (row : Friend),
    @ServesInTurn Collation.binary {} s ∧ s.versions[2]? = some u ∧ s.versions[3]? = some v ∧
      u.db.friends.get 7 = none ∧ v.db.friends.get 7 = some row ∧ Consented s u row := by
  have hasked : let _ := Collation.binary
      ∃ (s₀ : ServiceStore) (τ : _), (Sys.init {}).run Service.process asking = some s₀ ∧
        s₀.sessions = [τ] ∧ Asked τ 2 1 :=
    ⟨_, _, rfl, rfl, rfl, ⟨_, rfl⟩, _, rfl, rfl⟩
  have hrun : let _ := Collation.binary
      ∃ (s : ServiceStore) (u v : Version Db Key) (row : Friend),
        (Sys.init {}).run Service.process (asking ++ accepting) = some s ∧ s.versions[2]? = some u ∧
        s.versions[3]? = some v ∧ u.db.friends.get 7 = none ∧ v.db.friends.get 7 = some row :=
    ⟨_, _, _, _, rfl, rfl, rfl, rfl, rfl⟩
  obtain ⟨s₀, τ, hrun₀, hτ, hasked⟩ := hasked
  obtain ⟨s, u, v, row, hrun, hu, hv, hnone, hrow⟩ := hrun
  let _ := Collation.binary
  have hfirst : ServesInTurn {} s₀ :=
    Path.here.run (by simp [asking, InTurn, Command.Between, Command.Replies]) hrun₀
  have hturn : InTurn s₀ (.begin acceptance) := by
    refine ⟨?_, ?_, ?_⟩
    · rintro toUid ⟨message, hreq⟩
      cases hreq
      exact ⟨τ, by simp [hτ], hasked⟩
    · obtain ⟨-, ⟨message, hadd⟩, -⟩ := hasked
      simp [hτ, Command.Between, Command.Replies, hadd]
    · simp [acceptance, Command.Between, Command.Replies]
  have hpath : ServesInTurn {} s := by
    rw [Sys.run, List.foldlM_append, show asking.foldlM _ _ = some s₀ from hrun₀] at hrun
    exact (hfirst.next hturn rfl).run (by simp [InTurn]) hrun
  exact ⟨s, u, v, row, hpath, hu, hv, hnone, hrow, friendship_needs_consent hpath hu hv hnone hrow⟩

set_option maxRecDepth 4000 in
/-- A user alone can make another one a friend. -/
theorem friendship_without_consent : ∃ (s : ServiceStore) (u v : Version Db Key) (row : Friend),
    @Serves Collation.binary {} s ∧ s.versions[0]? = some u ∧ s.versions[1]? = some v ∧
      u.db.friends.get 7 = none ∧ v.db.friends.get 7 = some row ∧
      (∀ τ ∈ s.sessions, τ.op = acceptance) ∧ ¬ Consented s u row := by
  let _ := Collation.binary
  have hrun : ∃ (s : ServiceStore) (u v : Version Db Key) (row : Friend) (σ : _),
      Serves {} s ∧ s.versions[0]? = some u ∧ s.versions[1]? = some v ∧ u.db.friends.get 7 = none ∧
      v.db.friends.get 7 = some row ∧ s.sessions = [σ] ∧ σ.op = acceptance :=
    ⟨_, _, _, _, _, ⟨[.begin acceptance, .act 0 1, .act 0 4, .act 0 7, .act 0 9, .act 0 0,
      .act 0 0, .act 0 0, .act 0 0, .act 0 0, .act 0 0], rfl⟩, rfl, rfl, rfl, rfl, rfl, rfl⟩
  obtain ⟨s, u, v, row, σ, hrun, hu, hv, hnone, hrow, hσ, hop⟩ := hrun
  have hall : ∀ τ ∈ s.sessions, τ.op = acceptance := by simp [hσ, hop]
  refine ⟨s, u, v, row, hrun, hu, hv, hnone, hrow, hall, ?_⟩
  rintro ⟨_, _, τ, hτ, _, _, _, _, ⟨_, ⟨message, hadd⟩, _⟩, _⟩
  rw [hall τ hτ] at hadd
  cases hadd

end Imm
