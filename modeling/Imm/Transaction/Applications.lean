import Imm.Transaction.Pairs

/-! How an application is stored. `insert_friend_apply` makes two INSERTs that commit by themselves, one for
    each of the two users. When the second fails, the first row stays, although the command reports an
    error: so it is when a user applies to themselves, when the other user applies at the same time, and
    when the connection is lost in between. Between two users whose commands come one at a time, and
    without a failure between the two rows, an application is there for both or for neither.

    The two rows look alike, so the list of applications that a user pulls cannot tell who asked: it has an
    entry for every row that waits, whoever sent it, and each entry names the user who pulls. It is right
    only where nothing waits. -/

namespace Imm

open Txn SQL MysqlStore Steps List Table

/-- The row that `add_friend` stores. -/
def application (message : String) : FriendApply := ⟨varchar 512 message, .Wait, ""⟩

/-- Both users have a row of the application, or neither has. -/
def Db.Mirrored (d : Db) (a b : ℤ) : Prop :=
  (d.friendApplys.get (a, b)).isSome = (d.friendApplys.get (b, a)).isSome

theorem Db.Mirrored.same {d d' : Db} {a b : ℤ} (h : d.Mirrored a b) (hsame : d.SamePair d' a b) :
    d'.Mirrored a b := by
  unfold Mirrored
  rw [hsame.there, hsame.back]
  exact h

/-- What holds when an `add_friend` is answered. -/
structure Stored (c : Command) (toUid : ℤ) (message : String) (d : Db) (o : Outcome) (d' : Db)
    (committed : Bool) : Prop where
  success : o.response.error = .Success → d'.friendApplys.get (c.actorUid, toUid) = some (application message) ∧
    d'.friendApplys.get (toUid, c.actorUid) = some (application message)
  failure : o.response.error ≠ .Success → d.SamePair d' c.actorUid toUid ∧ committed = false

theorem Stored.mirrored {c : Command} {toUid : ℤ} {message : String} {d d' : Db} {o : Outcome} {k : Bool}
    (h : Stored c toUid message d o d' k) (hd : d.Mirrored c.actorUid toUid) :
    d'.Mirrored c.actorUid toUid := by
  by_cases hok : o.response.error = .Success
  · unfold Db.Mirrored
    rw [(h.success hok).1, (h.success hok).2]
  · exact hd.same (h.failure hok).1

/-! ### The statements -/

/-- What could be stored for one user can be stored for the other. -/
theorem insertFriendApply_back {a b : ℤ} {row : FriendApply} {n m : ℕ} {d d' : Db} {e : Effect Key Write Unit}
    (h : SQL.insertFriendApply a b row n d = .ok e) (hnone : d'.friendApplys.get (b, a) = none) :
    SQL.insertFriendApply b a row m d' =
      .ok { reply := (), writes := [.friendApplys (b, a) (some row.stored)] } := by
  obtain ⟨hfits, hinsert⟩ := within_ok h
  obtain ⟨hunsigned, -, -⟩ := insertRows_ok hinsert
  exact SQL.insertFriendApply_free m (hunsigned b (by simp)) (hunsigned a (by simp)) (hfits _ mem_cons_self)
    hnone

section mirrored

variable [Collation]

variable {d : Db} {c : Command} {fails : Bool → Prop}

theorem updateFriendApply_isSome {a b : ℤ} {row : FriendApply} {n : ℕ} {e : Effect Key Write Unit}
    (h : SQL.updateFriendApply a b row n d = .ok e) (k : ℤ × ℤ) :
    ((applyAll e.writes d).friendApplys.get k).isSome = (d.friendApplys.get k).isSome := by
  rcases updateFriendApply_ok h with ⟨-, rfl⟩ | ⟨old, hold, rfl⟩
  · rfl
  simp only [applyAll_cons, applyAll_nil, rows_apply, Write.apply, get_set]
  split
  · rename_i hk
    rw [hk, hold]
    rfl
  · rfl

/-! ### The commands -/

theorem apply_course {toUid : ℤ} {message : String} (hreq : c.request = .addFriend toUid message)
    (hself : c.actorUid ≠ toUid) (hfails : ¬ fails true) (hd : d.Mirrored c.actorUid toUid) :
    (company c fails).Course (fun o d' _ k => Stored c toUid message d o d' k) (Service.process c) d none
      false := by
  have hp : c.peer = some toUid := by simp [Command.peer, hreq]
  have hF : Lasts (company c fails) fun d' k => d.SamePair d' c.actorUid toUid ∧ k = false :=
    fun _ _ _ hrely h => ⟨h.1.trans (hrely toUid hp), h.2⟩
  have hstart : d.SamePair d c.actorUid toUid ∧ false = false := ⟨.refl _ _ _, rfl⟩
  refine process_course hF hstart
    (fun o d' _ k herror hthrown => ⟨fun hok => absurd hok herror, fun _ => hthrown⟩) fun d₁ h₁ => ?_
  simp only [Service.handle, hreq]
  have hf₁ := hF.on h₁ hstart
  refine .bind (generateId_leads hF (fun _ => hf₁) fun id d₂ h₂ => ?_)
  have hf₂ := hF.on h₂ hf₁
  refine .bind (submit_leads hF (fun _ => hf₂) fun d₃ h₃ => ?_)
  have hf₃ := hF.on h₃ hf₂
  -- the first row
  refine .bind (.exec_auto fun d₄ h₄ =>
    ⟨fun n _ => ⟨fun e hs => ?_, fun _ _ => hF.on h₄ hf₃⟩, fun _ => hF.on h₄ hf₃⟩)
  have hpair := (hF.on h₄ hf₃).1
  obtain ⟨hnone, rfl⟩ := insertFriendApply_ok hs
  -- the second has the place that the first had, and nobody takes it
  refine .bind (.exec_auto fun d₅ h₅ => ⟨fun m _ => ?_, fun hf => absurd hf hfails⟩)
  have hkept := h₅ toUid hp
  have hne : (toUid, c.actorUid) ≠ (c.actorUid, toUid) := fun h => hself (Prod.mk.inj h).2
  have hback : d₅.friendApplys.get (toUid, c.actorUid) = none := by
    rw [hkept.back]
    simp only [applyAll_cons, applyAll_nil, rows_apply, Write.apply]
    rw [get_set_ne _ _ hne]
    have hmirror := hd.same hpair
    unfold Db.Mirrored at hmirror
    rw [hnone] at hmirror
    simpa using hmirror.symm
  rw [insertFriendApply_back hs hback]
  refine ⟨?_, by simp⟩
  rintro _ ⟨⟩
  refine .pure ?_
  refine .pure ⟨fun _ => ⟨?_, ?_⟩, fun hfailed => absurd rfl hfailed⟩
  · simp only [applyAll_cons, applyAll_nil, rows_apply, Write.apply]
    rw [get_set_ne _ _ hne.symm, hkept.there]
    exact get_set_self _ _ _
  · exact get_set_self _ _ _

theorem updateFriendApplyStatus_mirrored {p : ℤ} {data : FriendApply} {k : Bool} (hp : c.peer = some p)
    (hd : d.Mirrored c.actorUid p) :
    (company c fails).Leads (Throws fun d _ => d.Mirrored c.actorUid p)
      (fun _ d' ws _ => ws = none ∧ d'.Mirrored c.actorUid p)
      (submit (MysqlStore.updateFriendApplyStatus c.actorUid p data)) d none k := by
  refine updateFriendApplyStatus_keeps (fun _ _ _ hrely h => h.same (hrely p hp)) ?_ hd
  intro d x y n e _ hd hs
  unfold Db.Mirrored
  rw [updateFriendApply_isSome hs, updateFriendApply_isSome hs]
  exact hd

theorem reply_course {toUid : ℤ} {accept : Option Bool} {message : String}
    (hreq : c.request = .replyFriend toUid accept message) (hd : d.Mirrored c.actorUid toUid) :
    (company c fails).Course (fun _ d' _ _ => d'.Mirrored c.actorUid toUid) (Service.process c) d none
      false := by
  have hp : c.peer = some toUid := by simp [Command.peer, hreq]
  have hF : Lasts (company c fails) fun d _ => d.Mirrored c.actorUid toUid :=
    fun _ _ _ hrely h => h.same (hrely toUid hp)
  refine process_course hF hd (fun _ _ _ _ _ h => h) fun d₁ h₁ => ?_
  simp only [Service.handle, hreq, Friends.reply]
  have hd₁ := hd.same (h₁ toUid hp)
  cases accept with
  | none => exact .pure hd₁
  | some accept =>
    refine .bind (generateId_leads hF (fun _ => hd₁) fun id d₂ h₂ => ?_)
    have hd₂ := hd₁.same (h₂ toUid hp)
    have hstore : (company c fails).Leads (Throws fun d _ => d.Mirrored c.actorUid toUid)
        (fun _ d' ws _ => ws = none ∧ d'.Mirrored c.actorUid toUid)
        (Friends.storeReply c toUid accept message) d₂ none false := by
      cases accept with
      | false => exact updateFriendApplyStatus_mirrored hp hd₂
      | true =>
        refine .bind (generateId_leads hF (fun _ => hd₂) fun f d₃ h₃ => ?_)
        have hd₃ := hd₂.same (h₃ toUid hp)
        refine .bind (generateId_leads hF (fun _ => hd₃) fun conversation d₄ h₄ => ?_)
        have hd₄ := hd₃.same (h₄ toUid hp)
        refine .bind (submit_leads hF (fun _ => hd₄) fun d₅ h₅ => ?_)
        have hd₅ := hd₄.same (h₅ toUid hp)
        refine insertFriend_leads hp hF hd₅ fun d₆ hthere hback _ _ => ?_
        refine updateFriendApplyStatus_mirrored hp ?_
        unfold Db.Mirrored
        rw [hthere, hback]
        exact hd₅
    refine .bind (hstore.mono (fun _ _ _ h => h) fun result d₃ ws k h => ?_)
    split
    · exact .pure h.2
    · exact .pure h.2

/-- Nobody applies to themselves, and an `add_friend` that has stored its first row does not fail. -/
def applying : PairRules where
  fails c committed := (∃ toUid message, c.request = .addFriend toUid message) → committed = false
  admits c _ := ∀ toUid message, c.request = .addFriend toUid message → c.actorUid ≠ toUid
  rest a b d := d.Mirrored a b
  spec c d o d' committed :=
    (∀ toUid message, c.request = .addFriend toUid message → Stored c toUid message d o d' committed) ∧
    ∀ toUid, c.peer = some toUid → d'.Mirrored c.actorUid toUid
  rest_swap h := h.symm
  rest_same hsame h := h.same hsame
  spec_same hp hsame h := by
    refine ⟨fun toUid message hreq => ?_, fun toUid hto => (h.2 toUid hto).same ?_⟩
    · obtain ⟨hsuccess, hfailure⟩ := h.1 toUid message hreq
      have : toUid = _ := Option.some.inj ((by simp [Command.peer, hreq] : _ = some toUid).symm.trans hp)
      subst this
      refine ⟨fun hok => ?_, fun herror => ⟨(hfailure herror).1.trans hsame, (hfailure herror).2⟩⟩
      rw [hsame.there, hsame.back]
      exact hsuccess hok
    · cases hto.symm.trans hp
      exact hsame
  spec_rest hp _ h := h.2 _ hp
  course := by
    intro c p d hp hadmits hrest
    rcases Command.peer_cases hp with ⟨message, hreq⟩ | ⟨accept, message, hreq⟩
    · refine (apply_course hreq (hadmits p message hreq) ?_ hrest).mono fun o d' _ k h => ⟨?_, ?_⟩
      · exact fun hfails => by cases hfails ⟨p, message, hreq⟩
      · intro toUid message' hreq'
        cases hreq.symm.trans hreq'
        exact h
      · intro toUid hto
        cases hto.symm.trans hp
        exact h.mirrored hrest
    · refine (reply_course hreq hrest).mono fun o d' _ k h => ⟨?_, ?_⟩
      · intro toUid message' hreq'
        cases hreq.symm.trans hreq'
      · intro toUid hto
        cases hto.symm.trans hp
        exact h

/-- Applications come in pairs, between users whose commands come one at a time. When an `add_friend` is
    answered with success both rows are there, with what it stored; when it is answered with an error it
    has committed nothing, and the rows are those it found. Where no command is at work on a pair there is
    a row for both users or for neither. -/
theorem applications_mirrored {d : Db} (hd : ∀ a b, d.Mirrored a b) {s : ServiceStore}
    (h : applying.ServesOrderly d s) :
    (∀ (ev : Event Command) (s' : ServiceStore) (i : ℕ) (σ σ' : Handling) (o : Outcome) (toUid : ℤ)
      (message : String), applying.Orderly s ev → s.step Service.process ev = some s' →
      s.sessions[i]? = some σ → σ.prog.over = false → σ.op.request = .addFriend toUid message →
      s'.sessions[i]? = some σ' → σ'.prog = .ret o →
      (o.response.error = .Success →
        s'.cur.db.friendApplys.get (σ.op.actorUid, toUid) = some (application message) ∧
        s'.cur.db.friendApplys.get (toUid, σ.op.actorUid) = some (application message)) ∧
      (o.response.error ≠ .Success → σ'.done = none ∧ ∃ v, s'.versions[σ'.began]? = some v ∧
        s'.cur.db.friendApplys.get (σ.op.actorUid, toUid) = v.db.friendApplys.get (σ.op.actorUid, toUid) ∧
        s'.cur.db.friendApplys.get (toUid, σ.op.actorUid) = v.db.friendApplys.get (toUid, σ.op.actorUid))) ∧
    ∀ a b, (∀ σ ∈ s.sessions, σ.op.Concerns a b → σ.prog.over = true) →
      ((s.cur.db.friendApplys.get (a, b)).isSome ↔ (s.cur.db.friendApplys.get (b, a)).isSome) := by
  refine ⟨fun ev s' i σ σ' o toUid message hok hstep hi hover hreq hi' ho => ?_, fun a b hquiet => ?_⟩
  · have hp : σ.op.peer = some toUid := by simp [Command.peer, hreq]
    obtain ⟨v, hv, -, hspec, -⟩ := h.answered hd hok hstep hi hover hp hi' ho
    obtain ⟨hsuccess, hfailure⟩ := hspec toUid message hreq
    refine ⟨hsuccess, fun herror => ?_⟩
    obtain ⟨hsame, hnothing⟩ := hfailure herror
    exact ⟨by simpa using hnothing, v, hv, hsame.there, hsame.back⟩
  · rw [Bool.eq_iff_iff.1 ((h.inOrder hd).resting a b hquiet)]

end mirrored

/-- User 2 asks user 1. -/
def asks : Command where
  actorUid := 2
  actorDeviceId := ""
  request := .addFriend 1 "hello"

set_option maxRecDepth 4000 in
theorem applications_mirrored_asked : let _ := Collation.binary
    ∃ s s' : ServiceStore, applying.ServesOrderly {} s ∧ s.step Service.process (.act 0 0) = some s' ∧
    s'.cur.db.friendApplys.get (2, 1) = some (application "hello") ∧
    s'.cur.db.friendApplys.get (1, 2) = some (application "hello") := by
  intro _
  obtain ⟨s₀, s, s', σ, σ', o, hbegin, hrun, hstep, hi, hover, hop, hi', ho, hok⟩ :
      ∃ (s₀ s s' : ServiceStore) (σ σ' : Handling) (o : Outcome),
        (Sys.init {}).step Service.process (.begin asks) = some s₀ ∧
        s₀.run Service.process [.act 0 1, .act 0 3, .act 0 0, .act 0 0] = some s ∧
        s.step Service.process (.act 0 0) = some s' ∧ s.sessions[0]? = some σ ∧ σ.prog.over = false ∧
        σ.op = asks ∧ s'.sessions[0]? = some σ' ∧ σ'.prog = .ret o ∧ o.response.error = .Success :=
    ⟨_, _, _, _, _, _, rfl, rfl, rfl, rfl, rfl, rfl, rfl, rfl, rfl⟩
  have hpath : applying.ServesOrderly {} s := by
    have hfirst : applying.Orderly (Sys.init {}) (.begin asks) := by
      refine fun p _ => ⟨?_, by simp [Sys.init]⟩
      rintro toUid message ⟨⟩
      decide
    exact (Path.here.next hfirst hbegin).run (by simp [PairRules.Orderly]) hrun
  obtain ⟨hanswer, -⟩ := applications_mirrored (d := {}) (fun _ _ => rfl) hpath
  obtain ⟨hsuccess, -⟩ := hanswer (.act 0 0) s' 0 σ σ' o 1 "hello" trivial hstep hi hover (by rw [hop]; rfl) hi' ho
  rw [hop] at hsuccess
  exact ⟨s, s', hpath, hstep, hsuccess hok⟩

set_option maxRecDepth 4000 in
/-- Who applies to themselves is told of an error, but the row stays. And when the connection fails between
    the two statements, there is a row for one user only. -/
theorem applications_half_stored :
    (∃ (s : ServiceStore) (σ : Handling) (o : Outcome), @Serves .binary {} s ∧ s.sessions = [σ] ∧
      σ.op = { asks with actorUid := 1 } ∧ σ.prog = .ret o ∧ o.response.error = .DependencyUnavailable ∧
      s.cur.db.friendApplys.get (1, 1) = some (application "hello")) ∧
    ∃ (s : ServiceStore) (σ : Handling) (o : Outcome), @Serves Collation.binary {} s ∧ s.sessions = [σ] ∧
      σ.op = asks ∧ σ.prog = .ret o ∧ o.response.error = .DependencyUnavailable ∧
      s.cur.db.friendApplys.get (2, 1) = some (application "hello") ∧
      s.cur.db.friendApplys.get (1, 2) = none := by
  let _ := Collation.binary
  refine ⟨⟨_, _, _, ⟨[.begin { asks with actorUid := 1 }, .act 0 1, .act 0 3, .act 0 0, .act 0 0, .act 0 0,
    .act 0 0], rfl⟩, rfl, rfl, rfl, rfl, rfl⟩, ?_⟩
  exact ⟨_, _, _, ⟨[.begin asks, .act 0 1, .act 0 3, .act 0 0, .act 0 0, .fault 0 "", .act 0 0], rfl⟩, rfl, rfl,
    rfl, rfl, rfl, rfl⟩

/-! ### The list of applications -/

/-- `v` has asked `u` with this message, and the application is still waiting. -/
def StillAsks (s : ServiceStore) (d : Db) (v u : ℤ) (message : String) : Prop :=
  (∃ τ ∈ s.sessions, τ.op.actorUid = v ∧ τ.op.request = .addFriend u message ∧
    ∃ o, τ.prog = .ret o ∧ o.response.error = .Success) ∧ Waiting d v u

/-- The list has one entry for each user who has asked `u` and waits, and no other. -/
structure ShowsSenders (s : ServiceStore) (d : Db) (u : ℤ) (applications : List (ℤ × ApplyStatus × String)) :
    Prop where
  once : (applications.map Prod.fst).Nodup
  exact : ∀ v status message,
    (v, status, message) ∈ applications ↔ StillAsks s d v u message ∧ status = .Wait

/-- `u` has no application of their own that waits, and nobody's waits for them. -/
structure Unasked (s : ServiceStore) (d : Db) (u : ℤ) : Prop where
  asking : ∀ v, ¬ Waiting d u v
  asked : ∀ v message, ¬ StillAsks s d v u message

/-- The entries for the rows of `u` that wait. -/
def entries (u : ℤ) (d : Db) : List (ℤ × ApplyStatus × String) :=
  (waitingApplys u d).map fun e => (e.1.1, e.2.status, e.2.content)

theorem mem_entries {d : Db} {u v : ℤ} {status : ApplyStatus} {message : String} :
    (v, status, message) ∈ entries u d ↔
      v = u ∧ status = .Wait ∧ ∃ b time, d.friendApplys.get (u, b) = some ⟨message, .Wait, time⟩ := by
  simp only [entries, waitingApplys, mem_map, mem_filter, decide_eq_true_eq, Prod.exists, mem_rows,
    Prod.mk.injEq]
  constructor
  · rintro ⟨a, b, ⟨content, status', time⟩, ⟨hrow, rfl, rfl⟩, rfl, rfl, rfl⟩
    exact ⟨rfl, rfl, b, time, hrow⟩
  · rintro ⟨rfl, rfl, b, time, hrow⟩
    exact ⟨v, b, _, ⟨hrow, rfl, rfl⟩, rfl, rfl, rfl⟩

section lists

variable [Collation]

/-- A list is read last, so it is that of the version the session has seen. -/
def Lists (V : Versions) (c : Command) (o : Outcome) (seen : ℕ) : Prop :=
  c.request = .pullFriendApplyList → o.response.error = .Success →
    ∃ v, V[seen]? = some v ∧ o.response.payload = .pullFriendApplyList (entries c.actorUid v.db)

theorem pullApplications_lists {V : Versions} {J : ℕ → Prop} {C : ℕ → Tx Key Write → Prop} (c : Command)
    {a : ℕ} {dn : Option ℕ} :
    Ensures V J C (fun o seen _ _ => Lists V c o seen) (Friends.pullApplications c) a none dn := by
  refine .bind (submit_ensures (.bind (.select fun t v _ hseen => ?_)))
  refine .pure (.pure fun _ _ => ⟨v, hseen.here, ?_⟩)
  split
  · rename_i hempty
    rw [entries, isEmpty_iff.1 hempty]
    rfl
  · rfl

theorem process_lists {V : Versions} {J : ℕ → Prop} (hJ : ∀ j, J j → ∃ x : Tx Key Write, Commits V j x)
    (c : Command) (b : ℕ) :
    wp V J (Works V c b) (fun o seen _ _ => Lists V c o seen) (Service.process c) b none none := by
  by_cases hreq : c.request = .pullFriendApplyList
  · refine Ensures.outcome (Ensures.bind (Ensures.ask fun n => ?_)) fun e a tx dn _ hok => ?_
    · split
      · exact .pure fun _ hok => by cases hok
      simp only [Service.handle, hreq]
      exact pullApplications_lists c
    · dsimp only at hok
      split at hok <;> cases hok
  · exact wp_mono (fun _ _ _ _ _ h => absurd h hreq) _ _ _ _ (fun _ _ _ h => h) (process_wp hJ c b)

/-- What a user is shown: their own rows that wait. -/
theorem Serves.lists {d : Db} {s : ServiceStore} (h : Serves d s) {σ : Handling} (hσ : σ ∈ s.sessions)
    {o : Outcome} (ho : σ.prog = .ret o) : Lists s.versions σ.op o σ.seen := by
  obtain ⟨evs, hrun⟩ := h
  have hcoherent := run_spec hrun fun c b => process_lists (fun _ => Made.commits) c b
  exact hcoherent.answer hσ ho

theorem Deed.application_stays {V : Versions} {t : ℕ} {d : Db} {ls : List (Lock Key)} {o : Operation}
    {ws : List Write} (h : Deed V t d ls o ws) {k : ℤ × ℤ} (hk : (d.friendApplys.get k).isSome) :
    ((applyAll ws d).friendApplys.get k).isSome := by
  rcases h.applications with hsame | ⟨-, -, data, k', -, -, -, hset⟩ | ⟨-, -, answer, k', -, -, -, hset⟩
  · rwa [hsame]
  all_goals
    rw [hset, get_set]
    split
    · rfl
    · exact hk

/-- Nobody asks themselves with success: the row would have to be stored twice. -/
theorem Serves.asks_other {d : Db} {s : ServiceStore} (h : Serves d s) {τ : Handling} (hτ : τ ∈ s.sessions) {u : ℤ}
    {message : String} (hreq : τ.op.request = .addFriend u message) {o : Outcome} (ho : τ.prog = .ret o)
    (hok : o.response.error = .Success) : τ.op.actorUid ≠ u := by
  rintro rfl
  obtain ⟨i, j, v, w, hij, -, hv, hrow, hw, hnone⟩ := (h.coherent.answer hτ ho).applied _ _ hreq hok
  have hstays := h.history.onwards (P := fun d => (d.friendApplys.get (τ.op.actorUid, τ.op.actorUid)).isSome)
    (fun _ _ _ _ _ _ _ _ hdeed => hdeed.application_stays) hij hv hw (by simp [hrow])
  simp [hnone] at hstays

/-- The application list shows who asked exactly where it is empty and rightly so: in the rows that it reads no
    application of the user is waiting, and none to the user. No list with an entry is right. -/
theorem application_list_shows_senders {d : Db} {s : ServiceStore} (h : Serves d s) {σ : Handling}
    (hσ : σ ∈ s.sessions) (hreq : σ.op.request = .pullFriendApplyList) {o : Outcome} (ho : σ.prog = .ret o)
    (hok : o.response.error = .Success) {v : Version Db Key} (hv : s.versions[σ.seen]? = some v) :
    ∃ applications, o.response.payload = .pullFriendApplyList applications ∧
      (ShowsSenders s v.db σ.op.actorUid applications ↔ Unasked s v.db σ.op.actorUid) ∧
      (Unasked s v.db σ.op.actorUid → applications = []) := by
  obtain ⟨w, hw, hpayload⟩ := h.lists hσ ho hreq hok
  cases hv.symm.trans hw
  have hempty : Unasked s v.db σ.op.actorUid → entries σ.op.actorUid v.db = [] := fun hunasked => by
    refine eq_nil_iff_forall_not_mem.2 ?_
    rintro ⟨u, status, message⟩ hmem
    obtain ⟨-, -, b, time, hrow⟩ := mem_entries.1 hmem
    exact hunasked.asking b ⟨_, hrow, rfl⟩
  refine ⟨_, hpayload, ⟨fun hshows => ?_, fun hunasked => ?_⟩, hempty⟩
  · -- an entry is in the reader's own name, and they would have asked themselves
    have hasking : ∀ u, ¬ Waiting v.db σ.op.actorUid u := by
      rintro u ⟨⟨content, _, time⟩, hrow, rfl⟩
      obtain ⟨⟨⟨τ, hτ, hself, hadd, r, hr, hsent⟩, -⟩, -⟩ :=
        (hshows.exact _ _ _).1 (mem_entries.2 ⟨rfl, rfl, u, time, hrow⟩)
      exact h.asks_other hτ hadd hr hsent hself
    refine ⟨hasking, fun u message hasks => ?_⟩
    obtain ⟨-, -, b, time, hrow⟩ := mem_entries.1 ((hshows.exact u .Wait message).2 ⟨hasks, rfl⟩)
    exact hasking b ⟨_, hrow, rfl⟩
  · rw [hempty hunasked]
    refine ⟨nodup_nil, fun u status message => ⟨by simp, fun hasks => ?_⟩⟩
    exact absurd hasks.1 (hunasked.asked u message)

end lists

/-- A user pulls their applications. -/
def pulls (uid : ℤ) : Command where
  actorUid := uid
  actorDeviceId := ""
  request := .pullFriendApplyList

/-- User 2 has asked user 1, who refuses and then pulls the list. -/
theorem application_list_shows_senders_answered : let _ := Collation.binary
    ∃ (s : ServiceStore) (σ : Handling) (o : Outcome) (v : Version Db Key), Serves {} s ∧
      s.sessions[2]? = some σ ∧ σ.op.actorUid = 1 ∧ σ.prog = .ret o ∧ s.versions[σ.seen]? = some v ∧
      (v.db.friendApplys.get (2, 1)).map FriendApply.status = some .Refuse ∧
      ∃ applications, o.response.payload = .pullFriendApplyList applications ∧
        ShowsSenders s v.db 1 applications := by
  intro _
  have heval : ((Sys.init {}).run Service.process (handled 0 asks [1, 3, 0, 0, 0] ++
      handled 1 { acceptance with request := .replyFriend 2 (some false) "" } [1, 4, 0, 0, 0] ++
      handled 2 (pulls 1) [1, 0, 0])).any (fun s : ServiceStore => s.sessions[2]?.any fun σ =>
        decide ((σ.op.actorUid = 1 ∧ σ.op.request = .pullFriendApplyList) ∧ answeredWith σ = some .Success) &&
        s.versions[σ.seen]?.any fun v =>
          decide ((v.db.friendApplys.get (2, 1)).map FriendApply.status = some .Refuse ∧
            v.db.friendApplys.has (fun _ row => decide (row.status = .Wait)) = false)) = true := by
    decide +kernel
  obtain ⟨s, hrun, hfacts⟩ := (Option.any_eq_true _ _).1 heval
  obtain ⟨σ, hσ, hfacts⟩ := (Option.any_eq_true _ _).1 hfacts
  obtain ⟨hpull, hfacts⟩ := Bool.and_eq_true_iff.1 hfacts
  obtain ⟨v, hv, hfacts⟩ := (Option.any_eq_true _ _).1 hfacts
  obtain ⟨⟨hactor, hreq⟩, hanswer⟩ := of_decide_eq_true hpull
  obtain ⟨hrefused, hnone⟩ := of_decide_eq_true hfacts
  obtain ⟨o, ho, hok⟩ := answeredWith_eq_some hanswer
  have hwait : ∀ a b, ¬ Waiting v.db a b := by
    rintro a b ⟨row, hrow, hwait⟩
    exact absurd hwait (of_decide_eq_false (has_eq_false.1 hnone _ row hrow))
  have hunasked : Unasked s v.db 1 := ⟨hwait 1, fun u message h => hwait u 1 h.2⟩
  obtain ⟨applications, hpayload, hshows, -⟩ :=
    application_list_shows_senders ⟨_, hrun⟩ (mem_of_getElem? hσ) hreq ho hok hv
  rw [hactor] at hshows
  exact ⟨s, σ, o, v, ⟨_, hrun⟩, hσ, hactor, ho, hv, hrefused, applications, hpayload, hshows.2 hunasked⟩

set_option maxRecDepth 4000 in
/-- User 2 has asked user 1. The list of user 1 says that user 1 has asked, and so does, of themselves, that
    of user 2. -/
theorem application_list_shows_reader : let _ := Collation.binary
    ∃ (s : ServiceStore) (σ τ : Handling) (o r : Outcome) (v : Version Db Key), Serves {} s ∧
      σ ∈ s.sessions ∧ σ.op = pulls 1 ∧ σ.prog = .ret o ∧ s.versions[σ.seen]? = some v ∧
      o.response.payload = .pullFriendApplyList [(1, .Wait, "hello")] ∧ StillAsks s v.db 2 1 "hello" ∧
      ¬ ShowsSenders s v.db 1 [(1, .Wait, "hello")] ∧
      τ ∈ s.sessions ∧ τ.op = pulls 2 ∧ τ.prog = .ret r ∧ s.versions[τ.seen]? = some v ∧
      r.response.payload = .pullFriendApplyList [(2, .Wait, "hello")] ∧
      ¬ ShowsSenders s v.db 2 [(2, .Wait, "hello")] := by
  intro _
  obtain ⟨s, ρ, σ, τ, q, o, r, v, hrun, hs, hop, hq, hsent, hop₁, ho, hv, hpayload, hop₂, hr, hv', hpayload',
      hrow⟩ :
      ∃ (s : ServiceStore) (ρ σ τ : Handling) (q o r : Outcome) (v : Version Db Key), Serves {} s ∧
        s.sessions = [ρ, σ, τ] ∧ ρ.op = asks ∧ ρ.prog = .ret q ∧ q.response.error = .Success ∧
        σ.op = pulls 1 ∧ σ.prog = .ret o ∧ s.versions[σ.seen]? = some v ∧
        o.response.payload = .pullFriendApplyList [(1, .Wait, "hello")] ∧
        τ.op = pulls 2 ∧ τ.prog = .ret r ∧ s.versions[τ.seen]? = some v ∧
        r.response.payload = .pullFriendApplyList [(2, .Wait, "hello")] ∧
        v.db.friendApplys.get (2, 1) = some (application "hello") :=
    ⟨_, _, _, _, _, _, _, _, ⟨[.begin asks, .act 0 1, .act 0 3, .act 0 0, .act 0 0, .act 0 0, .begin (pulls 1),
      .act 1 1, .act 1 0, .act 1 0, .begin (pulls 2), .act 2 1, .act 2 0, .act 2 0], rfl⟩, rfl, rfl, rfl, rfl, rfl, rfl,
      rfl, rfl, rfl, rfl, rfl, rfl, rfl⟩
  have hasks : StillAsks s v.db 2 1 "hello" :=
    ⟨⟨ρ, by simp [hs], by rw [hop]; rfl, by rw [hop]; rfl, q, hq, hsent⟩, _, hrow, rfl⟩
  refine ⟨s, σ, τ, o, r, v, hrun, by simp [hs], hop₁, ho, hv, hpayload, hasks, fun hshows => ?_, by simp [hs],
    hop₂, hr, hv', hpayload', fun hshows => ?_⟩
  · have := (hshows.exact 2 .Wait "hello").2 ⟨hasks, rfl⟩
    simp at this
  · -- nobody has asked user 2
    obtain ⟨⟨⟨ρ', hρ', -, hreq, -⟩, -⟩, -⟩ := (hshows.exact 2 .Wait "hello").1 (by simp)
    rw [hs] at hρ'
    rcases mem_cons.1 hρ' with rfl | hρ'
    · rw [hop] at hreq
      cases hreq
    rcases mem_cons.1 hρ' with rfl | hρ'
    · rw [hop₁] at hreq
      cases hreq
    rw [mem_singleton.1 hρ', hop₂] at hreq
    cases hreq

end Imm
