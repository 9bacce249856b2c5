import Imm.Transaction.Applications
import Imm.Transaction.Undisturbed

/-! Whether friendships and applications agree. An accepting reply stores the friendship in a transaction and
    marks the two applications by two statements after it:

        insert_friend ── COMMIT ──▶ UPDATE (a, b) ──▶ UPDATE (b, a) ──▶ Success
              │                         │                 │
              ▼                         ▼                 ▼
        nothing stored            friends, and the applications still wait

    After a failure on the right the reply cannot be repeated: the friendship is there, and storing it again
    violates its key. A reply looks at nothing before it writes, so one that comes late makes the tables
    disagree as well: a refusal between friends, an acceptance of somebody who has one application row.
    Between users whose commands come one at a time, where replies are given to strangers and an accepting
    reply does not fail once the friendship is stored, the tables agree and a failed reply can be repeated. -/

namespace Imm

open Txn SQL MysqlStore Steps Table

/-- The application row says that it was agreed to. -/
def Agreed (d : Db) (a b : ℤ) : Prop := ∃ row, d.friendApplys.get (a, b) = some row ∧ row.status = .Agree

/-- There is an application between the two. -/
def Db.HasApplication (d : Db) (a b : ℤ) : Prop :=
  (d.friendApplys.get (a, b)).isSome = true ∨ (d.friendApplys.get (b, a)).isSome = true

/-- If there are applications between two users, they are friends just when both rows say so. -/
def Db.Agree (d : Db) (a b : ℤ) : Prop :=
  d.HasApplication a b → (¬ d.Strangers (min a b) (max a b) ↔ Agreed d a b ∧ Agreed d b a)

/-- Neither the friendship nor the applications say that the two are friends. -/
structure Db.Unrelated (d : Db) (a b : ℤ) : Prop where
  strangers : d.Strangers (min a b) (max a b)
  notBoth : ¬ (Agreed d a b ∧ Agreed d b a)

section tables

variable {d d' : Db} {a b : ℤ}

theorem Agreed.hasApplication (h : Agreed d a b) : d.HasApplication a b := by
  obtain ⟨row, hrow, -⟩ := h
  exact .inl (by rw [hrow]; rfl)

theorem Db.Agree.swap (h : d.Agree a b) : d.Agree b a := by
  intro hrow
  rw [min_comm, max_comm, h hrow.symm, and_comm]

theorem Db.Agree.same (h : d.Agree a b) (hsame : d.SamePair d' a b) : d'.Agree a b := by
  unfold Db.Agree Db.HasApplication Agreed
  rw [hsame.there, hsame.back, hsame.friends]
  exact h

theorem Db.Unrelated.same (h : d.Unrelated a b) (hsame : d.SamePair d' a b) : d'.Unrelated a b := by
  refine ⟨hsame.friends.2 h.strangers, ?_⟩
  unfold Agreed
  rw [hsame.there, hsame.back]
  exact h.notBoth

theorem Db.Unrelated.agree (h : d.Unrelated a b) : d.Agree a b :=
  fun _ => ⟨fun hfriends => absurd h.strangers hfriends, fun hagreed => absurd hagreed h.notBoth⟩

theorem Db.Agree.unrelated (h : d.Agree a b) (hstrangers : d.Strangers (min a b) (max a b)) :
    d.Unrelated a b :=
  ⟨hstrangers, fun hagreed => (h hagreed.1.hasApplication).2 hagreed hstrangers⟩

variable [Collation]

theorem Db.Unrelated.write (h : d.Unrelated a b) {k : ℤ × ℤ} {row : FriendApply} (hk : k = (a, b) ∨ k = (b, a))
    (hrow : row.status ≠ .Agree) : (applyAll [Write.friendApplys k (some row)] d).Unrelated a b := by
  refine ⟨h.strangers, ?_⟩
  rintro ⟨⟨x, hx, hxagree⟩, y, hy, hyagree⟩
  simp only [applyAll_cons, applyAll_nil, rows_apply, Write.apply] at hx hy
  rcases hk with rfl | rfl
  · rw [get_set_self] at hx
    cases hx
    exact hrow hxagree
  rw [get_set_self] at hy
  cases hy
  exact hrow hyagree

end tables

variable [Collation]

/-! ### The commands -/

section courses

variable {c : Command} {toUid : ℤ} {message : String} {fails : Bool → Prop} {d : Db}

/-- What an `add_friend` keeps: `P` until it has stored its first row, then `R`. -/
theorem apply_keeps {P R : Db → Prop} (hreq : c.request = .addFriend toUid message)
    (hP : Lasts (company c fails) fun d _ => P d) (hR : Lasts (company c fails) fun d _ => R d)
    (hfirst : ∀ {d n} {e : Effect Key Write Unit}, P d →
      SQL.insertFriendApply c.actorUid toUid ⟨message, .Wait, ""⟩ n d = .ok e → R (applyAll e.writes d))
    (hsecond : ∀ {d n} {e : Effect Key Write Unit}, R d →
      SQL.insertFriendApply toUid c.actorUid ⟨message, .Wait, ""⟩ n d = .ok e → R (applyAll e.writes d))
    (hd : P d) :
    (company c fails).Course (fun _ d' _ _ => P d' ∨ R d') (Service.process c) d none false := by
  have hF : Lasts (company c fails) fun d _ => P d ∨ R d := by
    rintro d₁ d₂ k hrely (h | h)
    · exact .inl (hP.on (k := k) hrely h)
    · exact .inr (hR.on (k := k) hrely h)
  refine process_course hF (.inl hd) (fun _ _ _ _ _ h => h) fun d₁ h₁ => ?_
  have hd₁ := hP.on (k := false) h₁ hd
  simp only [Service.handle, hreq]
  refine .bind (generateId_leads hF (fun _ => .inl hd₁) fun id d₂ h₂ => ?_)
  have hd₂ := hP.on (k := false) h₂ hd₁
  refine .bind (submit_leads hF (fun _ => .inl hd₂) fun d₃ h₃ => ?_)
  have hd₃ := hP.on (k := false) h₃ hd₂
  refine .bind (.exec_auto fun d₄ h₄ => ?_)
  have hd₄ := hP.on (k := false) h₄ hd₃
  refine ⟨fun n _ => ⟨fun e hs => ?_, fun _ _ => .inl hd₄⟩, fun _ => .inl hd₄⟩
  refine .bind (.exec_auto fun d₅ h₅ => ?_)
  have hd₅ := hR.on (k := true) h₅ (hfirst hd₄ hs)
  refine ⟨fun m _ => ⟨fun e' hs' => ?_, fun _ _ => .inr hd₅⟩, fun _ => .inr hd₅⟩
  refine .pure ?_
  split
  · exact .pure (.inr (hsecond hd₅ hs'))
  · exact .pure (.inr (hsecond hd₅ hs'))

/-- An `add_friend` stores applications of strangers, or finds one that is there already. -/
theorem apply_agrees (hreq : c.request = .addFriend toUid message) (hd : d.Agree c.actorUid toUid)
    (hadmits : d.Strangers (min c.actorUid toUid) (max c.actorUid toUid) ∨
      (d.friendApplys.get (c.actorUid, toUid)).isSome = true) :
    (company c fails).Course (fun _ d' _ _ => d'.Agree c.actorUid toUid) (Service.process c) d none false := by
  have hp : c.peer = some toUid := by simp [Command.peer, hreq]
  rcases hadmits with hstrangers | htaken
  · have hlasts : Lasts (company c fails) fun d _ => d.Unrelated c.actorUid toUid :=
      fun _ _ _ hrely h => h.same (hrely toUid hp)
    refine (apply_keeps hreq hlasts hlasts ?_ ?_ (hd.unrelated hstrangers)).mono fun _ d' _ _ h => ?_
    · intro d n e h hs
      obtain ⟨-, rfl⟩ := insertFriendApply_ok hs
      exact h.write (.inl rfl) (by rintro ⟨⟩)
    · intro d n e h hs
      obtain ⟨-, rfl⟩ := insertFriendApply_ok hs
      exact h.write (.inr rfl) (by rintro ⟨⟩)
    · exact (h.elim id id).agree
  · refine (apply_keeps (P := fun d' => d.SamePair d' c.actorUid toUid) (R := fun _ => False) hreq
      (fun _ _ _ hrely h => h.trans (hrely toUid hp)) (fun _ _ _ _ => id) ?_ ?_ (.refl _ _ _)).mono
      fun _ d' _ _ h => hd.same (h.resolve_right id)
    · intro d₁ n e h hs
      obtain ⟨hnone, -⟩ := insertFriendApply_ok hs
      rw [← h.there, hnone] at htaken
      cases htaken
    · exact fun h => h.elim

theorem refuse_unrelated (hreq : c.request = .replyFriend toUid (some false) message)
    (hd : d.Unrelated c.actorUid toUid) :
    (company c fails).Course (fun _ d' _ _ => d'.Unrelated c.actorUid toUid) (Service.process c) d none
      false := by
  have hp : c.peer = some toUid := by simp [Command.peer, hreq]
  have hF : Lasts (company c fails) fun d _ => d.Unrelated c.actorUid toUid :=
    fun _ _ _ hrely h => h.same (hrely toUid hp)
  refine process_course hF hd (fun _ _ _ _ _ h => h) fun d₁ h₁ => ?_
  simp only [Service.handle, hreq, Friends.reply]
  have hd₁ := hF.on (k := false) h₁ hd
  refine .bind (generateId_leads hF (fun _ => hd₁) fun id d₂ h₂ => ?_)
  have hd₂ := hF.on (k := false) h₂ hd₁
  refine .bind ((updateFriendApplyStatus_keeps hF ?_ hd₂).mono (fun _ _ _ h => h) ?_)
  · intro d' x y n e hpair h hs
    have hk : (x, y) = (c.actorUid, toUid) ∨ (x, y) = (toUid, c.actorUid) := by simpa using hpair
    rcases updateFriendApply_ok hs with ⟨-, rfl⟩ | ⟨old, -, rfl⟩
    · exact h
    · exact h.write hk (by simp [FriendApply.stored])
  · intro result d₃ ws k h
    split
    · exact .pure h.2
    · exact .pure h.2

omit [Collation] in
theorem updateFriendApply_effect {a b : ℤ} {row : FriendApply} {n : ℕ} {e : Effect Key Write Unit}
    (h : SQL.updateFriendApply a b row n d = .ok e) (hrow : (d.friendApplys.get (a, b)).isSome = true) :
    e = { reply := (), writes := [.friendApplys (a, b) (some row.stored)] } := by
  rcases updateFriendApply_ok h with ⟨hnone, -⟩ | ⟨-, -, rfl⟩
  · rw [hnone] at hrow
    cases hrow
  · rfl

/-- What holds when an accepting reply is answered. -/
structure Joined (c : Command) (toUid : ℤ) (d : Db) (o : Outcome) (d' : Db) : Prop where
  success : o.response.error = .Success → ¬ d'.Strangers (min c.actorUid toUid) (max c.actorUid toUid) ∧
    (d'.HasApplication c.actorUid toUid → Agreed d' c.actorUid toUid ∧ Agreed d' toUid c.actorUid)
  failure : o.response.error ≠ .Success → d.SamePair d' c.actorUid toUid

/-- Once they are friends, the applications are marked if nothing fails. -/
theorem agree_leads (data : FriendApply) {p : ℤ} {F : Db → Bool → Prop} (hp : c.peer = some p)
    (hF : Lasts (company c fails) F) (hfails : ¬ fails true) (hfits : data.stored.content.length ≤ 512)
    (hagree : data.status = .Agree) (hfriends : ¬ d.Strangers (min c.actorUid p) (max c.actorUid p))
    (hmirrored : d.Mirrored c.actorUid p) :
    (company c fails).Leads (Throws F)
      (fun r d' _ _ => r = 0 ∧ ¬ d'.Strangers (min c.actorUid p) (max c.actorUid p) ∧
        (d'.HasApplication c.actorUid p → Agreed d' c.actorUid p ∧ Agreed d' p c.actorUid))
      (submit (MysqlStore.updateFriendApplyStatus c.actorUid p data)) d none true := by
  refine submit_leads hF (fun hf => absurd hf hfails) fun d₁ h₁ => ?_
  refine .bind (.exec_auto fun d₂ h₂ =>
    ⟨fun n _ => ⟨fun e hs => ?_, fun e hs => ?_⟩, fun hf => absurd hf hfails⟩)
  · have hsame := (h₁ p hp).trans (h₂ p hp)
    refine .bind (.exec_auto fun d₃ h₃ =>
      ⟨fun m _ => ⟨fun e' hs' => .pure ?_, fun e' hs' => ?_⟩, fun hf => absurd hf hfails⟩)
    · have hsame' := h₃ p hp
      refine ⟨rfl, fun hstrangers => hfriends (hsame.friends.1 ?_), fun hrows => ?_⟩
      · rcases updateFriendApply_ok hs with ⟨-, rfl⟩ | ⟨-, -, rfl⟩ <;>
          rcases updateFriendApply_ok hs' with ⟨-, rfl⟩ | ⟨-, -, rfl⟩ <;> exact hsame'.friends.1 hstrangers
      · -- the rows were there from the beginning, both of them
        have hthere : (d₂.friendApplys.get (c.actorUid, p)).isSome = true := by
          rw [hsame.there]
          unfold Db.HasApplication at hrows
          rw [updateFriendApply_isSome hs', updateFriendApply_isSome hs', hsame'.there, hsame'.back,
            updateFriendApply_isSome hs, updateFriendApply_isSome hs, hsame.there, hsame.back] at hrows
          exact hrows.elim id fun hback => hmirrored.trans hback
        have hback : (d₃.friendApplys.get (p, c.actorUid)).isSome = true := by
          rw [hsame'.back, updateFriendApply_isSome hs, ← (hmirrored.same hsame), hthere]
        obtain rfl := updateFriendApply_effect hs hthere
        obtain rfl := updateFriendApply_effect hs' hback
        refine ⟨⟨data.stored, ?_, hagree⟩, ⟨data.stored, get_set_self _ _ _, hagree⟩⟩
        simp only [applyAll_cons, applyAll_nil, rows_apply, Write.apply]
        rw [get_set]
        split
        · rfl
        rw [hsame'.there]
        exact get_set_self _ _ _
    · obtain ⟨e₀, he₀⟩ := updateFriendApply_fits p c.actorUid m d₃ hfits
      rw [he₀] at hs'
      cases hs'
  · obtain ⟨e₀, he₀⟩ := updateFriendApply_fits c.actorUid p n d₂ hfits
    rw [he₀] at hs
    cases hs

theorem accept_joins (hreq : c.request = .replyFriend toUid (some true) message) (hfails : ¬ fails true)
    (hfits : (varchar 512 message).length ≤ 512) (hmirrored : d.Mirrored c.actorUid toUid) :
    (company c fails).Course (fun o d' _ _ => Joined c toUid d o d') (Service.process c) d none false := by
  have hp : c.peer = some toUid := by simp [Command.peer, hreq]
  have hF : Lasts (company c fails) fun d' _ => d.SamePair d' c.actorUid toUid :=
    fun _ _ _ hrely h => h.trans (hrely toUid hp)
  refine process_course hF (.refl _ _ _)
    (fun o d' _ k herror h => ⟨fun hok => absurd hok herror, fun _ => h⟩) fun d₁ h₁ => ?_
  simp only [Service.handle, hreq, Friends.reply, Friends.storeReply, if_true]
  have hd₁ := h₁ toUid hp
  refine .bind (generateId_leads hF (fun _ => hd₁) fun id d₂ h₂ => ?_)
  have hd₂ := hd₁.trans (h₂ toUid hp)
  refine .bind (.bind (generateId_leads hF (fun _ => hd₂) fun f d₃ h₃ => ?_))
  have hd₃ := hd₂.trans (h₃ toUid hp)
  refine .bind (generateId_leads hF (fun _ => hd₃) fun conversation d₄ h₄ => ?_)
  have hd₄ := hd₃.trans (h₄ toUid hp)
  refine .bind (submit_leads hF (fun _ => hd₄) fun d₅ h₅ => ?_)
  have hd₅ := hd₄.trans (h₅ toUid hp)
  refine insertFriend_leads hp hF hd₅ fun d₆ hthere hback _ hfriends => ?_
  have hmirrored₆ : d₆.Mirrored c.actorUid toUid := by
    unfold Db.Mirrored
    rw [hthere, hback]
    exact hmirrored.same hd₅
  refine (agree_leads ⟨message, .Agree, c.clock 0⟩ hp hF hfails hfits rfl hfriends hmirrored₆).mono
    (fun _ _ _ h => h) ?_
  rintro _ d₇ ws k ⟨rfl, hjoined⟩
  exact .pure ⟨fun _ => hjoined, fun herror => absurd rfl herror⟩

end courses

/-! ### The replies of strangers -/

/-- The reply may be given: the two are strangers, and the rows of an application that is accepted are both
    there or both missing. -/
def Answerable (c : Command) (d : Db) : Prop :=
  ∀ toUid accept message, c.request = .replyFriend toUid accept message →
    d.Strangers (min c.actorUid toUid) (max c.actorUid toUid) ∧ (varchar 512 message).length ≤ 512 ∧
    (accept = some false ∨ accept = some true ∧ 0 ≤ c.actorUid ∧ 0 ≤ toUid ∧ c.actorUid ≠ toUid ∧
      d.Mirrored c.actorUid toUid)

/-- The application may be sent: the two are strangers, or it is there already. -/
def Applicable (c : Command) (d : Db) : Prop :=
  ∀ toUid message, c.request = .addFriend toUid message →
    d.Strangers (min c.actorUid toUid) (max c.actorUid toUid) ∨
      (d.friendApplys.get (c.actorUid, toUid)).isSome = true

omit [Collation] in
theorem Answerable.same {c : Command} {d d' : Db} {p : ℤ} (h : Answerable c d) (hp : c.peer = some p)
    (hsame : d.SamePair d' c.actorUid p) : Answerable c d' := by
  intro toUid accept message hreq
  obtain rfl : toUid = p := by simpa [Command.peer, hreq] using hp
  obtain ⟨hstrangers, hfits, haccept⟩ := h toUid accept message hreq
  refine ⟨hsame.friends.2 hstrangers, hfits, haccept.imp_right ?_⟩
  rintro ⟨hsome, hactor, hto, hne, hmirrored⟩
  exact ⟨hsome, hactor, hto, hne, hmirrored.same hsame⟩

/-- An answerable reply that is handled alone succeeds. -/
theorem Answerable.succeeds {c : Command} {d : Db} {toUid : ℤ} {accept : Option Bool} {message : String}
    (h : Answerable c d) (hreq : c.request = .replyFriend toUid accept message) :
    (Setting.alone Unused).Course (fun o _ _ _ => o.response.error = .Success) (Service.process c) d none
      false := by
  obtain ⟨hstrangers, hfits, haccept⟩ := h toUid accept message hreq
  have hshort : ¬ d.Overlong c.actorUid toUid message := fun h => absurd hfits (not_le.2 h.1)
  refine process_safe ?_
  simp only [Service.handle, hreq]
  rcases haccept with rfl | ⟨rfl, hactor, hto, hne, -⟩
  · exact (reply_safe (by simp) fun h => absurd h hshort).imp fun _ _ _ h => h.2.1
  exact (reply_safe (fun _ h => absurd ⟨hactor, hto, hne, hstrangers⟩ h) fun h => absurd h hshort).imp
    fun _ _ _ h => h.2.1

/-- Replies are given to strangers, and an accepting reply that has stored the friendship does not fail. -/
def befriending : PairRules where
  fails c committed := (∃ toUid message, c.request = .replyFriend toUid (some true) message) → committed = false
  admits c d := Applicable c d ∧ Answerable c d
  rest a b d := d.Agree a b
  spec c _ o d' _ := ∀ toUid, c.peer = some toUid → d'.Agree c.actorUid toUid ∧
    (o.response.error ≠ .Success → Answerable c d')
  rest_swap h := h.swap
  rest_same hsame h := h.same hsame
  spec_same hp hsame h := by
    intro toUid hto
    cases hp.symm.trans hto
    exact ⟨(h _ hp).1.same hsame, fun herror => ((h _ hp).2 herror).same hp hsame⟩
  spec_rest hp _ h := (h _ hp).1
  course := by
    intro c p d hp ⟨happlicable, hanswerable⟩ hrest
    -- it is enough to show it for the one peer
    have hone {o : Outcome} {d' : Db} (h : d'.Agree c.actorUid p ∧ (o.response.error ≠ .Success → Answerable c d'))
        (toUid : ℤ) (hto : c.peer = some toUid) :
        d'.Agree c.actorUid toUid ∧ (o.response.error ≠ .Success → Answerable c d') := by
      cases hp.symm.trans hto
      exact h
    rcases Command.peer_cases hp with ⟨message, hreq⟩ | ⟨accept, message, hreq⟩
    · refine (apply_agrees hreq hrest (happlicable p message hreq)).mono fun o d' _ _ h => hone ⟨h, fun _ => ?_⟩
      intro toUid accept message' hreq'
      cases hreq.symm.trans hreq'
    · obtain ⟨hstrangers, hfits, rfl | ⟨rfl, hactor, hto, hne, hmirrored⟩⟩ := hanswerable p accept message hreq
      · refine (refuse_unrelated hreq (hrest.unrelated hstrangers)).mono fun o d' _ _ h =>
          hone ⟨h.agree, fun _ => ?_⟩
        intro toUid accept message' hreq'
        cases hreq.symm.trans hreq'
        exact ⟨h.strangers, hfits, .inl rfl⟩
      · refine (accept_joins hreq ?_ hfits hmirrored).mono fun o d' _ _ h => hone ⟨?_, fun herror => ?_⟩
        · exact fun hfails => by cases hfails ⟨p, message, hreq⟩
        · by_cases hok : o.response.error = .Success
          · obtain ⟨hfriends, hrows⟩ := h.success hok
            exact fun hrow => ⟨fun _ => hrows hrow, fun _ => hfriends⟩
          · exact hrest.same (h.failure hok)
        · exact hanswerable.same hp (h.failure herror)

/-- Friendship and application status agree, between users whose commands come one at a time and where replies
    are given to strangers: wherever no command is at work on a pair that has applications, the two are friends
    just when both rows say that it was agreed. A reply that is answered with an error may be given again; and
    whenever a reply may be given, at once or later, it is answered with success if it is handled alone. -/
theorem friendships_agree {d : Db} (hd : ∀ a b, d.Agree a b) {s : ServiceStore}
    (h : befriending.ServesOrderly d s) :
    (∀ a b, (∀ σ ∈ s.sessions, σ.op.Concerns a b → σ.prog.over = true) → s.cur.db.HasApplication a b →
      (¬ s.cur.db.Strangers (min a b) (max a b) ↔ Agreed s.cur.db a b ∧ Agreed s.cur.db b a)) ∧
    (∀ (ev : Event Command) (s' : ServiceStore) (i : ℕ) (σ σ' : Handling) (o : Outcome) (toUid : ℤ)
      (accept : Option Bool) (message : String), befriending.Orderly s ev →
      s.step Service.process ev = some s' → s.sessions[i]? = some σ → σ.prog.over = false →
      σ.op.request = .replyFriend toUid accept message → s'.sessions[i]? = some σ' → σ'.prog = .ret o →
      o.response.error ≠ .Success → befriending.Orderly s' (.begin σ.op)) ∧
    ∀ (c : Command) (toUid : ℤ) (accept : Option Bool) (message : String),
      c.request = .replyFriend toUid accept message → befriending.Orderly s (.begin c) →
      (∀ s'' r, HandledAlone Unused s c s'' r → r.response.error = .Success) ∧
      ((∀ τ ∈ s.sessions, τ.locks = []) → ∃ s'' r, HandledAlone Unused s c s'' r) := by
  refine ⟨fun a b hquiet => (h.inOrder hd).resting a b hquiet, ?_, fun c toUid accept message hreq hok => ?_⟩
  · intro ev s' i σ σ' o toUid accept message hok hstep hi hover hreq hi' ho herror p hp'
    have hp : σ.op.peer = some toUid := by simp [Command.peer, hreq]
    obtain ⟨v, -, -, hspec⟩ := h.answered hd hok hstep hi hover hp hi' ho
    refine ⟨⟨fun _ _ hadd => ?_, (hspec toUid hp).2 herror⟩, ?_⟩
    · cases hreq.symm.trans hadd
    · cases hp.symm.trans hp'
      exact h.quiet hd hok hstep hi hover hp hi' ho
  · have hcourse := (hok toUid (by simp [Command.peer, hreq])).1.2.succeeds hreq
    refine ⟨fun s'' r halone => ?_, exists_handledAlone hcourse⟩
    obtain ⟨-, -, -, -, hsuccess⟩ := halone.answer hcourse
    exact hsuccess

omit [Collation]

set_option maxRecDepth 4000 in
/-- User 2 asks, and the first acceptance of user 1 fails before anything is stored. -/
theorem friendships_agree_again : let _ := Collation.binary
    ∃ s s' s'' : ServiceStore, befriending.ServesOrderly {} s ∧ s.step Service.process (.fault 1 "") = some s' ∧
      ∃ r, HandledAlone Unused s' acceptance s'' r ∧ r.response.error = .Success := by
  intro _
  obtain ⟨s₀, s₁, s₂, s, s', ρ, σ, σ', o, hbegin, hasked, hρ, hover, hfriends, hrow, hrow', hstart, hact, hstep,
      hi, hop, hσ, hnothing, hsessions, hi', ho, herror, hlocks⟩ :
      ∃ (s₀ s₁ s₂ s s' : ServiceStore) (ρ σ σ' : Handling) (o : Outcome),
        (Sys.init {}).step Service.process (.begin asks) = some s₀ ∧
        s₀.run Service.process [.act 0 1, .act 0 3, .act 0 0, .act 0 0, .act 0 0] = some s₁ ∧
        s₁.sessions = [ρ] ∧ ρ.prog.over = true ∧ s₁.cur.db.friends = ∅ ∧
        s₁.cur.db.friendApplys.get (1, 2) = some (application "hello") ∧
        s₁.cur.db.friendApplys.get (2, 1) = some (application "hello") ∧
        s₁.step Service.process (.begin acceptance) = some s₂ ∧
        s₂.step Service.process (.act 1 1) = some s ∧ s.step Service.process (.fault 1 "") = some s' ∧
        s.sessions[1]? = some σ ∧ σ.op = acceptance ∧ σ.prog.over = false ∧ σ.done = none ∧
        s'.sessions = [ρ, σ'] ∧ s'.sessions[1]? = some σ' ∧ σ'.prog = .ret o ∧ o.response.error ≠ .Success ∧
        ρ.locks = [] ∧ σ'.locks = [] :=
    ⟨_, _, _, _, _, _, _, _, _, rfl, rfl, rfl, rfl, rfl, rfl, rfl, rfl, rfl, rfl, rfl, rfl, rfl, rfl, rfl, rfl, rfl,
      by rintro ⟨⟩, rfl, rfl⟩
  have hfirst : befriending.Orderly (Sys.init {}) (.begin asks) :=
    fun p _ => ⟨⟨fun _ _ _ => .inl (by simp [Sys.init, Db.Strangers]), by rintro _ _ _ ⟨⟩⟩, by simp [Sys.init]⟩
  have hturn : befriending.Orderly s₁ (.begin acceptance) := by
    refine fun p _ => ⟨⟨by rintro _ _ ⟨⟩, ?_⟩, by simp [hρ, hover]⟩
    rintro toUid accept message ⟨⟩
    refine ⟨by simp [Db.Strangers, hfriends], by decide, .inr ⟨rfl, by decide, by decide, by decide, ?_⟩⟩
    simp [Db.Mirrored, acceptance, hrow, hrow']
  have hgoes : befriending.Orderly s₂ (.act 1 1) := trivial
  have hpath : befriending.ServesOrderly {} s :=
    (((Path.here.next hfirst hbegin).run (by simp [PairRules.Orderly]) hasked).next hturn hstart).next hgoes hact
  have hfault : befriending.Orderly s (.fault 1 "") := by
    intro τ hτ _ _
    cases hi.symm.trans hτ
    rw [hnothing]
    rfl
  have hagree : ∀ a b, ({} : Db).Agree a b := fun a b hrow => by simp [Db.HasApplication] at hrow
  have hreq : σ.op.request = .replyFriend 2 (some true) "" := by rw [hop]; rfl
  have hretry := (friendships_agree hagree hpath).2.1 (.fault 1 "") s' 1 σ σ' o 2 (some true) "" hfault hstep hi hσ
    hreq hi' ho herror
  obtain ⟨hsucceeds, hexists⟩ := (friendships_agree hagree (hpath.next hfault hstep)).2.2 σ.op 2 _ _ hreq hretry
  obtain ⟨s'', r, halone⟩ := hexists (by simp [hsessions, hlocks])
  exact ⟨s, s', s'', hpath, hstep, r, hop ▸ halone, hsucceeds s'' r halone⟩

set_option maxRecDepth 4000 in
/-- User 2 has asked user 1, and user 1 accepts. The connection fails when the friendship has been stored: the
    two are friends, and the applications still wait. The same reply fails again although nothing else does. -/
theorem friendships_disagree : let _ := Collation.binary
    ∃ (s s' : ServiceStore) (σ : Handling) (r : Outcome), Serves {} s ∧ (∀ τ ∈ s.sessions, τ.prog.over = true) ∧
      s.cur.db.HasApplication 1 2 ∧ ¬ s.cur.db.Strangers 1 2 ∧ ¬ (Agreed s.cur.db 1 2 ∧ Agreed s.cur.db 2 1) ∧
      s.run Service.process (handled 2 acceptance [1, 20, 21, 22, 0, 0, 0, 0, 0]) = some s' ∧
      s'.sessions[2]? = some σ ∧ σ.prog = .ret r ∧ r.response.error = .DependencyUnavailable := by
  intro _
  have heval : ((Sys.init {}).run Service.process ([.begin asks, .act 0 1, .act 0 3, .act 0 0, .act 0 0, .act 0 0] ++
      accepting ++ [.fault 1 ""])).any (fun s : ServiceStore =>
        decide ((∀ τ ∈ s.sessions, τ.prog.over = true) ∧ s.cur.db.friends.get 7 = some ⟨1, 2, ""⟩ ∧
          s.cur.db.friendApplys.get (1, 2) = some (application "hello")) &&
        (s.run Service.process (handled 2 acceptance [1, 20, 21, 22, 0, 0, 0, 0, 0])).any fun s' =>
          decide (s'.sessions[2]?.bind answeredWith = some .DependencyUnavailable)) = true := by
    decide +kernel
  obtain ⟨s, hrun, hfacts⟩ := (Option.any_eq_true _ _).1 heval
  obtain ⟨hfacts, hagain⟩ := Bool.and_eq_true_iff.1 hfacts
  obtain ⟨hover, hfriend, hrow⟩ := of_decide_eq_true hfacts
  obtain ⟨s', hrun', hanswer⟩ := (Option.any_eq_true _ _).1 hagain
  obtain ⟨σ, hσ, hanswer⟩ := Option.bind_eq_some_iff.1 (of_decide_eq_true hanswer)
  obtain ⟨r, hr, herror⟩ := answeredWith_eq_some hanswer
  refine ⟨s, s', σ, r, ⟨_, hrun⟩, hover, .inl (by rw [hrow]; rfl), fun hstrangers => ?_, ?_, hrun', hσ, hr, herror⟩
  · exact hstrangers 7 _ hfriend ⟨rfl, rfl⟩
  · rintro ⟨⟨row, hrow', hagree⟩, -⟩
    cases hrow.symm.trans hrow'
    cases hagree

end Imm
