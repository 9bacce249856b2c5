import Imm.Schemes.Course
import Imm.Transaction.Consent

/-! The friend commands of two users, one at a time. What an `add_friend` or a `reply_friend` finds and
    writes are the two application rows of a pair and its friendship. As long as no two commands are at
    work on one pair, nobody else changes these while a command runs, and it can be told what it does to
    them from what it found:

        at rest ── begin ──▶ at work ── answer ──▶ at rest
                             (others leave the pair alone)

    `PairRules` are such promises about the commands, with what is true of a pair at rest. They are kept
    over whole runs (`ServesOrderly.inOrder`). -/

namespace Imm

open Txn SQL MysqlStore Steps List Table Sys

/-- The other user of a friend command. -/
def Command.peer (c : Command) : Option ℤ :=
  match c.request with
  | .addFriend toUid _ => some toUid
  | .replyFriend toUid _ _ => some toUid
  | _ => none

variable {c : Command} {V : Versions} {t : ℕ}

theorem Command.peer_cases {p : ℤ} (h : c.peer = some p) :
    (∃ message, c.request = .addFriend p message) ∨
      ∃ accept message, c.request = .replyFriend p accept message := by
  unfold peer at h
  split at h
  · rename_i message hreq
    cases h
    exact .inl ⟨message, hreq⟩
  · rename_i accept message hreq
    cases h
    exact .inr ⟨accept, message, hreq⟩
  · cases h

/-- The command is about `a` and `b`, whoever of them sends it. -/
def Command.Concerns (c : Command) (a b : ℤ) : Prop :=
  ∃ p, c.peer = some p ∧ ((c.actorUid = a ∧ p = b) ∨ (c.actorUid = b ∧ p = a))

theorem Command.concerns_peer {p : ℤ} (h : c.peer = some p) : c.Concerns c.actorUid p :=
  ⟨p, h, .inl ⟨rfl, rfl⟩⟩

theorem Command.Concerns.peer {a b : ℤ} (h : c.Concerns a b) : ∃ p, c.peer = some p := by
  obtain ⟨p, hp, -⟩ := h
  exact ⟨p, hp⟩

theorem Command.Concerns.swap {a b : ℤ} (h : c.Concerns a b) : c.Concerns b a := by
  obtain ⟨p, hp, h⟩ := h
  exact ⟨p, hp, h.symm⟩

theorem Command.Concerns.cases {a b p : ℤ} (h : c.Concerns a b) (hp : c.peer = some p) :
    (a = c.actorUid ∧ b = p) ∨ (a = p ∧ b = c.actorUid) := by
  obtain ⟨p', hp', h⟩ := h
  cases hp'.symm.trans hp
  rcases h with ⟨rfl, rfl⟩ | ⟨rfl, rfl⟩
  · exact .inl ⟨rfl, rfl⟩
  · exact .inr ⟨rfl, rfl⟩

/-- The applications and the friendship of two users are as they were. -/
structure Db.SamePair (d d' : Db) (a b : ℤ) : Prop where
  there : d'.friendApplys.get (a, b) = d.friendApplys.get (a, b)
  back : d'.friendApplys.get (b, a) = d.friendApplys.get (b, a)
  friends : d'.Strangers (min a b) (max a b) ↔ d.Strangers (min a b) (max a b)

namespace Db.SamePair

variable {d d' d'' : Db} {a b : ℤ}

theorem refl (d : Db) (a b : ℤ) : d.SamePair d a b := ⟨rfl, rfl, .rfl⟩

theorem trans (h : d.SamePair d' a b) (h' : d'.SamePair d'' a b) : d.SamePair d'' a b :=
  ⟨h'.there.trans h.there, h'.back.trans h.back, h'.friends.trans h.friends⟩

end Db.SamePair

theorem pair_of_min_max {a b x y : ℤ} (hmin : min x y = min a b) (hmax : max x y = max a b) :
    (x = a ∧ y = b) ∨ (x = b ∧ y = a) := by
  omega

/-- While a command is at work, others leave its pair alone. -/
def company (c : Command) (fails : Bool → Prop) : Setting Db where
  rely d d' := ∀ p, c.peer = some p → d.SamePair d' c.actorUid p
  fails := fails
  hands _ _ := True
  refl d p _ := .refl d _ p
  trans _ _ _ h h' p hp := (h p hp).trans (h' p hp)

variable [Collation]

/-! ### A command changes its own pair only -/

theorem Issues.concerns_application {a b : ℤ} {data : FriendApply}
    (h : Issues V t c (.insertFriendApply a b data) ∨ Issues V t c (.updateFriendApplyStatus a b data)) :
    c.Concerns a b := by
  rcases h with h | h
  · cases h with
    | addFriend hreq => exact ⟨b, by simp [Command.peer, hreq], .inl ⟨rfl, rfl⟩⟩
  cases h with
  | agree hreq _ => exact ⟨b, by simp [Command.peer, hreq], .inl ⟨rfl, rfl⟩⟩
  | refuse hreq => exact ⟨b, by simp [Command.peer, hreq], .inl ⟨rfl, rfl⟩⟩

theorem Issues.concerns_friendship {f k a b : ℤ} {time : String}
    (h : Issues V t c (.insertFriend f k a b time)) : c.Concerns a b := by
  cases h with
  | befriend hreq _ => exact ⟨b, by simp [Command.peer, hreq], .inl ⟨rfl, rfl⟩⟩

theorem Deed.same_pair {d : Db} {ls : List (Lock Key)} {o : Operation}
    {ws : List Write} {a b : ℤ} (h : Deed V t d ls o ws) (hissues : Issues V t c o)
    (hother : ¬ c.Concerns a b) : d.SamePair (applyAll ws d) a b := by
  -- a row that is written is not one of the pair
  have hkey {x y : ℤ} {k : ℤ × ℤ} (hconcerns : c.Concerns x y) (hk : k = (x, y) ∨ k = (y, x)) :
      (a, b) ≠ k ∧ (b, a) ≠ k := by
    constructor
    · rintro rfl
      rcases hk with hk | hk <;> cases hk
      · exact hother hconcerns
      · exact hother hconcerns.swap
    · rintro rfl
      rcases hk with hk | hk <;> cases hk
      · exact hother hconcerns.swap
      · exact hother hconcerns
  have hrows : ∀ k, k = (a, b) ∨ k = (b, a) → (applyAll ws d).friendApplys.get k = d.friendApplys.get k := by
    intro k hk
    rcases h.applications with hsame | ⟨x, y, data, k', rfl, hk', -, hset⟩ | ⟨x, y, data, k', rfl, hk', -, hset⟩
    · rw [hsame]
    · obtain ⟨hne, hne'⟩ := hkey (Issues.concerns_application (.inl hissues)) hk'
      rw [hset, get_set_ne]
      rcases hk with rfl | rfl
      · exact hne
      · exact hne'
    · obtain ⟨hne, hne'⟩ := hkey (Issues.concerns_application (.inr hissues)) hk'
      rw [hset, get_set_ne]
      rcases hk with rfl | rfl
      · exact hne
      · exact hne'
  refine ⟨hrows _ (.inl rfl), hrows _ (.inr rfl), ?_⟩
  rcases h.friends hissues.keeps with hsame | ⟨f, k, x, y, time, rfl, hnew, -, hset⟩
  · unfold Db.Strangers
    rw [hsame]
  constructor
  · exact fun hstrangers f' row hrow => hstrangers f' row (hset ▸ get_set_new hnew hrow)
  · intro hstrangers f' row hrow
    rw [hset, get_set] at hrow
    split at hrow
    · cases hrow
      rintro ⟨hmin, hmax⟩
      have hconcerns := hissues.concerns_friendship
      rcases pair_of_min_max hmin hmax with ⟨rfl, rfl⟩ | ⟨rfl, rfl⟩
      · exact hother hconcerns
      · exact hother hconcerns.swap
    · exact hstrangers f' row hrow

theorem Serves.same_pair {d : Db} {s s' : ServiceStore} {ev : Event Command} (hrun : Serves d s)
    (hstep : s.step Service.process ev = some s') {a b : ℤ}
    (hother : ∀ i σ, ev.target = some i → s.sessions[i]? = some σ → ¬ σ.op.Concerns a b) :
    s.cur.db.SamePair s'.cur.db a b := by
  rcases hrun.step hstep with hsame | ⟨i, n, σ, o, ws, rfl, hi, hissues, hdeed, hdb⟩
  · rw [hsame]
    exact .refl _ _ _
  rw [hdb]
  exact hdeed.same_pair hissues (hother i σ rfl hi)

/-! ### The steps of a friend command in company -/

section courses

variable {S : Setting Db} {F : Db → Bool → Prop} {α : Type} {d : Db} {k : Bool}

/-- What the others may do does not make `F` wrong. -/
def Lasts (S : Setting Db) (F : Db → Bool → Prop) : Prop := ∀ d d' k, S.rely d d' → F d k → F d' k

omit [Collation] in
theorem Lasts.on (h : Lasts S F) {d d' : Db} {k : Bool} (hrely : S.rely d d') (hf : F d k) : F d' k :=
  h d d' k hrely hf

/-- `F` is what is known where something is thrown. -/
abbrev Throws (F : Db → Bool → Prop) : Db → Option (List Write) → Bool → Prop := fun d _ k => F d k

theorem ask_leads {Q : ℕ → Db → Option (List Write) → Bool → Prop} {ws : Option (List Write)} (hF : Lasts S F)
    (hfail : S.fails k → F d k) (h : ∀ n d', S.rely d d' → Q n d' ws k) :
    S.Leads (Throws F) Q (Sql.ask : Operating ℕ) d ws k :=
  .ask fun d' hd' => ⟨fun n _ => h n d' hd', fun hf => hF.on hd' (hfail hf)⟩

theorem submit_leads {Q : α → Db → Option (List Write) → Bool → Prop} {x : Operating α} (hF : Lasts S F)
    (hfail : S.fails k → F d k) (h : ∀ d', S.rely d d' → S.Leads (Throws F) Q x d' none k) :
    S.Leads (Throws F) Q (submit x) d none k := by
  refine .bind (ask_leads hF hfail fun _ d' hd' => ?_)
  refine .catching (h d' hd') fun e d₁ _ k₁ hthrown => ?_
  exact .bind (.abort fun d₂ hd₂ => .throw (hF.on hd₂ hthrown))

theorem generateId_leads {Q : ℤ → Db → Option (List Write) → Bool → Prop}
    (hF : Lasts S F) (hfail : S.fails k → F d k)
    (h : ∀ id d', S.rely d d' → Q id d' none k) : S.Leads (Throws F) Q generateId d none k :=
  .bind (ask_leads hF hfail fun _ d' hd' => .pure (h _ d' hd'))

/-- Handling a command; before the handler starts nothing has happened. -/
theorem process_course {c : Command} {R : Outcome → Db → Option (List Write) → Bool → Prop} (hF : Lasts S F)
    (hstart : F d false) (hthrown : ∀ o d' ws k, o.response.error ≠ .Success → F d' k → R o d' ws k)
    (h : ∀ d', S.rely d d' → S.Leads (Throws F) R (Service.handle c) d' none false) :
    S.Course R (Service.process c) d none false := by
  refine Setting.Leads.outcome (Setting.Leads.bind (ask_leads hF (fun _ => hstart) fun n d' hd' => ?_))
    (fun _ _ _ _ hr => hr) fun e d' ws k hf => hthrown _ d' ws k ?_ hf
  · dsimp only
    split
    · refine .pure (hthrown _ d' none false ?_ (hF.on hd' hstart))
      simp
    · exact h d' hd'
  · dsimp only
    split <;> simp

/-- The friendship is stored and nothing else of the pair changes, or nothing has happened. -/
theorem insertFriend_leads {c : Command} {p f conversation : ℤ} {time : String} {fails : Bool → Prop}
    {Q : ℤ → Db → Option (List Write) → Bool → Prop} (hp : c.peer = some p)
    (hF : Lasts (company c fails) F) (hstart : F d k)
    (hdone : ∀ d', d'.friendApplys.get (c.actorUid, p) = d.friendApplys.get (c.actorUid, p) →
      d'.friendApplys.get (p, c.actorUid) = d.friendApplys.get (p, c.actorUid) →
      d.Strangers (min c.actorUid p) (max c.actorUid p) →
      ¬ d'.Strangers (min c.actorUid p) (max c.actorUid p) → Q 0 d' none true) :
    (company c fails).Leads (Throws F) Q (MysqlStore.insertFriend f conversation c.actorUid p time) d none k := by
  -- what the others leave as it is
  have hkept {d₁ d₂ : Db} (h : (company c fails).rely d₁ d₂) := h p hp
  refine .bind (.start fun d₁ h₁ => ⟨?_, fun _ => hF.on h₁ hstart⟩)
  refine .catching ?_ fun e d' _ k' (hthrown : F d' k') => .bind
    (.abort fun d'' h => .throw (hF.on h hthrown))
  have hf₁ := hF.on h₁ hstart
  refine .bind (.exec fun d₂ h₂ =>
    ⟨fun n _ => ⟨fun e₁ hs₁ => ?_, fun _ _ => hF.on h₂ hf₁⟩, fun _ => hF.on h₂ hf₁⟩)
  obtain ⟨-, hstrangers, rfl⟩ := insertFriend_ok hs₁
  have hf₂ := hF.on h₂ hf₁
  refine .bind (.exec fun d₃ h₃ =>
    ⟨fun n _ => ⟨fun e₂ hs₂ => ?_, fun _ _ => hF.on h₃ hf₂⟩, fun _ => hF.on h₃ hf₂⟩)
  obtain ⟨-, -, rfl⟩ := insertConversation_ok hs₂
  have hf₃ := hF.on h₃ hf₂
  refine .bind (.exec fun d₄ h₄ =>
    ⟨fun n _ => ⟨fun e₃ hs₃ => ?_, fun _ _ => hF.on h₄ hf₃⟩, fun _ => hF.on h₄ hf₃⟩)
  obtain ⟨-, -, rfl⟩ := insertUserStates_ok hs₃
  have hf₄ := hF.on h₄ hf₃
  refine .bind (.commit fun d₅ h₅ => ⟨?_, fun _ => hF.on h₅ hf₄⟩)
  have hpair := ((hkept h₁).trans (hkept h₂)).trans (((hkept h₃).trans (hkept h₄)).trans (hkept h₅))
  refine .pure (hdone _ hpair.there hpair.back ?_ fun hnot => ?_)
  · exact ((hkept h₁).trans (hkept h₂)).friends.1 hstrangers
  · exact hnot f _ (get_set_self _ _ _) ⟨rfl, rfl⟩

/-- What every statement of an answer keeps, the answer keeps. -/
theorem updateFriendApplyStatus_keeps {P : Db → Prop} {a b : ℤ} {data : FriendApply}
    (hP : Lasts S fun d _ => P d)
    (hupdate : ∀ {d x y n} {e : Effect Key Write Unit}, (x = a ∧ y = b) ∨ (x = b ∧ y = a) → P d →
      SQL.updateFriendApply x y data n d = .ok e → P (applyAll e.writes d)) (hd : P d) :
    S.Leads (Throws fun d _ => P d) (fun _ d' ws _ => ws = none ∧ P d')
      (submit (MysqlStore.updateFriendApplyStatus a b data)) d none k := by
  refine submit_leads hP (fun _ => hd) fun d₁ h₁ => ?_
  have hd₁ := hP.on (k := k) h₁ hd
  refine .bind (.exec_auto fun d₂ h₂ =>
    ⟨fun n _ => ⟨fun e hs => ?_, fun _ _ => hP.on (k := k) h₂ hd₁⟩, fun _ => hP.on (k := k) h₂ hd₁⟩)
  have hd₂ := hupdate (.inl ⟨rfl, rfl⟩) (hP.on (k := k) h₂ hd₁) hs
  refine .bind (.exec_auto fun d₃ h₃ =>
    ⟨fun n _ => ⟨fun e hs => ?_, fun _ _ => hP.on (k := k) h₃ hd₂⟩, fun _ => hP.on (k := k) h₃ hd₂⟩)
  exact .pure ⟨rfl, hupdate (.inr ⟨rfl, rfl⟩) (hP.on (k := k) h₃ hd₂) hs⟩

end courses

/-! ### Promises about the commands -/

structure PairRules where
  /-- an action of the command may fail, when it has committed something or not -/
  fails : Command → Bool → Prop
  /-- the rows on which the command may begin -/
  admits : Command → Db → Prop
  /-- what is true of a pair on which no command is at work -/
  rest : ℤ → ℤ → Db → Prop
  /-- what is true when the command, begun on the first rows, is answered on the second; the last says
      whether it has committed something -/
  spec : Command → Db → Outcome → Db → Bool → Prop
  rest_swap : ∀ {a b d}, rest a b d → rest b a d
  rest_same : ∀ {a b d d'}, d.SamePair d' a b → rest a b d → rest a b d'
  spec_same : ∀ {c p d o d' d'' k}, c.peer = some p → d'.SamePair d'' c.actorUid p → spec c d o d' k →
    spec c d o d'' k
  spec_rest : ∀ {c p d o d' k}, c.peer = some p → rest c.actorUid p d → spec c d o d' k → rest c.actorUid p d'
  course : ∀ {c p d}, c.peer = some p → admits c d → rest c.actorUid p d →
    (company c (fails c)).Course (fun o d' _ k => spec c d o d' k) (Service.process c) d none false

namespace PairRules

variable (r : PairRules)

/-- No command begins while another is at work on its pair; nor does a connection go down during a
    statement of a friend command. -/
def Orderly (s : ServiceStore) : Event Command → Prop
  | .begin c => ∀ p, c.peer = some p →
    r.admits c s.cur.db ∧ ∀ σ ∈ s.sessions, σ.op.Concerns c.actorUid p → σ.prog.over = true
  | .act _ _ => True
  | .fault i _ => ∀ σ, s.sessions[i]? = some σ → σ.op.peer.isSome = true → r.fails σ.op σ.done.isSome
  | .orphan i _ _ => ∀ σ, s.sessions[i]? = some σ → σ.op.peer = none

/-- A session that is at work as promised since its beginning. -/
def Works (s : ServiceStore) (σ : Handling) (p : ℤ) : Prop :=
  ∃ v, s.versions[σ.began]? = some v ∧ r.rest σ.op.actorUid p v.db ∧
    (company σ.op (r.fails σ.op)).Follows (fun o d' _ k => r.spec σ.op v.db o d' k) s σ

structure InOrder (s : ServiceStore) : Prop where
  one : ∀ (i j : ℕ) σ τ a b, s.sessions[i]? = some σ → s.sessions[j]? = some τ → σ.prog.over = false →
    τ.prog.over = false → σ.op.Concerns a b → τ.op.Concerns a b → i = j
  resting : ∀ a b, (∀ σ ∈ s.sessions, σ.op.Concerns a b → σ.prog.over = true) → r.rest a b s.cur.db
  working : ∀ (i : ℕ) σ p, s.sessions[i]? = some σ → σ.prog.over = false → σ.op.peer = some p → r.Works s σ p

variable {r} {d : Db} {s s' : ServiceStore} {ev : Event Command} {i : ℕ}
  {σ : Handling} {p : ℤ}

theorem Works.later (h : r.Works s σ p) (hp : σ.op.peer = some p) (hpre : s.versions <+: s'.versions)
    (hsame : s.cur.db.SamePair s'.cur.db σ.op.actorUid p) : r.Works s' σ p := by
  obtain ⟨v, hv, hrest, hfollows⟩ := h
  refine ⟨v, past_of_prefix hpre hv, hrest, hfollows.later ?_ hpre ?_⟩
  · exact fun o d' d'' _ k hrely hspec => r.spec_same hp (hrely p hp) hspec
  · intro p' hp'
    cases hp.symm.trans hp'
    exact hsame

theorem Works.answer (h : r.Works s σ p) {o : Outcome} (ho : σ.prog = .ret o) :
    ∃ v, s.versions[σ.began]? = some v ∧ r.rest σ.op.actorUid p v.db ∧
      r.spec σ.op v.db o s.cur.db σ.done.isSome := by
  obtain ⟨v, hv, hrest, hfollows⟩ := h
  exact ⟨v, hv, hrest, hfollows.answer ho⟩

theorem Works.rest (h : r.Works s σ p) (hp : σ.op.peer = some p) (hover : σ.prog.over = true) :
    r.rest σ.op.actorUid p s.cur.db := by
  have hret : ∃ o, σ.prog = .ret o := by
    obtain ⟨v, hv, hrest, hfollows⟩ := h
    have hcourse := hfollows.course
    cases hprog : σ.prog with
    | ret o => exact ⟨o, rfl⟩
    | halt =>
      rw [hprog] at hcourse
      exact hcourse.elim
    | _ =>
      rw [hprog] at hover
      cases hover
  obtain ⟨o, ho⟩ := hret
  obtain ⟨v, hv, hrest, hspec⟩ := h.answer ho
  exact r.spec_rest hp hrest hspec

/-- A session that has not ended keeps its promise over one step. -/
theorem InOrder.follows (h : r.InOrder s) (hrun : Serves d s) (hok : r.Orderly s ev)
    (hstep : s.step Service.process ev = some s') (hi : s.sessions[i]? = some σ)
    (hover : σ.prog.over = false) (hp : σ.op.peer = some p) :
    ∃ σ', s'.sessions[i]? = some σ' ∧ σ'.op = σ.op ∧ r.Works s' σ' p := by
  have hworks := h.working i σ p hi hover hp
  have hpre := versions_step hstep
  have hlt := (List.getElem?_eq_some_iff.1 hi).1
  by_cases htarget : ev.target = some i
  · obtain ⟨v, hv, hrest, hfollows⟩ := hworks
    cases ev with
    | begin c => cases htarget
    | act j n =>
      cases htarget
      obtain ⟨τ, hτ, hperform⟩ := Option.bind_eq_some_iff.1 hstep
      cases hi.symm.trans hτ
      obtain ⟨σ', hset, hop, -, hfollows'⟩ := hfollows.perform trivial hperform
      obtain ⟨υ, hset', -, hbegan, -⟩ := sessions_perform hperform
      have hget : s'.sessions[i]? = some σ' := by rw [hset, getElem?_set_self hlt]
      have hυ : σ' = υ := by
        rw [hset', getElem?_set_self hlt] at hget
        exact (Option.some.inj hget).symm
      refine ⟨σ', hget, hop, v, ?_, ?_, ?_⟩
      · rw [hυ, hbegan]
        exact past_of_prefix hpre hv
      · rw [hop]
        exact hrest
      · rw [hop]
        exact hfollows'
    | fault j e =>
      cases htarget
      obtain ⟨τ, hτ, hfail⟩ := Option.bind_eq_some_iff.1 hstep
      cases hi.symm.trans hτ
      obtain ⟨q, hq, rfl⟩ := Option.map_eq_some_iff.1 hfail
      have hfails := hok σ hi (by rw [hp]; rfl)
      refine ⟨{ σ with prog := q }, ?_, rfl, v, past_of_prefix hpre hv, hrest, ?_⟩
      · simp [Sys.put, hlt]
      · exact ⟨(hfollows.fault hfails hq).course, (hfollows.fault hfails hq).view⟩
    | orphan j n e =>
      cases htarget
      cases (hok σ hi).symm.trans hp
  · -- whoever moves is not at work on the pair
    have hsame : s.cur.db.SamePair s'.cur.db σ.op.actorUid p := by
      refine hrun.same_pair hstep fun j τ hj hτ hconcerns => htarget ?_
      rcases step_moved hstep with ⟨c, rfl, -⟩ | ⟨k, τ', υ, rest, hk, hτ', hover', -⟩
      · cases hj
      cases hj.symm.trans hk
      cases hτ.symm.trans hτ'
      rw [hj, h.one i j σ τ _ _ hi hτ hover hover' (Command.concerns_peer hp) hconcerns]
    refine ⟨σ, ?_, rfl, hworks.later hp hpre hsame⟩
    rcases step_moved hstep with ⟨c, -, rfl⟩ | ⟨k, τ', υ, rest, hk, -, -, hsessions, -⟩
    · exact (getElem?_append_left hlt).trans hi
    have hki : k ≠ i := by
      rintro rfl
      exact htarget hk
    rw [hsessions, getElem?_append_left (by simpa using hlt), getElem?_set_ne hki]
    exact hi

theorem InOrder.begun (h : r.InOrder s) {c : Command} (hok : r.Orderly s (.begin c)) (hp : c.peer = some p) :
    r.Works s { op := c, began := s.now, seen := s.now, prog := Service.process c } p := by
  obtain ⟨hadmits, hquiet⟩ := hok p hp
  have hrest := h.resting c.actorUid p hquiet
  exact ⟨s.cur, s.cur_now, hrest, r.course hp hadmits hrest, by simp⟩

theorem InOrder.step_begin (h : r.InOrder s) {c : Command} (hok : r.Orderly s (.begin c)) :
    r.InOrder { s with
      sessions := s.sessions ++ [{ op := c, began := s.now, seen := s.now, prog := Service.process c }] } where
  one i j σ τ a b hi hj hσ hτ hab hab' := by
    -- a session that is at work is not one of the pair of the new command
    have hquiet {υ : Handling} (hυ : υ ∈ s.sessions)
        (hover : υ.prog.over = false) (hab : υ.op.Concerns a b) (hc : c.Concerns a b) : False := by
      obtain ⟨p, hp⟩ := hc.peer
      have hpair : υ.op.Concerns c.actorUid p := by
        rcases hc.cases hp with ⟨rfl, rfl⟩ | ⟨rfl, rfl⟩
        · exact hab
        · exact hab.swap
      rw [(hok p hp).2 υ hυ hpair] at hover
      cases hover
    rcases of_push hi with hi | ⟨rfl, rfl⟩ <;> rcases of_push hj with hj | ⟨rfl, rfl⟩
    · exact h.one i j σ τ a b hi hj hσ hτ hab hab'
    · exact (hquiet (mem_of_getElem? hi) hσ hab hab').elim
    · exact (hquiet (mem_of_getElem? hj) hτ hab' hab).elim
    · rfl
  resting a b hall := h.resting a b fun σ hσ => hall σ (mem_append_left _ hσ)
  working i σ p hi hover hp := by
    have hpre : s.versions <+: s.versions := prefix_refl _
    rcases of_push hi with hi | ⟨-, rfl⟩
    · exact (h.working i σ p hi hover hp).later hp hpre (.refl _ _ _)
    · exact (h.begun hok hp).later hp hpre (.refl _ _ _)

/-- A friend command that has not ended is one that had not ended before, or it begins now. -/
theorem Orderly.unended (hok : r.Orderly s ev) (hstep : s.step Service.process ev = some s')
    (hi : s'.sessions[i]? = some σ) (hp : σ.op.peer = some p) (hover : σ.prog.over = false) :
    (∃ τ, s.sessions[i]? = some τ ∧ τ.op = σ.op ∧ τ.prog.over = false) ∨ ev = .begin σ.op := by
  rcases step_moved hstep with ⟨c, rfl, rfl⟩ | ⟨k, ρ, υ, rest, -, hρ, hρover, hsessions, hop, -, hrest, horphan⟩
  · rcases of_push hi with hi | ⟨-, rfl⟩
    · exact .inl ⟨σ, hi, rfl, hover⟩
    · exact .inr rfl
  refine .inl ?_
  rw [hsessions] at hi
  rcases Nat.lt_or_ge i s.sessions.length with hlt | hge
  · rw [getElem?_append_left (by simpa using hlt)] at hi
    rcases of_put hi with ⟨rfl, rfl⟩ | ⟨-, hi⟩
    · exact ⟨ρ, hρ, hop.symm, hρover⟩
    · exact ⟨σ, hi, rfl, hover⟩
  · -- no friend command is left headless
    rw [getElem?_append_right (by simpa using hge)] at hi
    have hmem := mem_of_getElem? hi
    rcases horphan with rfl | ⟨n, e, rfl⟩
    · cases hmem
    rw [(hrest σ hmem).1, hok ρ hρ] at hp
    cases hp

theorem InOrder.step (h : r.InOrder s) (hrun : Serves d s) (hok : r.Orderly s ev)
    (hstep : s.step Service.process ev = some s') : r.InOrder s' := by
  rcases step_moved hstep with
    ⟨c, rfl, rfl⟩ | ⟨k, ρ, υ, rest, hk, hρ, hover, hsessions, hop, -, hrest, horphan⟩
  · exact h.step_begin hok
  -- a friend command at work was at work before
  have hback {j : ℕ} {σ' : Handling} {p : ℤ} (hj : s'.sessions[j]? = some σ') (hp : σ'.op.peer = some p)
      (hσ' : σ'.prog.over = false) :
      ∃ σ, s.sessions[j]? = some σ ∧ σ.op = σ'.op ∧ σ.prog.over = false := by
    refine (hok.unended hstep hj hp hσ').resolve_right ?_
    rintro rfl
    cases hk
  refine ⟨fun i j σ τ a b hi hj hσ hτ hab hab' => ?_, fun a b hall => ?_, fun i σ p hi hσ hp => ?_⟩
  · obtain ⟨p, hp⟩ := hab.peer
    obtain ⟨p', hp'⟩ := hab'.peer
    obtain ⟨σ₀, hi₀, hop₀, hσ₀⟩ := hback hi hp hσ
    obtain ⟨τ₀, hj₀, hop₁, hτ₀⟩ := hback hj hp' hτ
    exact h.one i j σ₀ τ₀ a b hi₀ hj₀ hσ₀ hτ₀ (hop₀ ▸ hab) (hop₁ ▸ hab')
  · by_cases hρab : ρ.op.Concerns a b
    · obtain ⟨p, hp⟩ := hρab.peer
      obtain ⟨ρ', hρ', hop', hworks⟩ := h.follows hrun hok hstep hρ hover hp
      rw [← hop'] at hρab hp
      have hend := hworks.rest hp (hall ρ' (mem_of_getElem? hρ') hρab)
      rcases hρab.cases hp with ⟨rfl, rfl⟩ | ⟨rfl, rfl⟩
      · exact hend
      · exact r.rest_swap hend
    · refine r.rest_same (hrun.same_pair hstep fun j τ hj hτ => ?_) (h.resting a b fun σ hσ hab => ?_)
      · cases hk.symm.trans hj
        cases hρ.symm.trans hτ
        exact hρab
      · obtain ⟨j, hj⟩ := mem_iff_getElem?.1 hσ
        have hjk : k ≠ j := by
          rintro rfl
          cases hρ.symm.trans hj
          exact hρab hab
        refine hall σ ?_ hab
        rw [hsessions]
        exact mem_append_left _ (mem_of_getElem? (getElem?_set_ne hjk ▸ hj))
  · obtain ⟨σ₀, hi₀, hop₀, hσ₀⟩ := hback hi hp hσ
    obtain ⟨σ', hi', -, hworks⟩ := h.follows hrun hok hstep hi₀ hσ₀ (hop₀ ▸ hp)
    cases hi.symm.trans hi'
    exact hworks

/-- A run whose friend commands come one at a time. -/
def ServesOrderly (r : PairRules) (d : Db) (s : ServiceStore) : Prop :=
  Path (Sys.step Service.process) r.Orderly (Sys.init d) s

theorem ServesOrderly.serves (h : r.ServesOrderly d s) : Serves d s := h.events

/-- What is promised holds over whole runs. -/
theorem ServesOrderly.inOrder (h : r.ServesOrderly d s) (hd : ∀ a b, r.rest a b d) : r.InOrder s := by
  refine h.invariant ⟨by simp [Sys.init], fun a b _ => hd a b, by simp [Sys.init]⟩ ?_
  exact fun _ _ _ path hs hok hstep => hs.step (ServesOrderly.serves path) hok hstep

theorem ServesOrderly.answered (h : r.ServesOrderly d s) (hd : ∀ a b, r.rest a b d) (hok : r.Orderly s ev)
    (hstep : s.step Service.process ev = some s') (hi : s.sessions[i]? = some σ)
    (hover : σ.prog.over = false) (hp : σ.op.peer = some p) {σ' : Handling}
    (hi' : s'.sessions[i]? = some σ') {o : Outcome} (ho : σ'.prog = .ret o) :
    ∃ v, s'.versions[σ'.began]? = some v ∧ r.rest σ.op.actorUid p v.db ∧
      r.spec σ.op v.db o s'.cur.db σ'.done.isSome := by
  obtain ⟨υ, hυ, hop, hworks⟩ := (h.inOrder hd).follows h.serves hok hstep hi hover hp
  cases hi'.symm.trans hυ
  rw [← hop]
  exact hworks.answer ho

/-- When a command is answered nobody is at work on its pair. -/
theorem ServesOrderly.quiet (h : r.ServesOrderly d s) (hd : ∀ a b, r.rest a b d) (hok : r.Orderly s ev)
    (hstep : s.step Service.process ev = some s') (hi : s.sessions[i]? = some σ)
    (hover : σ.prog.over = false) (hp : σ.op.peer = some p) {σ' : Handling}
    (hi' : s'.sessions[i]? = some σ') {o : Outcome} (ho : σ'.prog = .ret o) :
    ∀ τ ∈ s'.sessions, τ.op.Concerns σ.op.actorUid p → τ.prog.over = true := by
  intro τ hτ hconcerns
  obtain ⟨j, hj⟩ := mem_iff_getElem?.1 hτ
  by_contra hτover
  obtain ⟨q, hq⟩ := hconcerns.peer
  rcases hok.unended hstep hj hq (by simpa using hτover) with ⟨υ, hυ, hop, hυover⟩ | rfl
  · -- it would have been at work beside the one that is answered
    rw [← hop] at hconcerns
    obtain rfl := (h.inOrder hd).one j i υ σ _ _ hυ hi hυover hover hconcerns (Command.concerns_peer hp)
    cases hj.symm.trans hi'
    exact hτover (by rw [ho]; rfl)
  · cases hstep
    cases hi'.symm.trans ((List.getElem?_append_left (List.getElem?_eq_some_iff.1 hi).1).trans hi)
    rw [ho] at hover
    cases hover

end PairRules

end Imm
