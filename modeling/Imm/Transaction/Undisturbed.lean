import Imm.Store.Alone
import Imm.Transaction.Commands

/-! A command that is handled alone. Nobody else acts meanwhile, nothing fails, and the server hands out
    numbers that are not in use. What `Safe` says of the handler then holds of the answer. -/

namespace Imm

open Txn SQL MysqlStore Steps

variable [Collation]

section rules

variable {H : ℕ → Db → Prop} {E : Rest} {α : Type}
  {Q : α → Rest} {d : Db} {c : Command}

theorem submit_safe {x : Operating α} (h : Safe H (fun d _ => E d none) Q x d none) :
    Safe H E Q (submit x) d none :=
  .bind (.ask fun _ _ => .rethrowing h)

theorem generateId_safe {Q : ℤ → Rest} (h : ∀ n, Unused n d → Q n d none) :
    Safe Unused E Q generateId d none := by
  refine .bind (.ask fun n hn => .pure ?_)
  rw [max_eq_right (by exact_mod_cast hn.pos)]
  exact h n hn

/-- What the handler throws is answered with one of two errors. -/
theorem process_safe {R : Outcome → Rest} {b : Bool}
    (h : Safe Unused (fun d' ws => ∀ error, error = .ResourceExhausted ∨ error = .DependencyUnavailable →
      R { response := { error } } d' ws) R (Service.handle c) d none) :
    (Setting.alone Unused).Course (fun o d' ws _ => R o d' ws) (Service.process c) d none b := by
  refine Setting.Leads.outcome (E := fun d' ws _ => ∀ error, error = .ResourceExhausted ∨
      error = .DependencyUnavailable → R { response := { error } } d' ws)
    (Setting.Leads.bind (Setting.Leads.ask_alone fun n hn => ?_)) (fun _ _ _ _ hr => hr) fun e d' ws _ he => he _ ?_
  · rw [if_neg hn.pos.ne']
    exact h b
  · split
    · exact .inl rfl
    · exact .inr rfl

/-- The operation of a text to a friend. -/
def textOperation (c : Command) (toUid : ℤ) (content clientMessageId : String) : AcceptDirectText where
  senderId := c.actorUid
  receiverId := toUid
  clientMessageId := clientMessageId
  content := content
  sendDateTime := c.clock 0

theorem acceptText_safe (hd : d.Numbered) (toUid : ℤ) (content key : String) :
    Safe Unused E (fun a d' ws => ws = none ∧
        if c.actorUid ≤ 0 ∨ toUid ≤ 0 ∨ content = "" ∨ key = "" then
          a.response.error = .JsonParser
        else ∃ r message push, SendsDirect (textOperation c toUid content key) d r d' ∧
          a = .of r message [toUid] push)
      (Messages.acceptText c toUid content key) d none := by
  unfold Messages.acceptText
  split
  · exact .pure ⟨rfl, rfl⟩
  refine .bind (submit_safe ((acceptDirectText_safe (fun _ _ h => h.message) hd ?_ ?_).imp ?_))
  · dsimp only
    omega
  · dsimp only
    omega
  · rintro r d' _ ⟨rfl, hsends⟩
    exact .pure ⟨rfl, r, _, _, hsends, rfl⟩

/-- A reply fails where it accepts and the two cannot become friends, or where its text does not fit the rows
    it is for. -/
theorem reply_safe {toUid : ℤ} {accept : Bool} {message : String}
    (hjoin : accept = true → ¬ d.Joinable c.actorUid toUid → E d none)
    (hlong : d.Overlong c.actorUid toUid message → ∀ d', d'.friendApplys = d.friendApplys →
      (accept = true → ¬ d'.Joinable c.actorUid toUid) → E d' none) :
    Safe Unused E (fun o _ ws => ws = none ∧ o.response.error = .Success ∧
        (accept = true → d.Joinable c.actorUid toUid) ∧ ¬ d.Overlong c.actorUid toUid message)
      (Friends.reply c toUid (some accept) message) d none := by
  have hstore : Safe Unused E (fun r _ ws => r = 0 ∧ ws = none ∧ (accept = true → d.Joinable c.actorUid toUid) ∧
      ¬ d.Overlong c.actorUid toUid message) (Friends.storeReply c toUid accept message) d none := by
    cases accept with
    | false =>
      refine submit_safe (.imp (updateFriendApplyStatus_safe c.actorUid toUid ⟨message, .Refuse, c.clock 0⟩ d
        fun h => hlong h d rfl (by simp)) ?_)
      rintro _ _ _ ⟨rfl, rfl, hfits⟩
      exact ⟨rfl, rfl, by simp, hfits⟩
    | true =>
      refine .bind (generateId_safe fun f hf => .bind (generateId_safe fun n hn => ?_))
      refine .bind (submit_safe (.imp (insertFriend_safe (Int.natCast_nonneg f) (Int.natCast_nonneg n)
        hf.friend hn.conversation (hf.business .direct) hn.userState (hjoin rfl)) ?_))
      rintro _ d' _ ⟨rfl, rfl, hjoinable, hfriends, hsame⟩
      refine submit_safe (.imp (updateFriendApplyStatus_safe c.actorUid toUid ⟨message, .Agree, c.clock 0⟩ d'
        fun h => ?_) ?_)
      · exact hlong (by rwa [Db.Overlong, ← hsame]) d' hsame fun _ h => hfriends h.strangers
      · rintro _ _ _ ⟨rfl, rfl, hfits⟩
        exact ⟨rfl, rfl, fun _ => hjoinable, by rwa [Db.Overlong, ← hsame]⟩
  refine .bind (generateId_safe fun _ _ => .bind (hstore.imp ?_))
  rintro _ d' _ ⟨rfl, rfl, hrest⟩
  exact .pure ⟨rfl, rfl, hrest⟩

end rules

/-- The command is begun in `s` and handled alone, with numbers of `H`; in `s'` it has been answered. -/
def HandledAlone (H : ℕ → Db → Prop) (s : ServiceStore) (c : Command) (s' : ServiceStore) (o : Outcome) : Prop :=
  ∃ s₀ σ, s.step Service.process (.begin c) = some s₀ ∧
    Path (Sys.step Service.process) ((Setting.alone H).Moves s.sessions.length) s₀ s' ∧
    s'.sessions[s.sessions.length]? = some σ ∧ σ.prog = .ret o

variable {H : ℕ → Db → Prop} {s s' : ServiceStore} {c : Command} {R : Outcome → Rest}

theorem HandledAlone.serves {d : Db} {o : Outcome} (hs : Serves d s) (h : HandledAlone H s c s' o) : Serves d s' := by
  obtain ⟨s₀, σ, hbegin, hpath, -⟩ := h
  obtain ⟨events, hrun⟩ := hs
  have hfirst : Path (Sys.step Service.process) (fun _ _ => True) (Sys.init d) s :=
    Path.here.run (fun _ _ _ => trivial) hrun
  exact ((hfirst.next trivial hbegin).trans (hpath.mono fun _ _ _ => trivial)).events

theorem begun_follows
    (h : (Setting.alone H).Course (fun o d' ws _ => R o d' ws) (Service.process c) s.cur.db none false) :
    ∃ s₀ σ, s.step Service.process (.begin c) = some s₀ ∧ s₀.sessions = s.sessions ++ [σ] ∧ σ.op = c ∧
      (Setting.alone H).Follows (fun o d' ws _ => R o d' ws) s₀ σ :=
  ⟨_, _, rfl, rfl, rfl, h, by simp⟩

theorem HandledAlone.answer {o : Outcome} (h : HandledAlone H s c s' o)
    (hcourse : (Setting.alone H).Course (fun o d' ws _ => R o d' ws) (Service.process c) s.cur.db none false) :
    ∃ σ : Handling, s'.sessions = s.sessions ++ [σ] ∧ σ.op = c ∧ σ.prog = .ret o ∧
      R o s'.cur.db (σ.tx.map Tx.writes) := by
  obtain ⟨s₀, σ, hbegin, hpath, hσ, ho⟩ := h
  obtain ⟨s₁, τ, hbegin', hsessions, hop, hfollows⟩ := begun_follows hcourse
  cases hbegin.symm.trans hbegin'
  obtain ⟨σ', hset, hop', hend⟩ := hfollows.path (by simp [hsessions]) hpath
  have hlast : s'.sessions = s.sessions ++ [σ'] := by
    rw [hset, hsessions]
    simp
  obtain rfl : σ' = σ := by simpa [hlast] using hσ
  exact ⟨σ', hlast, hop'.trans hop, ho, hend.answer ho⟩

/-- Where nobody holds a lock, a command whose handler has a course is answered. -/
theorem exists_handledAlone
    (hcourse : (Setting.alone Unused).Course (fun o d' ws _ => R o d' ws) (Service.process c) s.cur.db none false)
    (hquiet : ∀ τ ∈ s.sessions, τ.locks = []) : ∃ s' o, HandledAlone Unused s c s' o := by
  obtain ⟨s₀, σ, hbegin, hsessions, -, hfollows⟩ := begun_follows hcourse
  have hothers : ∀ (j : ℕ) τ, j ≠ s.sessions.length → s₀.sessions[j]? = some τ → τ.locks = [] := by
    intro j τ hj hτ
    rw [hsessions] at hτ
    rcases Sys.of_push hτ with hτ | ⟨hlast, -⟩
    · exact hquiet τ (List.mem_of_getElem? hτ)
    · exact absurd hlast hj
  obtain ⟨s', σ', o, hpath, hset, -, ho, -⟩ :=
    hfollows.finishes exists_unused Service.process hothers (by simp [hsessions])
  exact ⟨s', o, s₀, σ', hbegin, hpath, by simp [hset, hsessions], ho⟩

end Imm
