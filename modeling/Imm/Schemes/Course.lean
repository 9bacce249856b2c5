import Imm.Schemes.History
import Imm.Schemes.Paths

/-! What a program comes to when the failures and the company it meets are limited.

    A `Setting` says what the other sessions may do to the committed rows meanwhile, when an action may
    fail, and which numbers the server hands out. `Course` is the calculus for one program in a setting:
    it speaks of the committed rows as they are now, of the writes of its open transaction, and of
    whether it has committed something. `Follows` ties it to a session of the store; each action of the
    session keeps it, and so does whatever the others do within the setting. Alone, a program that has a
    course reaches its end (`Follows.finishes`). -/

namespace Txn

open Steps List

structure Setting (D : Type) where
  /-- what the others may do -/
  rely : D → D → Prop
  /-- an action may fail, when something has been committed or not -/
  fails : Bool → Prop
  /-- a number the server may hand out -/
  hands : ℕ → D → Prop
  refl : ∀ d, rely d d
  trans : ∀ d d' d'', rely d d' → rely d' d'' → rely d d''

/-- Nobody else is there, and nothing fails. -/
def Setting.alone {D : Type} (hands : ℕ → D → Prop) : Setting D where
  rely := Eq
  fails _ := False
  hands := hands
  refl _ := rfl
  trans _ _ _ := .trans

variable {D K W : Type} [Rows D K W] {A B α β : Type}

/-- `p.Rest q`: the program `p` is what may be left of `q` after its next action. -/
inductive Prog.Rest : Prog D K W A → Prog D K W A → Prop
  | ask (k : Except String ℕ → Prog D K W A) (r : Except String ℕ) : Rest (k r) (.ask k)
  | query {γ : Type} (q : D → γ) (k : Except String γ → Prog D K W A) (r : Except String γ) :
      Rest (k r) (.query q k)
  | stmt {γ : Type} (s : Stmt D K W γ) (k : Except String γ → Prog D K W A) (r : Except String γ) :
      Rest (k r) (.stmt s k)
  | start (k : Except String Unit → Prog D K W A) (r : Except String Unit) : Rest (k r) (.start k)
  | commit (k : Except String Unit → Prog D K W A) (r : Except String Unit) : Rest (k r) (.commit k)
  | rollback (k : Except String Unit → Prog D K W A) (r : Except String Unit) : Rest (k r) (.rollback k)
  | abort (p : Prog D K W A) : Rest p (.abort p)

omit [Rows D K W] in
theorem Prog.rest_wf : WellFounded (Prog.Rest (D := D) (K := K) (W := W) (A := A)) := by
  refine ⟨fun p => ?_⟩
  induction p with
  | ret | halt => exact ⟨_, fun _ h => by cases h⟩
  | ask k ih | query q k ih | stmt s k ih | start k ih | commit k ih | rollback k ih =>
    refine ⟨_, fun _ h => ?_⟩
    cases h
    exact ih _
  | abort p ih =>
    refine ⟨_, fun _ h => ?_⟩
    cases h
    exact ih

namespace Setting

/-- An action in the setting: from the rows it finds it goes on as `ok` says, or as `err` says where it
    may fail. -/
def Acts (S : Setting D) (b : Bool) (d : D) (ok err : D → Prop) : Prop :=
  ∀ d', S.rely d d' → ok d' ∧ (S.fails b → err d')

/-- A condition on the rows, the writes of the open transaction, and whether one was committed. -/
abbrev Rest (D W : Type) := D → Option (List W) → Bool → Prop

/-- `R` holds of the answer of the program, whatever happens to it in the setting. A consistent read
    may see older rows. -/
def Course (S : Setting D) (R : A → Rest D W) :
    Prog D K W A → D → Option (List W) → Bool → Prop
  | .ret a, d, ws, b => R a d ws b
  | .halt, _, _, _ => False
  | .ask k, d, ws, b => S.Acts b d (fun d => ∀ n, S.hands n d → S.Course R (k (.ok n)) d ws b)
      fun d => ∀ e, S.Course R (k (.error e)) d ws b
  | .query q k, d, ws, b => S.Acts b d
      (fun d => ∀ d₀, S.rely d₀ d → S.Course R (k (.ok (q (applyAll (ws.getD []) d₀)))) d ws b)
      fun d => ∀ e, S.Course R (k (.error e)) d ws b
  | .stmt s k, d, none, b => S.Acts b d
      (fun d => ∀ n, S.hands n d → match s n d with
        | .error e => S.Course R (k (.error e)) d none b
        | .ok e => S.Course R (k (.ok e.reply)) (applyAll e.writes d) none true)
      fun d => ∀ e, S.Course R (k (.error e)) d none b
  | .stmt s k, d, some ws, b => S.Acts b d
      (fun d => ∀ n, S.hands n d → match s n (applyAll ws d) with
        | .error e => S.Course R (k (.error e)) d (some ws) b
        | .ok e => S.Course R (k (.ok e.reply)) d (some (ws ++ e.writes)) b)
      fun d => ∀ e, S.Course R (k (.error e)) d (some ws) b
  | .start k, d, none, b => S.Acts b d (fun d => S.Course R (k (.ok ())) d (some []) b)
      fun d => ∀ e, S.Course R (k (.error e)) d none b
  | .start _, _, some _, _ => False
  | .commit k, d, none, b => S.Acts b d (fun d => S.Course R (k (.ok ())) d none b)
      fun d => ∀ e, S.Course R (k (.error e)) d none b
  | .commit k, d, some ws, b => S.Acts b d (fun d => S.Course R (k (.ok ())) (applyAll ws d) none true)
      fun d => ∀ e, S.Course R (k (.error e)) d (some ws) b
  | .rollback k, d, ws, b => S.Acts b d (fun d => S.Course R (k (.ok ())) d none b)
      fun d => ∀ e, S.Course R (k (.error e)) d ws b
  | .abort p, d, _, b => ∀ d', S.rely d d' → S.Course R p d' none b

variable {S : Setting D}

omit [Rows D K W] in
theorem Acts.imp {b : Bool} {d : D} {ok err ok' err' : D → Prop} (h : S.Acts b d ok err)
    (hok : ∀ d, ok d → ok' d) (herr : ∀ d, err d → err' d) : S.Acts b d ok' err' :=
  fun d' hd' => ⟨hok d' (h d' hd').1, fun hf => herr d' ((h d' hd').2 hf)⟩

/-- Sequencing: the second program starts where the first ends. -/
theorem Course.bind {R : B → Rest D W} {R' : A → Rest D W}
    {f : A → Prog D K W B} (hf : ∀ a d ws b, R' a d ws b → S.Course R (f a) d ws b) {p : Prog D K W A}
    {d : D} {ws : Option (List W)} {b : Bool} (h : S.Course R' p d ws b) : S.Course R (p.bind f) d ws b := by
  induction p generalizing d ws b with
  | ret a => exact hf a d ws b h
  | halt => exact h
  | ask k ih => exact h.imp (fun _ h n hn => ih _ (h n hn)) fun _ h e => ih _ (h e)
  | query q k ih => exact h.imp (fun _ h d₀ hd₀ => ih _ (h d₀ hd₀)) fun _ h e => ih _ (h e)
  | stmt s k ih =>
    cases ws with
    | none =>
      refine h.imp (fun _ h n hn => ?_) fun _ h e => ih _ (h e)
      have := h n hn
      split at this <;> exact ih _ this
    | some ws =>
      refine h.imp (fun _ h n hn => ?_) fun _ h e => ih _ (h e)
      have := h n hn
      split at this <;> exact ih _ this
  | start k ih =>
    cases ws with
    | none => exact h.imp (fun _ h => ih _ h) fun _ h e => ih _ (h e)
    | some ws => exact h
  | commit k ih => cases ws <;> exact h.imp (fun _ h => ih _ h) fun _ h e => ih _ (h e)
  | rollback k ih => exact h.imp (fun _ h => ih _ h) fun _ h e => ih _ (h e)
  | abort p ih => exact fun d' hd' => ih (h d' hd')

theorem Course.mono {R R' : A → Rest D W} {p : Prog D K W A} {d : D} {ws : Option (List W)} {b : Bool}
    (hR : ∀ a d ws b, R a d ws b → R' a d ws b) (h : S.Course R p d ws b) : S.Course R' p d ws b := by
  have hret : p.bind .ret = p := by
    clear h
    induction p with
    | ret | halt => rfl
    | ask k ih | query q k ih | stmt s k ih | start k ih | commit k ih | rollback k ih =>
      exact congrArg _ (funext ih)
    | abort p ih => exact congrArg _ ih
  exact hret ▸ .bind hR h

/-- What the others do within the setting does not disturb a program that has not ended. -/
theorem Course.onward {R : A → Rest D W}
    (hR : ∀ a d d' ws b, S.rely d d' → R a d ws b → R a d' ws b) {p : Prog D K W A} {d d' : D}
    {ws : Option (List W)} {b : Bool} (hd : S.rely d d') (h : S.Course R p d ws b) :
    S.Course R p d' ws b := by
  have acts : ∀ {ok err : D → Prop}, S.Acts b d ok err → S.Acts b d' ok err :=
    fun h d'' hd' => h d'' (S.trans _ _ _ hd hd')
  cases p with
  | ret a => exact hR a d d' ws b hd h
  | halt => exact h
  | ask k => exact acts h
  | query q k => exact acts h
  | stmt s k => cases ws <;> exact acts h
  | start k => cases ws with
    | none => exact acts h
    | some ws => exact h
  | commit k => cases ws <;> exact acts h
  | rollback k => exact acts h
  | abort p => exact fun d'' hd' => h d'' (S.trans _ _ _ hd hd')

/-! ### Throwing programs -/

/-- `Q` holds of every value `x` returns, and `E` where it throws. -/
def Leads (S : Setting D) (E : Rest D W)
    (Q : α → Rest D W) (x : Sql D K W α) (d : D) (ws : Option (List W))
    (b : Bool) : Prop :=
  S.Course (fun r d ws b => match r with
    | .ok a => Q a d ws b
    | .error _ => E d ws b) x d ws b

namespace Leads

variable {E E' : Rest D W} {Q Q' : α → Rest D W} {d : D}
  {ws : Option (List W)} {us : List W} {b : Bool}

theorem pure {a : α} (h : Q a d ws b) : S.Leads E Q (pure a : Sql D K W α) d ws b := h

theorem throw {e : String} (h : E d ws b) : S.Leads E Q (Sql.throw e : Sql D K W α) d ws b := h

theorem bind {Q : β → Rest D W} {x : Sql D K W α} {f : α → Sql D K W β}
    (h : S.Leads E (fun a d ws b => S.Leads E Q (f a) d ws b) x d ws b) : S.Leads E Q (x >>= f) d ws b :=
  Course.bind (fun r d ws b hr => by cases r <;> exact hr) h

theorem catching {x : Sql D K W α} {f : String → Sql D K W α} (h : S.Leads E' Q x d ws b)
    (hf : ∀ e d ws b, E' d ws b → S.Leads E Q (f e) d ws b) : S.Leads E Q (Sql.catching x f) d ws b :=
  Course.bind (fun r d ws b hr => by
    cases r with
    | ok a => exact hr
    | error e => exact hf e d ws b hr) h

theorem outcome {R : A → Rest D W} {x : Sql D K W α} {f : Except String α → A}
    (h : S.Leads E Q x d ws b) (hok : ∀ a d ws b, Q a d ws b → R (f (.ok a)) d ws b)
    (herr : ∀ e d ws b, E d ws b → R (f (.error e)) d ws b) : S.Course R (Sql.outcome x f) d ws b :=
  .bind (fun r d ws b hr => by
    cases r with
    | ok a => exact hok a d ws b hr
    | error e => exact herr e d ws b hr) h

theorem mono {x : Sql D K W α} (h : S.Leads E Q x d ws b) (hE : ∀ d ws b, E d ws b → E' d ws b)
    (hQ : ∀ a d ws b, Q a d ws b → Q' a d ws b) : S.Leads E' Q' x d ws b :=
  Course.mono (fun r d ws b hr => by
    cases r with
    | ok a => exact hQ a d ws b hr
    | error e => exact hE d ws b hr) h

theorem ask {Q : ℕ → Rest D W} (h : S.Acts b d (fun d => ∀ n, S.hands n d → Q n d ws b) fun d => E d ws b) :
    S.Leads E Q (Sql.ask : Sql D K W ℕ) d ws b :=
  h.imp (fun _ h => h) fun _ h _ => h

theorem start {Q : Unit → Rest D W} (h : S.Acts b d (fun d => Q () d (some []) b) fun d => E d none b) :
    S.Leads E Q (Sql.start : Sql D K W Unit) d none b :=
  h.imp (fun _ h => h) fun _ h _ => h

theorem commit {Q : Unit → Rest D W}
    (h : S.Acts b d (fun d => Q () (applyAll us d) none true) fun d => E d (some us) b) :
    S.Leads E Q (Sql.commit : Sql D K W Unit) d (some us) b :=
  h.imp (fun _ h => h) fun _ h _ => h

theorem abort {Q : Unit → Rest D W} (h : ∀ d', S.rely d d' → Q () d' none b) :
    S.Leads E Q (Sql.abort : Sql D K W Unit) d ws b := h

theorem exec {s : Stmt D K W α}
    (h : S.Acts b d (fun d => ∀ n, S.hands n d →
      (∀ e, s n (applyAll us d) = .ok e → Q e.reply d (some (us ++ e.writes)) b) ∧
        (∀ e, s n (applyAll us d) = .error e → E d (some us) b)) fun d => E d (some us) b) :
    S.Leads E Q (Sql.exec s) d (some us) b := by
  refine h.imp (fun d h n hn => ?_) fun _ h _ => h
  obtain ⟨hok, herr⟩ := h n hn
  split
  · rename_i e hs
    exact herr e hs
  rename_i e hs
  exact hok e hs

theorem exec_auto {s : Stmt D K W α}
    (h : S.Acts b d (fun d => ∀ n, S.hands n d →
      (∀ e, s n d = .ok e → Q e.reply (applyAll e.writes d) none true) ∧
        (∀ e, s n d = .error e → E d none b)) fun d => E d none b) :
    S.Leads E Q (Sql.exec s) d none b := by
  refine h.imp (fun d h n hn => ?_) fun _ h _ => h
  obtain ⟨hok, herr⟩ := h n hn
  split
  · rename_i e hs
    exact herr e hs
  rename_i e hs
  exact hok e hs

/-! Alone, every action takes effect on the rows as they are. -/

variable {hands : ℕ → D → Prop}

omit [Rows D K W] in
theorem acts_alone {ok err : D → Prop} (h : ok d) : (Setting.alone hands).Acts b d ok err := by
  rintro _ rfl
  exact ⟨h, False.elim⟩

theorem ask_alone {Q : ℕ → Rest D W} (h : ∀ n, hands n d → Q n d ws b) :
    (Setting.alone hands).Leads E Q (Sql.ask : Sql D K W ℕ) d ws b :=
  ask (acts_alone h)

theorem select_alone {q : D → α} (h : Q (q (applyAll (ws.getD []) d)) d ws b) :
    (Setting.alone hands).Leads E Q (Sql.select q : Sql D K W α) d ws b := by
  refine acts_alone (h := ?_)
  rintro _ rfl
  exact h

theorem start_alone {Q : Unit → Rest D W} (h : Q () d (some []) b) :
    (Setting.alone hands).Leads E Q (Sql.start : Sql D K W Unit) d none b :=
  start (acts_alone h)

theorem commit_alone {Q : Unit → Rest D W} (h : Q () (applyAll us d) none true) :
    (Setting.alone hands).Leads E Q (Sql.commit : Sql D K W Unit) d (some us) b :=
  commit (acts_alone h)

theorem rollback_alone {Q : Unit → Rest D W} (h : Q () d none b) :
    (Setting.alone hands).Leads E Q (Sql.rollback : Sql D K W Unit) d ws b :=
  acts_alone h

theorem exec_alone {s : Stmt D K W α}
    (h : ∀ n, hands n d → ∃ e, s n (applyAll us d) = .ok e ∧ Q e.reply d (some (us ++ e.writes)) b) :
    (Setting.alone hands).Leads E Q (Sql.exec s) d (some us) b := by
  refine exec (acts_alone fun n hn => ?_)
  obtain ⟨e, hs, hQ⟩ := h n hn
  simp only [hs, Except.ok.injEq, forall_eq', reduceCtorEq, false_implies, implies_true, and_true]
  exact hQ

theorem exec_auto_alone {s : Stmt D K W α}
    (h : ∀ n, hands n d → ∃ e, s n d = .ok e ∧ Q e.reply (applyAll e.writes d) none true) :
    (Setting.alone hands).Leads E Q (Sql.exec s) d none b := by
  refine exec_auto (acts_alone fun n hn => ?_)
  obtain ⟨e, hs, hQ⟩ := h n hn
  simp only [hs, Except.ok.injEq, forall_eq', reduceCtorEq, false_implies, implies_true, and_true]
  exact hQ

theorem exec_error_alone {s : Stmt D K W α} (hs : ∀ n e, s n (applyAll (ws.getD []) d) ≠ .ok e)
    (h : E d ws b) : (Setting.alone hands).Leads E Q (Sql.exec s) d ws b := by
  cases ws with
  | none => exact exec_auto (acts_alone fun n _ => ⟨fun e he => absurd he (hs n e), fun _ _ => h⟩)
  | some us => exact exec (acts_alone fun n _ => ⟨fun e he => absurd he (hs n e), fun _ _ => h⟩)

end Leads

/-! ### Sessions -/

section sessions

variable [DecidableEq K] {Op : Type}

/-- The session has a course, and the version its consistent reads see is related to the current one. -/
structure Follows (S : Setting D) (R : A → Rest D W) (s : Sys D K W A Op)
    (σ : Session D K W A Op) : Prop where
  course : S.Course R σ.prog s.cur.db (σ.tx.map Tx.writes) σ.done.isSome
  view : ∀ x j, σ.tx = some x → x.view = some j →
    ∃ v, s.versions[j]? = some v ∧ S.rely v.db s.cur.db

variable {R : A → Rest D W} {s s' : Sys D K W A Op} {σ : Session D K W A Op}
  {i n : ℕ}

omit [DecidableEq K] in
theorem Follows.answer (h : S.Follows R s σ) {a : A} (ha : σ.prog = .ret a) :
    R a s.cur.db (σ.tx.map Tx.writes) σ.done.isSome := by
  have := h.course
  rwa [ha] at this

omit [DecidableEq K] in
theorem Follows.later (h : S.Follows R s σ) (hR : ∀ a d d' ws b, S.rely d d' → R a d ws b → R a d' ws b)
    (hpre : s.versions <+: s'.versions) (hrely : S.rely s.cur.db s'.cur.db) : S.Follows R s' σ where
  course := h.course.onward hR hrely
  view x j hx hj := by
    obtain ⟨v, hv, hold⟩ := h.view x j hx hj
    exact ⟨v, Sys.past_of_prefix hpre hv, S.trans _ _ _ hold hrely⟩

omit [DecidableEq K] in
theorem Follows.fault (h : S.Follows R s σ) (hf : S.fails σ.done.isSome) {e : String} {p : Prog D K W A}
    (hp : σ.prog.fail e = some p) : S.Follows R s { σ with prog := p } := by
  refine ⟨?_, h.view⟩
  have hc := h.course
  obtain ⟨op, began, seen, prog, tx, dn⟩ := σ
  cases prog with
  | ret a | halt | abort p => cases hp
  | ask k | query q k | rollback k =>
    cases hp
    exact (hc _ (S.refl _)).2 hf e
  | stmt st k | commit k =>
    cases hp
    cases tx <;> exact (hc _ (S.refl _)).2 hf e
  | start k =>
    cases hp
    cases tx with
    | none => exact (hc _ (S.refl _)).2 hf e
    | some x => exact hc.elim

theorem Follows.perform (h : S.Follows R s σ) (hn : S.hands n s.cur.db) (hs : s.perform i σ n = some s') :
    ∃ σ', s'.sessions = s.sessions.set i σ' ∧ σ'.op = σ.op ∧ σ'.prog.Rest σ.prog ∧
      S.Follows R s' σ' := by
  obtain ⟨hc, hview⟩ := h
  obtain ⟨op, began, seen, prog, tx, dn⟩ := σ
  cases prog with
  | ret a | halt => cases hs
  | ask k =>
    cases hs
    exact ⟨_, rfl, rfl, by constructor, (hc _ (S.refl _)).1 n hn, hview⟩
  | query q k =>
    have hc := (hc _ (S.refl _)).1
    cases tx with
    | none =>
      cases hs
      exact ⟨_, rfl, rfl, by constructor, hc _ (S.refl _), by simp⟩
    | some x =>
      cases hv : x.view with
      | none =>
        simp only [Sys.perform, hv] at hs
        cases hs
        refine ⟨_, rfl, rfl, by constructor, hc _ (S.refl _), ?_⟩
        rintro _ j ⟨⟩ ⟨⟩
        exact ⟨s.cur, s.cur_now, S.refl _⟩
      | some j =>
        simp only [Sys.perform, hv] at hs
        obtain ⟨v, hj, rfl⟩ := Option.map_eq_some_iff.1 hs
        obtain ⟨v', hj', hold⟩ := hview x j rfl hv
        cases hj.symm.trans hj'
        exact ⟨_, rfl, rfl, by constructor, hc _ hold, hview⟩
  | stmt st k =>
    cases tx with
    | none =>
      have hc := (hc _ (S.refl _)).1 n hn
      simp only [Sys.perform] at hs
      split at hs <;> rename_i e hst <;> simp only [hst] at hc
      · cases hs
        exact ⟨_, rfl, rfl, by constructor, hc, by simp⟩
      split at hs
      · cases hs
        exact ⟨_, rfl, rfl, by constructor, hc, by simp⟩
      · cases hs
    | some x =>
      have hc := (hc _ (S.refl _)).1 n hn
      simp only [Sys.perform] at hs
      split at hs <;> rename_i e hst <;> simp only [hst] at hc
      · cases hs
        exact ⟨_, rfl, rfl, by constructor, hc, hview⟩
      split at hs
      · cases hs
        refine ⟨_, rfl, rfl, by constructor, hc, ?_⟩
        rintro _ j ⟨⟩ hj
        exact hview x j rfl hj
      · cases hs
  | start k =>
    cases tx with
    | none =>
      cases hs
      refine ⟨_, rfl, rfl, by constructor, (hc _ (S.refl _)).1, ?_⟩
      rintro _ j ⟨⟩ ⟨⟩
    | some x => cases hs
  | commit k =>
    cases tx with
    | none =>
      cases hs
      exact ⟨_, rfl, rfl, by constructor, (hc _ (S.refl _)).1, by simp⟩
    | some x =>
      cases hs
      exact ⟨_, rfl, rfl, by constructor, (hc _ (S.refl _)).1, by simp⟩
  | rollback k =>
    cases hs
    exact ⟨_, rfl, rfl, by constructor, (hc _ (S.refl _)).1, by simp⟩
  | abort p =>
    cases hs
    exact ⟨_, rfl, rfl, by constructor, hc _ (S.refl _), by simp⟩

/-- A session acts, with a number that may be handed out. -/
def Moves (S : Setting D) (i : ℕ) (s : Sys D K W A Op) (ev : Event Op) : Prop :=
  ∃ n, ev = .act i n ∧ S.hands n s.cur.db

theorem Follows.path {program : Op → Prog D K W A} (h : S.Follows R s σ) (hi : s.sessions[i]? = some σ)
    (hpath : Path (Sys.step program) (S.Moves i) s s') :
    ∃ σ', s'.sessions = s.sessions.set i σ' ∧ σ'.op = σ.op ∧ S.Follows R s' σ' := by
  have hlt := (List.getElem?_eq_some_iff.1 hi).1
  refine hpath.invariant (P := fun t => ∃ σ', t.sessions = s.sessions.set i σ' ∧ σ'.op = σ.op ∧
    S.Follows R t σ') ⟨σ, ?_, rfl, h⟩ ?_
  · obtain ⟨hlt, hget⟩ := List.getElem?_eq_some_iff.1 hi
    rw [← hget, set_getElem_self]
  · rintro t _ u - ⟨τ, hset, hop, hτ⟩ ⟨n, rfl, hn⟩ hstep
    simp only [Sys.step, hset, getElem?_set_self hlt, Option.bind_some] at hstep
    obtain ⟨σ', hset', hop', -, hσ'⟩ := hτ.perform hn hstep
    exact ⟨σ', by rw [hset', hset, set_set], hop'.trans hop, hσ'⟩

/-- With no lock in its way, a session that has not ended can go on. -/
theorem Follows.enabled (h : S.Follows R s σ) (hret : ∀ a, σ.prog ≠ .ret a)
    (hfree : ∀ ls, s.free i ls = true) (n : ℕ) : ∃ s', s.perform i σ n = some s' := by
  obtain ⟨hc, hview⟩ := h
  obtain ⟨op, began, seen, prog, tx, dn⟩ := σ
  cases prog with
  | ret a => exact absurd rfl (hret a)
  | halt => exact hc.elim
  | ask k | rollback k | abort p => exact ⟨_, rfl⟩
  | commit k => cases tx <;> exact ⟨_, rfl⟩
  | query q k =>
    cases tx with
    | none => exact ⟨_, rfl⟩
    | some x =>
      cases hv : x.view with
      | none =>
        simp only [Sys.perform, hv]
        exact ⟨_, rfl⟩
      | some j =>
        obtain ⟨v, hj, -⟩ := hview x j rfl hv
        simp only [Sys.perform, hv, hj, Option.map_some]
        exact ⟨_, rfl⟩
  | stmt st k =>
    cases tx with
    | none =>
      simp only [Sys.perform, hfree, if_true]
      split <;> exact ⟨_, rfl⟩
    | some x =>
      simp only [Sys.perform, hfree, if_true]
      split <;> exact ⟨_, rfl⟩
  | start k =>
    cases tx with
    | none => exact ⟨_, rfl⟩
    | some x => exact hc.elim

omit [Rows D K W] in
theorem Sys.free_of_quiet (hquiet : ∀ (j : ℕ) τ, j ≠ i → s.sessions[j]? = some τ → τ.locks = [])
    (ls : List (Lock K)) : s.free i ls = true := by
  simp only [Sys.free, all_eq_true, Prod.forall, Bool.or_eq_true, decide_eq_true_eq]
  intro τ j hτ
  by_cases hj : j = i
  · exact .inl hj
  rw [hquiet j τ hj (mk_mem_zipIdx_iff_getElem?.1 hτ)]
  exact .inr (by simp)

/-- Where nobody else holds a lock, a session that has a course reaches its end. -/
theorem Follows.finishes (hhands : ∀ d, ∃ n, S.hands n d) (program : Op → Prog D K W A)
    (hquiet : ∀ (j : ℕ) τ, j ≠ i → s.sessions[j]? = some τ → τ.locks = []) (hi : s.sessions[i]? = some σ)
    (h : S.Follows R s σ) : ∃ s' σ' a, Path (Sys.step program) (S.Moves i) s s' ∧
      s'.sessions = s.sessions.set i σ' ∧ σ'.op = σ.op ∧ σ'.prog = .ret a ∧ S.Follows R s' σ' := by
  generalize hp : σ.prog = p
  induction p using Prog.rest_wf.induction generalizing s σ with
  | _ p ih =>
    subst hp
    by_cases hret : ∃ a, σ.prog = .ret a
    · obtain ⟨a, ha⟩ := hret
      obtain ⟨hlt, hget⟩ := List.getElem?_eq_some_iff.1 hi
      exact ⟨s, σ, a, .here, by rw [← hget, set_getElem_self], rfl, ha, h⟩
    obtain ⟨n, hn⟩ := hhands s.cur.db
    obtain ⟨s₁, hs⟩ := h.enabled (fun a ha => hret ⟨a, ha⟩) (Sys.free_of_quiet hquiet) n
    obtain ⟨σ₁, hset, hop, hrest, hfollows⟩ := h.perform hn hs
    have hlt := (List.getElem?_eq_some_iff.1 hi).1
    have hfirst : Path (Sys.step program) (S.Moves i) s s₁ :=
      Path.here.next ⟨n, rfl, hn⟩ (by simp [Sys.step, hi, hs])
    obtain ⟨s', σ', a, hpath, hset', hop', ha, hend⟩ := ih σ₁.prog hrest (σ := σ₁)
      (fun j τ hj hτ => hquiet j τ hj (by rwa [hset, getElem?_set_ne (.symm hj)] at hτ))
      (by rw [hset, getElem?_set_self hlt]) hfollows rfl
    exact ⟨s', σ', a, hfirst.trans hpath, by rw [hset', hset, set_set], hop'.trans hop, ha, hend⟩

end sessions

end Setting

end Txn
