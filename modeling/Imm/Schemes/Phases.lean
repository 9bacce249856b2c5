import Imm.Schemes.History

/-! Programs on one connection, with the rows left out.

    A client keeps a connection and runs one program after the other on it. `Link` is that connection:
    the transaction that is open on it, and what the current program has issued and published so far.
    Every action may fail, with or without effect, or lose the whole transaction (`Ending`), and the
    rows a statement meets are arbitrary.

    `Phase` is what is left of a connection without its rows, and `Leaves R p φ` says that however the
    actions of `p` end, `R` holds of its answer and of the phase it is given in. Both the actions on a
    connection (`Leaves.perform`) and the sessions of the store (`Leaves.idle`) are covered. -/

namespace Txn

open List Option Sys

variable {D K W : Type} {A α β : Type}

/-! ### Connections -/

/-- How an action on a connection ends. -/
inductive Ending where
  | done
  /-- nothing has happened -/
  | failed (e : String)
  /-- it has taken effect, but the answer did not arrive -/
  | unheard (e : String)
  /-- the server has rolled the transaction back -/
  | rolledBack (e : String)

def Ending.text : Ending → String
  | .done => ""
  | .failed e | .unheard e | .rolledBack e => e

structure Link (W : Type) where
  /-- the writes of the open transaction -/
  tx : Option (List W) := none
  aborted : Bool := false
  /-- START and COMMIT have been issued since the program began -/
  started : Bool := false
  issued : Bool := false
  /-- what has been committed since the program began -/
  published : List (List W) := []

namespace Link

variable (l : Link W)

/-- Closing the connection takes the open transaction along. -/
def abort : Link W := { l with tx := none, aborted := true }

def close : Link W := { l with tx := none }

/-- Outside a transaction every statement commits by itself. -/
def write (ws : List W) : Link W :=
  match l.tx with
  | none => { l with published := l.published ++ [ws] }
  | some us => { l with tx := some (us ++ ws) }

/-- A transaction that is still open is committed first. -/
def start : Link W :=
  { l with tx := some [], started := true, published := l.published ++ l.tx.toList }

def commit : Link W := { l with tx := none, issued := true, published := l.published ++ l.tx.toList }

/-- The program of the next operation begins. -/
def fresh : Link W := { tx := l.tx, aborted := l.aborted }

/-- An action that leads to `effected`, or to `refused` where it has no effect; an aborted connection
    carries nothing out. -/
def settle (refused effected : Link W) (ok : Prog D K W A) (err : String → Prog D K W A)
    (ending : Ending) : Link W × Prog D K W A :=
  if l.aborted then (l, err ending.text)
  else match ending with
    | .done => (effected, ok)
    | .failed e => (refused, err e)
    | .unheard e => (effected, err e)
    | .rolledBack e => (refused.close, err e)

/-- The next action of `p`; `n` is the number given to it and `d` are the rows it meets. -/
def perform (p : Prog D K W A) (n : ℕ) (d : D) (ending : Ending) : Option (Link W × Prog D K W A) :=
  match p with
  | .ret _ | .halt => none
  | .ask k => some (l, match ending with
    | .done => k (.ok n)
    | _ => k (.error ending.text))
  | .query q k => some (l.settle l l (k (.ok (q d))) (fun e => k (.error e)) ending)
  | .stmt s k =>
    match s n d with
    | .error e => some (l, k (.error e))
    | .ok eff => some (l.settle l (l.write eff.writes) (k (.ok eff.reply)) (fun e => k (.error e)) ending)
  | .start k =>
    some (l.settle { l with started := true } l.start (k (.ok ())) (fun e => k (.error e)) ending)
  | .commit k =>
    some (l.settle { l with issued := true } l.commit (k (.ok ())) (fun e => k (.error e)) ending)
  | .rollback k => some (l.settle l l.close (k (.ok ())) (fun e => k (.error e)) ending)
  | .abort p => some (l.abort, p)

end Link

/-! ### Phases -/

structure Phase where
  opened : Bool := false
  aborted : Bool := false
  started : Bool := false
  issued : Bool := false
  /-- something was committed without a COMMIT of the program -/
  stray : Bool := false
  deriving DecidableEq

namespace Phase

variable (φ : Phase)

def abort : Phase := { φ with opened := false, aborted := true }
def close : Phase := { φ with opened := false }
def write : Phase := { φ with stray := φ.stray || !φ.opened }
def start : Phase := { φ with opened := true, started := true, stray := φ.stray || φ.opened }
def commit : Phase := { φ with opened := false, issued := true }

/-- The program has committed something, or may have. -/
def touched : Bool := φ.issued || φ.stray

/-- A program that works in transactions commits by COMMIT only. -/
def Clean : Prop := φ.started = true → φ.stray = false

/-- The next program finds no open transaction: there is none, or the connection is not used again. -/
structure Tidy : Prop where
  closed : φ.aborted = true ∨ φ.opened = false
  clean : φ.Clean

variable {φ} in
theorem Clean.tidy_abort (h : φ.Clean) : φ.abort.Tidy := ⟨.inl rfl, h⟩

/-- An action that leads to `effected`, or to `refused` where it has no effect. After an abort the
    program must not act any more. -/
def After (refused effected : Phase) (ok err : Phase → Prop) : Prop :=
  φ.aborted = false ∧ ok effected ∧ err refused ∧ err effected ∧ err refused.close

/-- Between two operations. -/
def outside : Phase := {}

/-- In a transaction. -/
def inside : Phase := { opened := true, started := true }

theorem tidy_commit : inside.commit.Tidy := ⟨.inr rfl, fun _ => rfl⟩

theorem tidy_rollback : inside.close.Tidy := ⟨.inr rfl, fun _ => rfl⟩

end Phase

def Leaves (R : A → Phase → Prop) : Prog D K W A → Phase → Prop
  | .ret r, φ => R r φ
  | .halt, _ => True
  | .ask k, φ => ∀ r, Leaves R (k r) φ
  | .query _ k, φ =>
    φ.After φ φ (fun ψ => ∀ a, Leaves R (k (.ok a)) ψ) fun ψ => ∀ e, Leaves R (k (.error e)) ψ
  | .stmt _ k, φ =>
    φ.After φ φ.write (fun ψ => ∀ a, Leaves R (k (.ok a)) ψ) fun ψ => ∀ e, Leaves R (k (.error e)) ψ
  | .start k, φ => φ.After { φ with started := true } φ.start (fun ψ => Leaves R (k (.ok ())) ψ)
    fun ψ => ∀ e, Leaves R (k (.error e)) ψ
  | .commit k, φ => φ.After { φ with issued := true } φ.commit (fun ψ => Leaves R (k (.ok ())) ψ)
    fun ψ => ∀ e, Leaves R (k (.error e)) ψ
  | .rollback k, φ =>
    φ.After φ φ.close (fun ψ => Leaves R (k (.ok ())) ψ) fun ψ => ∀ e, Leaves R (k (.error e)) ψ
  | .abort p, φ => Leaves R p φ.abort

theorem Phase.After.imp {φ refused effected : Phase} {ok err ok' err' : Phase → Prop}
    (h : φ.After refused effected ok err) (hok : ∀ ψ, ok ψ → ok' ψ) (herr : ∀ ψ, err ψ → err' ψ) :
    φ.After refused effected ok' err' :=
  ⟨h.1, hok _ h.2.1, herr _ h.2.2.1, herr _ h.2.2.2.1, herr _ h.2.2.2.2⟩

theorem Leaves.bind {B : Type} {R : B → Phase → Prop} {R' : A → Phase → Prop} {f : A → Prog D K W B}
    (hf : ∀ r ψ, R' r ψ → Leaves R (f r) ψ) {p : Prog D K W A} {φ : Phase} (h : Leaves R' p φ) :
    Leaves R (p.bind f) φ := by
  induction p generalizing φ with
  | ret r => exact hf r φ h
  | halt => exact h
  | ask k ih => exact fun r => ih r (h r)
  | query q k ih => exact h.imp (fun _ h a => ih _ (h a)) fun _ h e => ih _ (h e)
  | stmt s k ih => exact h.imp (fun _ h a => ih _ (h a)) fun _ h e => ih _ (h e)
  | start k ih => exact h.imp (fun _ h => ih _ h) fun _ h e => ih _ (h e)
  | commit k ih => exact h.imp (fun _ h => ih _ h) fun _ h e => ih _ (h e)
  | rollback k ih => exact h.imp (fun _ h => ih _ h) fun _ h e => ih _ (h e)
  | abort p ih => exact ih h

/-! ### Throwing programs -/

/-- `Q` holds of every value `x` returns, and `E` where it throws. -/
def Ends (E : Phase → Prop) (Q : α → Phase → Prop) (x : Sql D K W α) (φ : Phase) : Prop :=
  Leaves (fun r ψ => match r with
    | .ok b => Q b ψ
    | .error _ => E ψ) x φ

namespace Ends

variable {E E' : Phase → Prop} {Q : α → Phase → Prop} {φ : Phase}

theorem pure {b : α} (h : Q b φ) : Ends E Q (pure b : Sql D K W α) φ := h

theorem throw {e : String} (h : E φ) : Ends E Q (Sql.throw e : Sql D K W α) φ := h

theorem bind {Q : β → Phase → Prop} {x : Sql D K W α} {f : α → Sql D K W β}
    (h : Ends E (fun b ψ => Ends E Q (f b) ψ) x φ) : Ends E Q (x >>= f) φ :=
  Leaves.bind (fun r ψ hr => by cases r <;> exact hr) h

theorem catching {x : Sql D K W α} {f : String → Sql D K W α} (h : Ends E' Q x φ)
    (hf : ∀ e ψ, E' ψ → Ends E Q (f e) ψ) : Ends E Q (Sql.catching x f) φ :=
  Leaves.bind (fun r ψ hr => by
    cases r with
    | ok b => exact hr
    | error e => exact hf e ψ hr) h

theorem outcome {R : A → Phase → Prop} {x : Sql D K W α} {f : Except String α → A} (h : Ends E Q x φ)
    (hok : ∀ b ψ, Q b ψ → R (f (.ok b)) ψ) (herr : ∀ e ψ, E ψ → R (f (.error e)) ψ) :
    Leaves R (Sql.outcome x f) φ :=
  .bind (fun r ψ hr => by
    cases r with
    | ok b => exact hok b ψ hr
    | error e => exact herr e ψ hr) h

theorem abort {Q : Unit → Phase → Prop} (h : Q () φ.abort) : Ends E Q (Sql.abort : Sql D K W Unit) φ := h

theorem exec_auto {s : Stmt D K W α} (hopen : φ.aborted = false) (h : ∀ b, Q b φ.write) (hE : E φ)
    (hE' : E φ.write) (hE'' : E φ.close) : Ends E Q (Sql.exec s) φ :=
  ⟨hopen, h, fun _ => hE, fun _ => hE', fun _ => hE''⟩

theorem select_auto {q : D → α} (hopen : φ.aborted = false) (h : ∀ b, Q b φ) (hE : E φ)
    (hE' : E φ.close) : Ends E Q (Sql.select q : Sql D K W α) φ :=
  ⟨hopen, h, fun _ => hE, fun _ => hE, fun _ => hE'⟩

/-! In a transaction no failure leaves anything committed. -/

theorem start {Q : Unit → Phase → Prop} (h : Q () .inside) :
    Ends Phase.Clean Q (Sql.start : Sql D K W Unit) .outside :=
  ⟨rfl, h, fun _ _ => rfl, fun _ _ => rfl, fun _ _ => rfl⟩

theorem commit {Q : Unit → Phase → Prop} (h : Q () Phase.inside.commit) :
    Ends Phase.Clean Q (Sql.commit : Sql D K W Unit) .inside :=
  ⟨rfl, h, fun _ _ => rfl, fun _ _ => rfl, fun _ _ => rfl⟩

theorem rollback {Q : Unit → Phase → Prop} (h : Q () Phase.inside.close) :
    Ends Phase.Clean Q (Sql.rollback : Sql D K W Unit) .inside :=
  ⟨rfl, h, fun _ _ => rfl, fun _ _ => rfl, fun _ _ => rfl⟩

theorem exec {s : Stmt D K W α} (h : ∀ b, Q b .inside) : Ends Phase.Clean Q (Sql.exec s) .inside :=
  exec_auto rfl h (fun _ => rfl) (fun _ => rfl) fun _ => rfl

theorem select {q : D → α} (h : ∀ b, Q b .inside) :
    Ends Phase.Clean Q (Sql.select q : Sql D K W α) .inside :=
  select_auto rfl h (fun _ => rfl) fun _ => rfl

end Ends

/-! ### Phases of a connection -/

/-- `φ` is what the program on `l` knows of it. A connection may have been aborted from outside, which
    the program learns by its next failure only. -/
structure Link.Shows (l : Link W) (φ : Phase) : Prop where
  opened : l.aborted = false → φ.opened = l.tx.isSome
  aborted : φ.aborted = true → l.aborted = true
  lost : l.aborted = true → l.tx = none
  started : l.started = true → φ.started = true
  published : l.published ≠ [] → l.issued = true ∨ φ.stray = true

namespace Link.Shows

variable {l : Link W} {φ : Phase}

theorem abort (h : l.Shows φ) : l.abort.Shows φ :=
  ⟨by rintro ⟨⟩, fun _ => rfl, fun _ => rfl, h.started, h.published⟩

theorem ended (h : l.Shows φ) : l.abort.Shows φ.abort :=
  ⟨by rintro ⟨⟩, fun _ => rfl, fun _ => rfl, h.started, h.published⟩

theorem close (h : l.Shows φ) : l.close.Shows φ.close :=
  ⟨fun _ => rfl, h.aborted, fun _ => rfl, h.started, h.published⟩

theorem write (h : l.Shows φ) (hl : l.aborted = false) (ws : List W) : (l.write ws).Shows φ.write := by
  have hopened := h.opened hl
  unfold Link.write
  split
  · rename_i htx
    rw [htx] at hopened
    exact ⟨fun _ => hopened.trans (by simp [htx]), h.aborted, fun _ => htx, h.started,
      fun _ => .inr (by simp [Phase.write, hopened])⟩
  · rename_i us htx
    refine ⟨fun _ => hopened.trans (by simp [htx]), h.aborted, fun hab => ?_, h.started, fun hne => ?_⟩
    · rw [hl] at hab
      cases hab
    · exact (h.published hne).imp_right fun hs => by simp [Phase.write, hs]

theorem start (h : l.Shows φ) (hl : l.aborted = false) : l.start.Shows φ.start := by
  have hopened := h.opened hl
  refine ⟨fun _ => rfl, h.aborted, fun hab => ?_, fun _ => rfl, fun hne => ?_⟩
  · rw [show l.start.aborted = l.aborted from rfl, hl] at hab
    cases hab
  · cases htx : l.tx with
    | none =>
      have hne : l.published ≠ [] := by simpa [Link.start, htx] using hne
      exact (h.published hne).imp_right fun hs => by simp [Phase.start, hs]
    | some ws =>
      rw [htx] at hopened
      exact .inr (by simp [Phase.start, hopened])

theorem commit (h : l.Shows φ) : l.commit.Shows φ.commit :=
  ⟨fun _ => rfl, h.aborted, fun _ => rfl, h.started, fun _ => .inl rfl⟩

/-- START and COMMIT are on record once they are issued. -/
theorem refused_start (h : l.Shows φ) :
    Link.Shows { l with started := true } { φ with started := true } :=
  ⟨h.opened, h.aborted, h.lost, fun _ => rfl, h.published⟩

theorem refused_commit (h : l.Shows φ) :
    Link.Shows { l with issued := true } { φ with issued := true } :=
  ⟨h.opened, h.aborted, h.lost, h.started, fun _ => .inl rfl⟩

/-- What an aborted connection refuses leaves it as it was, whatever the program expects. -/
theorem lost_at {ψ : Phase} (h : l.Shows φ) (hl : l.aborted = true) (hstarted : φ.started = true → ψ.started = true)
    (hstray : φ.stray = true → ψ.stray = true) : l.Shows ψ :=
  ⟨fun hab => absurd (hl.symm.trans hab) (by decide), fun _ => hl, h.lost, fun hs => hstarted (h.started hs),
    fun hne => (h.published hne).imp_right hstray⟩

variable {R : A → Phase → Prop}

/-- An action that is settled one way or the other leaves the program in a phase it provides for. -/
theorem settle {refused effected : Link W} {rφ eφ : Phase} {ok : Prog D K W A} {err : String → Prog D K W A}
    {okR : Phase → Prop} (h : l.Shows φ) (hok : okR eφ → Leaves R ok eφ)
    (hafter : φ.After rφ eφ okR fun ψ => ∀ e, Leaves R (err e) ψ) (hrefused : refused.Shows rφ)
    (heffected : l.aborted = false → effected.Shows eφ) (hstarted : φ.started = true → rφ.started = true)
    (hstray : φ.stray = true → rφ.stray = true) (ending : Ending) :
    ∃ ψ, (l.settle refused effected ok err ending).1.Shows ψ ∧
      Leaves R (l.settle refused effected ok err ending).2 ψ := by
  obtain ⟨-, hdone, hfailed, hunheard, hrolled⟩ := hafter
  unfold Link.settle
  split
  · rename_i hl
    exact ⟨rφ, h.lost_at hl hstarted hstray, hfailed _⟩
  rename_i hl
  have hl : l.aborted = false := by simpa using hl
  cases ending with
  | done => exact ⟨eφ, heffected hl, hok hdone⟩
  | failed e => exact ⟨rφ, hrefused, hfailed e⟩
  | unheard e => exact ⟨eφ, heffected hl, hunheard e⟩
  | rolledBack e => exact ⟨rφ.close, hrefused.close, hrolled e⟩

end Link.Shows

/-- Every action on a connection leads to a phase the program provides for. -/
theorem Leaves.perform {R : A → Phase → Prop} {l l' : Link W} {φ : Phase} {p p' : Prog D K W A} {n : ℕ}
    {d : D} {ending : Ending} (hp : Leaves R p φ) (h : l.Shows φ)
    (hact : l.perform p n d ending = some (l', p')) : ∃ ψ, l'.Shows ψ ∧ Leaves R p' ψ := by
  cases p with
  | ret r => cases hact
  | halt => cases hact
  | ask k =>
    cases hact
    exact ⟨φ, h, by split <;> exact hp _⟩
  | query q k =>
    obtain ⟨rfl, rfl⟩ := Prod.mk.inj (Option.some.inj hact)
    exact h.settle (fun h => h _) hp h (fun _ => h) id id ending
  | stmt s k =>
    simp only [Link.perform] at hact
    split at hact
    · cases hact
      exact ⟨φ, h, hp.2.2.1 _⟩
    obtain ⟨rfl, rfl⟩ := Prod.mk.inj (Option.some.inj hact)
    exact h.settle (fun h => h _) hp h (fun hl => h.write hl _) id id ending
  | start k =>
    obtain ⟨rfl, rfl⟩ := Prod.mk.inj (Option.some.inj hact)
    exact h.settle id hp h.refused_start h.start (fun _ => rfl) id ending
  | commit k =>
    obtain ⟨rfl, rfl⟩ := Prod.mk.inj (Option.some.inj hact)
    exact h.settle id hp h.refused_commit (fun _ => h.commit) id id ending
  | rollback k =>
    obtain ⟨rfl, rfl⟩ := Prod.mk.inj (Option.some.inj hact)
    exact h.settle id hp h (fun _ => h.close) id id ending
  | abort p =>
    cases hact
    exact ⟨φ.abort, h.ended, hp⟩

/-! ### Phases of a session -/

section sessions

variable [Rows D K W] [DecidableEq K] {Op : Type} {R : A → Phase → Prop} {s s' : Sys D K W A Op}
  {σ : Session D K W A Op} {φ : Phase} {i n : ℕ}

/-- The session an event is about. -/
def Event.session : Event Op → Option ℕ
  | .begin _ => none
  | .act i _ | .fault i _ | .orphan i _ _ => some i

def Event.orphans : Event Op → Bool
  | .orphan _ _ _ => true
  | _ => false

/-- In the run of `evs`, session `i` commits nothing and leaves no commit to the server. -/
def Sys.Idle (program : Op → Prog D K W A) (i : ℕ) : Sys D K W A Op → List (Event Op) → Prop
  | _, [] => True
  | s, ev :: evs => ∀ s', s.step program ev = some s' →
    (ev.session = some i → s'.versions = s.versions ∧ ev.orphans = false) ∧ s'.Idle program i evs

/-- Session `i` moves on to a phase it provides for. -/
def Sys.Moves (R : A → Phase → Prop) (i : ℕ) (φ : Phase) (s s' : Sys D K W A Op) : Prop :=
  ∃ (υ : Session D K W A Op) (ψ : Phase), s'.sessions[i]? = some υ ∧ Leaves R υ.prog ψ ∧
    ψ.opened = υ.tx.isSome ∧ (φ.touched = true → ψ.touched = true) ∧
    (s'.versions = s.versions ∨ ψ.touched = true)

variable {υ : Session D K W A Op} {p : Prog D K W A} {program : Op → Prog D K W A} {ev : Event Op}

omit [Rows D K W] [DecidableEq K] in
theorem Sys.Moves.put (hi : s.sessions[i]? = some σ) {ψ : Phase}
    (hp : Leaves R υ.prog ψ) (hopened : ψ.opened = υ.tx.isSome)
    (htouched : φ.touched = true → ψ.touched = true) : Sys.Moves R i φ s (s.put i υ) :=
  ⟨υ, ψ, List.getElem?_set_self (List.getElem?_eq_some_iff.1 hi).1, hp, hopened, htouched, .inl rfl⟩

omit [DecidableEq K] in
theorem Sys.Moves.close (hi : s.sessions[i]? = some σ) {x : Tx K W} {ψ : Phase}
    (hp : Leaves R p ψ) (hopened : ψ.opened = false) (htouched : ψ.touched = true) :
    Sys.Moves R i φ s (s.close i σ x p) :=
  ⟨_, ψ, List.getElem?_set_self (List.getElem?_eq_some_iff.1 hi).1, hp, hopened, fun _ => htouched,
    .inr htouched⟩

theorem Leaves.moves (hi : s.sessions[i]? = some σ) (hp : Leaves R σ.prog φ)
    (hopened : φ.opened = σ.tx.isSome) (h : s.perform i σ n = some s') : Sys.Moves R i φ s s' := by
  obtain ⟨op, began, a, prog, tx, dn⟩ := σ
  cases prog with
  | ret r => cases h
  | halt => cases h
  | ask k => cases h; exact .put hi (hp _) hopened id
  | query q k =>
    cases tx with
    | none => cases h; exact .put hi (hp.2.1 _) hopened id
    | some x =>
      simp only [Sys.perform] at h
      split at h
      · cases h
        exact .put hi (hp.2.1 _) hopened id
      obtain ⟨v, -, rfl⟩ := map_eq_some_iff.1 h
      exact .put hi (hp.2.1 _) hopened id
  | stmt st k =>
    have htouched : φ.touched = true → φ.write.touched = true := by
      simp only [Phase.touched, Phase.write, Bool.or_eq_true]
      exact .imp_right .inl
    cases tx with
    | none =>
      simp only [Sys.perform] at h
      split at h
      · cases h
        exact .put hi (hp.2.2.1 _) hopened id
      split at h
      · cases h
        exact .close hi (hp.2.1 _) hopened (by simp [Phase.touched, Phase.write, hopened])
      · cases h
    | some x =>
      simp only [Sys.perform] at h
      split at h
      · cases h
        exact .put hi (hp.2.2.1 _) hopened id
      split at h
      · cases h
        exact .put hi (hp.2.1 _) hopened htouched
      · cases h
  | start k =>
    cases tx with
    | none =>
      cases h
      refine .put hi hp.2.1 rfl ?_
      simp only [Phase.touched, Phase.start, Bool.or_eq_true]
      exact .imp_right .inl
    | some x => cases h
  | commit k =>
    cases tx with
    | none => cases h; exact .put hi hp.2.1 rfl fun _ => rfl
    | some x => cases h; exact .close hi hp.2.1 rfl rfl
  | rollback k => cases h; exact .put hi hp.2.1 rfl id
  | abort p => cases h; exact .put hi hp rfl id

omit [Rows D K W] [DecidableEq K] in
theorem Leaves.fail {p' : Prog D K W A} {e : String} (hp : Leaves R p φ) (h : p.fail e = some p') :
    ∃ ψ, Leaves R p' ψ ∧ ψ.opened = φ.opened ∧ (φ.touched = true → ψ.touched = true) := by
  cases p <;> cases h
  case ask => exact ⟨φ, hp _, rfl, id⟩
  case query => exact ⟨φ, hp.2.2.1 e, rfl, id⟩
  case stmt => exact ⟨φ, hp.2.2.1 e, rfl, id⟩
  case start => exact ⟨_, hp.2.2.1 e, rfl, id⟩
  case commit => exact ⟨_, hp.2.2.1 e, rfl, fun _ => rfl⟩
  case rollback => exact ⟨φ, hp.2.2.1 e, rfl, id⟩

omit [Rows D K W] [DecidableEq K] in
theorem Sys.strand_self (hlt : i < s.sessions.length) {x : Tx K W} :
    (s.strand i σ x p).sessions[i]? = some { σ with prog := p, tx := none } := by
  rw [Sys.strand, List.getElem?_append_left (by simpa using hlt), List.getElem?_set_self hlt]

theorem Sys.orphan_strands {e : String} (hs : s.step program (.orphan i n e) = some s') :
    ∃ σ x p, s.sessions[i]? = some σ ∧ s' = s.strand i σ x p := by
  obtain ⟨σ, hσ, hs⟩ := bind_eq_some_iff.1 hs
  split at hs
  · exact ⟨σ, _, _, hσ, (Option.some.inj hs).symm⟩
  · split at hs
    · cases hs
    split at hs
    · exact ⟨σ, _, _, hσ, (Option.some.inj hs).symm⟩
    · cases hs
  · cases hs

/-- Every event of a session leads to a phase it provides for; a commit that is left to the server
    counts as one. -/
theorem Leaves.step (hi : s.sessions[i]? = some σ)
    (hp : Leaves R σ.prog φ) (hopened : φ.opened = σ.tx.isSome) (hs : s.step program ev = some s')
    (hev : ev.session = some i) : ∃ υ ψ, s'.sessions[i]? = some υ ∧ Leaves R υ.prog ψ ∧
      ψ.opened = υ.tx.isSome ∧ (φ.touched = true → ψ.touched = true) ∧
      (s'.versions = s.versions ∧ ev.orphans = false ∨ ψ.touched = true) := by
  have hlt := (List.getElem?_eq_some_iff.1 hi).1
  cases ev with
  | begin op => cases hev
  | act j m =>
    cases hev
    obtain ⟨τ, hτ, hs⟩ := bind_eq_some_iff.1 hs
    cases hi.symm.trans hτ
    obtain ⟨υ, ψ, hυ, hψ, ho, ht, hv⟩ := hp.moves hi hopened hs
    exact ⟨υ, ψ, hυ, hψ, ho, ht, hv.imp_left fun h => ⟨h, rfl⟩⟩
  | fault j e =>
    cases hev
    obtain ⟨τ, hτ, hs⟩ := bind_eq_some_iff.1 hs
    cases hi.symm.trans hτ
    obtain ⟨p, hfail, rfl⟩ := map_eq_some_iff.1 hs
    obtain ⟨ψ, hψ, ho, ht⟩ := hp.fail hfail
    exact ⟨_, ψ, getElem?_set_self hlt, hψ, ho.trans hopened, ht, .inl ⟨rfl, rfl⟩⟩
  | orphan j m e =>
    cases hev
    obtain ⟨τ, hτ, hs⟩ := bind_eq_some_iff.1 hs
    cases hi.symm.trans hτ
    split at hs
    · rename_i k x hk hx
      cases hs
      rw [hk] at hp
      exact ⟨_, _, strand_self hlt, hp.2.2.2.1 e, rfl, fun _ => rfl, .inr rfl⟩
    · rename_i st k hk hx
      rw [hk] at hp
      have htouched : φ.write.touched = true := by
        simp [Phase.touched, Phase.write, hopened, hx]
      split at hs
      · cases hs
      split at hs
      · cases hs
        exact ⟨_, _, strand_self hlt, hp.2.2.2.1 e, hopened.trans (by simp [hx]), fun _ => htouched,
          .inr htouched⟩
      · cases hs
    · cases hs

omit [Rows D K W] [DecidableEq K] in
theorem Sys.getElem?_put_ne {j : ℕ} (h : j ≠ i) (υ : Session D K W A Op) :
    (s.put i υ).sessions[j]? = s.sessions[j]? :=
  List.getElem?_set_ne (.symm h)

/-- The events of other sessions do not move a session. -/
theorem Sys.session_kept (hi : s.sessions[i]? = some σ)
    (hs : s.step program ev = some s') (hev : ev.session ≠ some i) : s'.sessions[i]? = some σ := by
  have hlt := (List.getElem?_eq_some_iff.1 hi).1
  cases ev with
  | begin op => cases hs; exact (getElem?_append_left hlt).trans hi
  | act j m =>
    obtain ⟨τ, hτ, hs⟩ := bind_eq_some_iff.1 hs
    have hji : j ≠ i := fun e => hev (by rw [e]; rfl)
    obtain ⟨υ, hυ, -⟩ := sessions_perform hs
    rw [hυ, getElem?_set_ne hji]
    exact hi
  | fault j e =>
    obtain ⟨τ, hτ, hs⟩ := bind_eq_some_iff.1 hs
    obtain ⟨p, -, rfl⟩ := map_eq_some_iff.1 hs
    have hji : i ≠ j := fun e => hev (by rw [e]; rfl)
    rw [getElem?_put_ne hji]
    exact hi
  | orphan j m e =>
    have hji : j ≠ i := fun e => hev (by rw [e]; rfl)
    obtain ⟨τ, x, p, -, rfl⟩ := orphan_strands hs
    rw [Sys.strand, getElem?_append_left (by simpa using hlt), getElem?_set_ne hji, hi]

/-- A session whose answer is one that `R` grants to an untouched phase only has committed nothing. -/
theorem Leaves.idle {r : A} (hR : ∀ ψ, R r ψ → ψ.touched = false) (hr : υ.prog = .ret r) :
    ∀ {evs : List (Event Op)} {s : Sys D K W A Op} {σ : Session D K W A Op} {φ : Phase},
      s.sessions[i]? = some σ → Leaves R σ.prog φ → φ.opened = σ.tx.isSome →
      s.run program evs = some s' → s'.sessions[i]? = some υ →
      s.Idle program i evs ∧ φ.touched = false
  | [], s, σ, φ, hi, hp, _, hrun, hυ => by
    cases hrun
    cases hi.symm.trans hυ
    rw [hr] at hp
    exact ⟨trivial, hR φ hp⟩
  | ev :: evs, s, σ, φ, hi, hp, hopened, hrun, hυ => by
    obtain ⟨t, ht, hrun⟩ := bind_eq_some_iff.1 (show (s.step program ev).bind _ = _ from hrun)
    by_cases hev : ev.session = some i
    · obtain ⟨τ, ψ, hτ, hψ, ho, htouched, hv⟩ := hp.step hi hopened ht hev
      obtain ⟨hidle, hψt⟩ := Leaves.idle hR hr hτ hψ ho hrun hυ
      refine ⟨fun t' ht' => ?_, ?_⟩
      · cases ht.symm.trans ht'
        refine ⟨fun _ => hv.resolve_right fun h => ?_, hidle⟩
        rw [hψt] at h
        cases h
      · by_contra h
        rw [htouched (by simpa using h)] at hψt
        cases hψt
    · obtain ⟨hidle, hφt⟩ := Leaves.idle hR hr (session_kept hi ht hev) hp hopened hrun hυ
      refine ⟨fun t' ht' => ?_, hφt⟩
      cases ht.symm.trans ht'
      exact ⟨fun h => absurd h hev, hidle⟩

theorem Sys.op_step (hi : s.sessions[i]? = some σ)
    (hs : s.step program ev = some s') : ∃ υ, s'.sessions[i]? = some υ ∧ υ.op = σ.op := by
  by_cases hev : ev.session = some i
  · have hlt := (List.getElem?_eq_some_iff.1 hi).1
    cases ev with
    | begin op => cases hev
    | act j m =>
      cases hev
      obtain ⟨τ, hτ, hs⟩ := bind_eq_some_iff.1 hs
      cases hi.symm.trans hτ
      obtain ⟨υ, hυ, hop, -⟩ := sessions_perform hs
      exact ⟨υ, by rw [hυ, getElem?_set_self hlt], hop⟩
    | fault j e =>
      cases hev
      obtain ⟨τ, hτ, hs⟩ := bind_eq_some_iff.1 hs
      cases hi.symm.trans hτ
      obtain ⟨p, -, rfl⟩ := map_eq_some_iff.1 hs
      exact ⟨_, getElem?_set_self hlt, rfl⟩
    | orphan j m e =>
      cases hev
      obtain ⟨τ, x, p, hτ, rfl⟩ := orphan_strands hs
      cases hi.symm.trans hτ
      exact ⟨_, strand_self hlt, rfl⟩
  · exact ⟨σ, session_kept hi hs hev, rfl⟩

theorem Sys.op_run :
    ∀ {evs : List (Event Op)} {s : Sys D K W A Op} {σ : Session D K W A Op}, s.sessions[i]? = some σ →
      s.run program evs = some s' → s'.sessions[i]? = some υ → υ.op = σ.op
  | [], _, _, hi, hrun, hυ => by
    cases hrun
    rw [Option.some.inj (hi.symm.trans hυ)]
  | ev :: evs, s, _, hi, hrun, hυ => by
    obtain ⟨t, ht, hrun⟩ := bind_eq_some_iff.1 (show (s.step program ev).bind _ = _ from hrun)
    obtain ⟨τ, hτ, hop⟩ := op_step hi ht
    exact (op_run hτ hrun hυ).trans hop

theorem Sys.begun :
    ∀ {evs : List (Event Op)} {s : Sys D K W A Op}, s.run program evs = some s' →
      ∀ σ ∈ s'.sessions, (∃ τ ∈ s.sessions, τ.op = σ.op) ∨ .begin σ.op ∈ evs
  | [], _, hrun, σ, hσ => by
    cases hrun
    exact .inl ⟨σ, hσ, rfl⟩
  | ev :: evs, s, hrun, σ, hσ => by
    obtain ⟨t, ht, hrun⟩ := bind_eq_some_iff.1 (show (s.step program ev).bind _ = _ from hrun)
    rcases Sys.begun hrun σ hσ with ⟨τ, hτ, hop⟩ | hmem
    · rcases (sessions_step ht).1 τ hτ with ⟨ρ, hρ, hop', -⟩ | ⟨rfl, -⟩
      · exact .inl ⟨ρ, hρ, hop'.symm.trans hop⟩
      · exact .inr (hop ▸ mem_cons_self)
    · exact .inr (mem_cons_of_mem _ hmem)

/-- A session is new by `begin`, or it is a commit that was left to the server. -/
theorem Sys.session_new
    (hs : s.step program ev = some s') (hnew : s.sessions.length ≤ i) (hi : s'.sessions[i]? = some σ) :
    σ.prog = program σ.op ∧ σ.tx = none ∨ σ.prog = .headless ∧ σ.tx.isSome = true := by
  have hold : ∀ {ρ : Session D K W A Op}, s.sessions[i]? ≠ some ρ := fun h =>
    absurd (List.getElem?_eq_some_iff.1 h).1 (Nat.not_lt.2 hnew)
  cases ev with
  | begin op =>
    cases hs
    rcases of_push hi with h | ⟨-, rfl⟩
    · exact absurd h hold
    · exact .inl ⟨rfl, rfl⟩
  | act j m =>
    obtain ⟨τ, hτ, hs⟩ := bind_eq_some_iff.1 hs
    obtain ⟨υ, hυ, -⟩ := sessions_perform hs
    have hlt := (List.getElem?_eq_some_iff.1 hi).1
    rw [hυ, length_set] at hlt
    exact absurd hlt (Nat.not_lt.2 hnew)
  | fault j e =>
    obtain ⟨τ, hτ, hs⟩ := bind_eq_some_iff.1 hs
    obtain ⟨p, -, rfl⟩ := map_eq_some_iff.1 hs
    have hlt := (List.getElem?_eq_some_iff.1 hi).1
    rw [Sys.put, length_set] at hlt
    exact absurd hlt (Nat.not_lt.2 hnew)
  | orphan j m e =>
    obtain ⟨τ, x, p, hτ, rfl⟩ := orphan_strands hs
    rcases of_push (s := s.put j { τ with prog := p, tx := none }) hi with h | ⟨-, rfl⟩
    · rcases of_put h with ⟨rfl, -⟩ | ⟨-, h⟩
      · exact absurd hτ hold
      · exact absurd h hold
    · exact .inr ⟨rfl, rfl⟩

omit [Rows D K W] [DecidableEq K] in
/-- A commit without a client gives no answer. -/
theorem Leaves.headless : Leaves R (Prog.headless : Prog D K W A) { opened := true } :=
  ⟨rfl, trivial, fun _ => trivial, fun _ => trivial, fun _ => trivial⟩

/-- The same for a session that begins in the run. -/
theorem Leaves.idle_new {R : Op → A → Phase → Prop} (hprog : ∀ op, Leaves (R op) (program op) .outside)
    {r : A} (hR : ∀ ψ, R υ.op r ψ → ψ.touched = false) (hr : υ.prog = .ret r) :
    ∀ {evs : List (Event Op)} {s : Sys D K W A Op}, s.sessions.length ≤ i →
      s.run program evs = some s' → s'.sessions[i]? = some υ → s.Idle program i evs
  | [], _, _, _, _ => trivial
  | ev :: evs, s, hnew, hrun, hυ => by
    obtain ⟨t, ht, hrun⟩ := bind_eq_some_iff.1 (show (s.step program ev).bind _ = _ from hrun)
    intro t' ht'
    cases ht.symm.trans ht'
    have hnone : s.sessions[i]? = none := getElem?_eq_none hnew
    refine ⟨fun hev => ?_, ?_⟩
    · cases ev <;> cases hev <;> simp [Sys.step, hnone] at ht
    · cases hi : t.sessions[i]? with
      | none => exact Leaves.idle_new hprog hR hr (getElem?_eq_none_iff.1 hi) hrun hυ
      | some σ =>
        have hop : υ.op = σ.op := op_run hi hrun hυ
        have hstart : ∃ φ, Leaves (R υ.op) σ.prog φ ∧ φ.opened = σ.tx.isSome := by
          rcases session_new ht hnew hi with ⟨hp, htx⟩ | ⟨hp, htx⟩
          · exact ⟨.outside, by rw [hp, hop]; exact hprog σ.op, by simp [htx, Phase.outside]⟩
          · exact ⟨_, by rw [hp]; exact Leaves.headless, htx.symm⟩
        obtain ⟨φ, hφ, hopened⟩ := hstart
        exact (hφ.idle hR hr hi hopened hrun hυ).1

end sessions

end Txn
