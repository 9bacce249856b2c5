import Mathlib.Data.List.Basic
import Mathlib.Tactic.Common

/-! Transactional programs over a row store, at the granularity of single statements.

    A program is a tree of database actions: a consistent read (`query`), a statement that takes row
    locks (`stmt`), the transaction commands, and a question to the world outside the database
    (`ask`). Any number of sessions run such programs side by side. The store keeps every committed
    version; a transaction collects its row writes privately and publishes them with COMMIT; a
    statement waits (its step is not enabled) while another session holds a conflicting lock.

        session:  START ──▶ stmt / query … ──▶ COMMIT ──▶ answer
                              │ fault at any action   │ connection given up
                              ▼                       ▼
                            abort                 headless COMMIT, which the server
                            (all dropped)         carries out, or not, at any later time -/

namespace Txn

inductive Mode where | shared | exclusive
  deriving DecidableEq

structure Lock (K : Type) where
  key : K
  mode : Mode
  deriving DecidableEq

/-- Two locks conflict when they name one key and one of them is exclusive. -/
def Lock.conflicts {K : Type} [DecidableEq K] (a b : Lock K) : Bool :=
  decide (a.key = b.key) && (decide (a.mode = .exclusive) || decide (b.mode = .exclusive))

/-- A row store: what a row write does, and the keys (primary and unique) of the row it writes. -/
class Rows (D : Type) (K W : outParam Type) where
  apply : W → D → D
  touches : W → List K

variable {D K W : Type} [Rows D K W]

/-- Row writes applied in the order they were made. -/
def applyAll (ws : List W) (d : D) : D := ws.foldl (fun d w => Rows.apply w d) d

@[simp] theorem applyAll_nil (d : D) : applyAll ([] : List W) d = d := rfl

@[simp] theorem applyAll_cons (w : W) (ws : List W) (d : D) :
    applyAll (w :: ws) d = applyAll ws (Rows.apply w d) := rfl

@[simp] theorem applyAll_append (us ws : List W) (d : D) :
    applyAll (us ++ ws) d = applyAll ws (applyAll us d) := by
  simp [applyAll]

/-- A part of the store that no write of the list changes. -/
theorem applyAll_untouched {β : Type} (f : D → β) :
    ∀ {ws : List W} {d : D}, (∀ w ∈ ws, ∀ d, f (Rows.apply w d) = f d) → f (applyAll ws d) = f d
  | [], _, _ => rfl
  | w :: _, d, h =>
    (applyAll_untouched f fun u hu => h u (List.mem_cons_of_mem _ hu)).trans (h w List.mem_cons_self d)

theorem applyAll_map {ι β : Type} (f : D → β) {w : ι → W} (is : List ι) (d : D)
    (h : (fun i d => f (Rows.apply (w i) d)) = fun _ => f) : f (applyAll (is.map w) d) = f d :=
  applyAll_untouched f fun _ hu d => by
    obtain ⟨i, -, rfl⟩ := List.mem_map.1 hu
    exact congrFun (congrFun h i) d

/-- What a successful statement does: its answer, the locks it takes to read, the rows it writes. -/
structure Effect (K W α : Type) where
  reply : α
  reads : List (Lock K) := []
  writes : List W := []

/-- Every written row is locked exclusively, under each of its keys. -/
def Effect.locks (D : Type) [Rows D K W] {α : Type} (e : Effect K W α) : List (Lock K) :=
  e.reads ++ (e.writes.flatMap (Rows.touches D)).map (⟨·, .exclusive⟩)

/-- A statement: from the number the server would hand out for an AUTO_INCREMENT column and the rows
    the transaction sees now, an effect or an error (a unique key already taken). -/
abbrev Stmt (D K W α : Type) := ℕ → D → Except String (Effect K W α)

/-- Programs. The continuation of an action takes its answer or the text of the failure; `halt` is
    the end of a program whose client is gone. -/
inductive Prog (D K W A : Type) : Type 1 where
  | ret (a : A)
  | halt
  | ask (next : Except String ℕ → Prog D K W A)
  | query {α : Type} (q : D → α) (next : Except String α → Prog D K W A)
  | stmt {α : Type} (s : Stmt D K W α) (next : Except String α → Prog D K W A)
  | start (next : Except String Unit → Prog D K W A)
  | commit (next : Except String Unit → Prog D K W A)
  | rollback (next : Except String Unit → Prog D K W A)
  | abort (next : Prog D K W A)

namespace Prog

variable {A B : Type}

/-- Sequencing: go on with `f` where the first program returns. -/
def bind : Prog D K W A → (A → Prog D K W B) → Prog D K W B
  | .ret a, f => f a
  | .halt, _ => .halt
  | .ask k, f => .ask fun r => (k r).bind f
  | .query q k, f => .query q fun r => (k r).bind f
  | .stmt s k, f => .stmt s fun r => (k r).bind f
  | .start k, f => .start fun r => (k r).bind f
  | .commit k, f => .commit fun r => (k r).bind f
  | .rollback k, f => .rollback fun r => (k r).bind f
  | .abort p, f => .abort (p.bind f)

/-- The program after its next action has failed; closing a connection cannot fail. -/
def fail (e : String) : Prog D K W A → Option (Prog D K W A)
  | .ask k => some (k (.error e))
  | .query _ k => some (k (.error e))
  | .stmt _ k => some (k (.error e))
  | .start k => some (k (.error e))
  | .commit k => some (k (.error e))
  | .rollback k => some (k (.error e))
  | .ret _ | .halt | .abort _ => none

/-- A COMMIT that nobody waits for. -/
def headless : Prog D K W A := .commit fun
  | .ok _ => .halt
  | .error _ => .abort .halt

end Prog

/-- The program has come to its end. -/
def Prog.over {A : Type} : Prog D K W A → Bool
  | .ret _ | .halt => true
  | _ => false

/-- Programs that may throw, as coroutines over a connection do. -/
def Sql (D K W α : Type) := Prog D K W (Except String α)

namespace Sql

variable {α β : Type}

def bind (x : Sql D K W α) (f : α → Sql D K W β) : Sql D K W β :=
  Prog.bind x fun
    | .ok a => f a
    | .error e => .ret (.error e)

instance : Monad (Sql D K W) where
  pure a := .ret (.ok a)
  bind := bind

def throw (e : String) : Sql D K W α := .ret (.error e)

/-- Run `x`; an exception it throws is handed to `h`. -/
def catching (x : Sql D K W α) (h : String → Sql D K W α) : Sql D K W α :=
  Prog.bind x fun
    | .ok a => .ret (.ok a)
    | .error e => h e

/-- Map the outcome, exception included, to a value. -/
def outcome {A : Type} (x : Sql D K W α) (f : Except String α → A) : Prog D K W A :=
  .bind x fun r => .ret (f r)

def select (q : D → α) : Sql D K W α := .query q .ret
def exec (s : Stmt D K W α) : Sql D K W α := .stmt s .ret
def start : Sql D K W Unit := Prog.start .ret
def commit : Sql D K W Unit := Prog.commit .ret
def rollback : Sql D K W Unit := Prog.rollback .ret
def abort : Sql D K W Unit := Prog.abort (.ret (.ok ()))
def ask : Sql D K W ℕ := Prog.ask .ret

end Sql

/-! ### Sessions side by side -/

/-- An open transaction: its private writes, its locks with the version at which each was granted,
    and the version its consistent reads see (fixed by the first of them). -/
structure Tx (K W : Type) where
  writes : List W := []
  held : List (Lock K × ℕ) := []
  view : Option ℕ := none

/-- The transaction after one more statement. -/
def Tx.add (D : Type) [Rows D K W] {α : Type} (x : Tx K W) (e : Effect K W α) (t : ℕ) : Tx K W :=
  { x with writes := x.writes ++ e.writes, held := x.held ++ (e.locks D).map (·, t) }

def Tx.locks (x : Tx K W) : List (Lock K) := x.held.map (·.1)

/-- A committed version, with the locks of the transaction that wrote it. -/
structure Version (D K : Type) where
  db : D
  locks : List (Lock K)

/-- A running (or finished) program: `seen` is the version at its last action, `done` the version
    its last commit produced. -/
structure Session (D K W A Op : Type) where
  op : Op
  began : ℕ
  seen : ℕ
  prog : Prog D K W A
  tx : Option (Tx K W) := none
  done : Option ℕ := none

def Session.locks {A Op : Type} (σ : Session D K W A Op) : List (Lock K) :=
  (σ.tx.map Tx.locks).getD []

/-- The store with its sessions; `past` holds the versions before the current one, oldest first. -/
structure Sys (D K W A Op : Type) where
  past : List (Version D K) := []
  cur : Version D K
  sessions : List (Session D K W A Op) := []

inductive Event (Op : Type) where
  /-- a new session starts to run an operation -/
  | begin (op : Op)
  /-- the next action of session `i` takes effect; `n` is the number given to it, if it needs one -/
  | act (i n : ℕ)
  /-- the next action of session `i` fails and has no effect -/
  | fault (i : ℕ) (e : String)
  /-- session `i` gives its connection up during a COMMIT or an autocommitted statement, whose
      commit is from then on up to the server alone -/
  | orphan (i n : ℕ) (e : String)

/-- The session that an event moves. -/
def Event.target {Op : Type} : Event Op → Option ℕ
  | .begin _ => none
  | .act i _ | .fault i _ | .orphan i _ _ => some i

namespace Sys

variable {A Op : Type}

def now (s : Sys D K W A Op) : ℕ := s.past.length

def versions (s : Sys D K W A Op) : List (Version D K) := s.past ++ [s.cur]

/-- Nothing has run yet. -/
def init (d : D) : Sys D K W A Op := { cur := ⟨d, []⟩ }

def put (s : Sys D K W A Op) (i : ℕ) (σ : Session D K W A Op) : Sys D K W A Op :=
  { s with sessions := s.sessions.set i σ }

def publish (s : Sys D K W A Op) (v : Version D K) : Sys D K W A Op :=
  { s with past := s.past ++ [s.cur], cur := v }

/-- No other session holds a lock in conflict with `ls`. -/
def free [DecidableEq K] (s : Sys D K W A Op) (i : ℕ) (ls : List (Lock K)) : Bool :=
  s.sessions.zipIdx.all fun (σ, j) =>
    decide (j = i) || σ.locks.all fun l => ls.all fun l' => !l.conflicts l'

/-- Publish the writes of an open transaction and close it. -/
def close (s : Sys D K W A Op) (i : ℕ) (σ : Session D K W A Op) (x : Tx K W)
    (p : Prog D K W A) : Sys D K W A Op :=
  (s.publish ⟨applyAll x.writes s.cur.db, x.locks⟩).put i
    { σ with prog := p, tx := none, seen := s.now + 1, done := some (s.now + 1) }

/-- The next action of session `i` takes effect. Outside a transaction every statement commits by
    itself. START inside a transaction and an action after the answer do not occur. -/
def perform [DecidableEq K] (s : Sys D K W A Op) (i : ℕ) (σ : Session D K W A Op) (n : ℕ) :
    Option (Sys D K W A Op) :=
  match σ.prog, σ.tx with
  | .ret _, _ | .halt, _ => none
  | .ask k, _ => some (s.put i { σ with prog := k (.ok n) })
  | .query q k, none => some (s.put i { σ with prog := k (.ok (q s.cur.db)), seen := s.now })
  | .query q k, some x =>
    match x.view with
    | none => some (s.put i { σ with
        prog := k (.ok (q (applyAll x.writes s.cur.db))), seen := s.now,
        tx := some { x with view := some s.now } })
    | some j => (s.versions[j]?).map fun v =>
        s.put i { σ with prog := k (.ok (q (applyAll x.writes v.db))) }
  | .stmt st k, none =>
    match st n s.cur.db with
    | .error e => some (s.put i { σ with prog := k (.error e) })
    | .ok e =>
      if s.free i (e.locks D) then
        some (s.close i σ (.add D {} e s.now) (k (.ok e.reply)))
      else none
  | .stmt st k, some x =>
    match st n (applyAll x.writes s.cur.db) with
    | .error e => some (s.put i { σ with prog := k (.error e) })
    | .ok e =>
      if s.free i (e.locks D) then
        some (s.put i { σ with
          prog := k (.ok e.reply), seen := s.now, tx := some (x.add D e s.now) })
      else none
  | .start k, none => some (s.put i { σ with prog := k (.ok ()), tx := some {} })
  | .start _, some _ => none
  | .commit k, none => some (s.put i { σ with prog := k (.ok ()) })
  | .commit k, some x => some (s.close i σ x (k (.ok ())))
  | .rollback k, _ => some (s.put i { σ with prog := k (.ok ()), tx := none })
  | .abort p, _ => some (s.put i { σ with prog := p, tx := none })

/-- Session `i` goes on with `p` while the server still holds its transaction `x`. -/
def strand (s : Sys D K W A Op) (i : ℕ) (σ : Session D K W A Op) (x : Tx K W) (p : Prog D K W A) :
    Sys D K W A Op :=
  { s with sessions := s.sessions.set i { σ with prog := p, tx := none } ++
      [{ σ with seen := s.now, prog := .headless, tx := some x, done := none }] }

def step [DecidableEq K] (program : Op → Prog D K W A) (s : Sys D K W A Op) :
    Event Op → Option (Sys D K W A Op)
  | .begin op => some { s with
      sessions := s.sessions ++ [{ op, began := s.now, seen := s.now, prog := program op }] }
  | .act i n => s.sessions[i]?.bind fun σ => s.perform i σ n
  | .fault i e => s.sessions[i]?.bind fun σ =>
      (σ.prog.fail e).map fun p => s.put i { σ with prog := p }
  | .orphan i n e => s.sessions[i]?.bind fun σ =>
      match σ.prog, σ.tx with
      | .commit k, some x => some (s.strand i σ x (k (.error e)))
      | .stmt st k, none =>
        match st n s.cur.db with
        | .error _ => none
        | .ok eff =>
          if s.free i (eff.locks D) then some (s.strand i σ (.add D {} eff s.now) (k (.error e)))
          else none
      | _, _ => none

/-- Run a list of events; `none` when one of them is not enabled. -/
def run [DecidableEq K] (program : Op → Prog D K W A) (s : Sys D K W A Op) (evs : List (Event Op)) :
    Option (Sys D K W A Op) :=
  evs.foldlM (step program) s

end Sys

end Txn
