import Imm.Schemes.Paths
import Imm.Store.Exits

/-! The MySQL side of `driver`: one connection for each shard, which the operations use one after the
    other.

    An operation holds `_mysql_slot` from the moment its connection is ready until it has answered. A
    connection that is marked aborted is replaced before it is used; a connection that could not be
    made stays behind marked aborted. `abort` may come at any time and makes every later action on the
    connection fail. What a statement meets and how it ends is up to the events. -/

namespace Imm

open Txn

/-- The outcome an operation reports. -/
def Reply.succeeded : Reply → Bool
  | .status n => decide (n = 0)
  | .accepted r => decide (r.error = .Success)
  | .groupAccepted r => decide (r.error = .Success)
  | .synced r => decide (r.error = .Success)
  | .acknowledged r => decide (r.updated = 1)
  | .group r => decide (r.error = .Success)
  | .file _ | .user _ | .friendList _ | .applyList _ => true
  | .thrown _ => false

/-- The operation that holds `_mysql_slot`. -/
structure MysqlCall where
  op : Operation
  prog : Prog Db Key Write Reply

structure MysqlDriver where
  mysql : Option (Link Write) := none
  running : Option MysqlCall := none
  stopping : Bool := false

inductive DriverEvent where
  /-- an operation gets the slot; `connects` tells how `connect_mysql` ends if it is called -/
  | execute (op : Operation) (connects : Bool)
  /-- the next action of the operation, with the number given to it and the rows it meets -/
  | act (n : ℕ) (rows : Db) (ending : Ending)
  /-- the operation answers and gives the slot back -/
  | finish
  | abort

namespace MysqlDriver

variable [Collation]

def begin (s : MysqlDriver) (link : Link Write) (op : Operation) : MysqlDriver :=
  { s with mysql := some link, running := some ⟨op, MysqlStore.execute op⟩ }

/-- `driver::execute` up to the operation itself: `check_running`, and a usable connection. -/
def execute (s : MysqlDriver) (op : Operation) (connects : Bool) : MysqlDriver :=
  if s.stopping then s
  else match s.mysql.filter (!·.aborted) with
    | some link => s.begin link.fresh op
    | none => if connects then s.begin {} op else { s with mysql := some { aborted := true } }

def step (s : MysqlDriver) : DriverEvent → Option MysqlDriver
  | .execute op connects => if s.running.isSome then none else some (s.execute op connects)
  | .act n rows ending =>
    match s.running, s.mysql with
    | some call, some link => (link.perform call.prog n rows ending).map fun (link, prog) =>
      { s with mysql := some link, running := some { call with prog } }
    | _, _ => none
  | .finish =>
    match s.running with
    | some ⟨_, .ret _⟩ => some { s with running := none }
    | _ => none
  | .abort => some { s with stopping := true, mysql := s.mysql.map .abort }

/-! ### Invariant -/

variable {s s' : MysqlDriver}

/-- While an operation runs, its connection is in a phase from which it exits in order; between operations
    no usable connection has an open transaction. -/
structure Disciplined (s : MysqlDriver) : Prop where
  running : ∀ call, s.running = some call → ∃ link φ, s.mysql = some link ∧ link.Shows φ ∧
    Leaves (Exit call.op) call.prog φ
  between : s.running = none → ∀ link, s.mysql = some link → link.aborted = true ∨ link.tx = none

omit [Collation] in
/-- At the end of an operation the phase tells what is left of its transaction. -/
theorem closed_of_tidy {link : Link Write} {φ : Phase} (h : link.Shows φ) (hφ : φ.Tidy) :
    link.aborted = true ∨ link.tx = none := by
  cases hl : link.aborted with
  | true => exact .inl rfl
  | false =>
    have hopened : φ.opened = false := hφ.closed.resolve_left fun hab => by
      rw [h.aborted hab] at hl
      cases hl
    rw [h.opened hl] at hopened
    exact .inr (by simpa using hopened)

omit [Collation] in
theorem disciplined_new : Disciplined {} := ⟨by simp, by simp⟩

/-- An operation begins on a connection without an open transaction, or not at all. -/
theorem Disciplined.execute_cases (h : Disciplined s) (hidle : s.running = none) (op : Operation)
    (connects : Bool) : s.execute op connects = s.begin {} op ∨ s.execute op connects = s ∨
      s.execute op connects = { s with mysql := some { aborted := true } } := by
  unfold MysqlDriver.execute
  split
  · exact .inr (.inl rfl)
  split
  · rename_i link hlink
    obtain ⟨hmysql, hused⟩ := Option.filter_eq_some_iff.1 hlink
    have hused : link.aborted = false := by simpa using hused
    have htx : link.tx = none :=
      (h.between hidle link hmysql).resolve_left fun hab => by simp [hab] at hused
    exact .inl (by simp [Link.fresh, htx, hused])
  · split
    · exact .inl rfl
    · exact .inr (.inr rfl)

theorem disciplined_begin (op : Operation) : Disciplined (s.begin {} op) where
  running := by
    rintro call ⟨⟩
    exact ⟨{}, .outside, rfl, ⟨fun _ => rfl, by rintro ⟨⟩, fun _ => rfl, by simp, fun h => absurd rfl h⟩,
      execute_exits op⟩
  between := by rintro ⟨⟩

theorem Disciplined.execute (h : Disciplined s) (hidle : s.running = none) (op : Operation)
    (connects : Bool) : Disciplined (s.execute op connects) := by
  rcases h.execute_cases hidle op connects with heq | heq | heq <;> rw [heq]
  · exact disciplined_begin op
  · exact h
  refine ⟨fun call hcall => ?_, fun _ link hlink => ?_⟩
  · rw [show s.running = some call from hcall] at hidle
    cases hidle
  · cases hlink
    exact .inl rfl

theorem Disciplined.step {e : DriverEvent} (h : Disciplined s) (hs : s.step e = some s') :
    Disciplined s' := by
  cases e with
  | execute op connects =>
    simp only [MysqlDriver.step] at hs
    split at hs
    · cases hs
    rename_i hidle
    cases hs
    exact h.execute (by simpa using hidle) op connects
  | act n rows ending =>
    simp only [MysqlDriver.step] at hs
    split at hs
    · rename_i call link hcall hlink
      obtain ⟨⟨link', prog⟩, hact, rfl⟩ := Option.map_eq_some_iff.1 hs
      obtain ⟨link₀, φ, hlink₀, hshows, hleaves⟩ := h.running call hcall
      cases hlink.symm.trans hlink₀
      obtain ⟨ψ, hψ, hleaves'⟩ := hleaves.perform hshows hact
      refine ⟨?_, by simp⟩
      rintro _ ⟨⟩
      exact ⟨link', ψ, rfl, hψ, hleaves'⟩
    · cases hs
  | finish =>
    simp only [MysqlDriver.step] at hs
    split at hs
    · rename_i op r hcall
      cases hs
      obtain ⟨link, φ, hlink, hshows, hleaves⟩ := h.running _ hcall
      refine ⟨by simp, fun _ link' hlink' => ?_⟩
      cases hlink.symm.trans hlink'
      exact closed_of_tidy hshows hleaves.tidy
    · cases hs
  | abort =>
    cases hs
    refine ⟨fun call hcall => ?_, fun _ link hlink => ?_⟩
    · obtain ⟨link, φ, hlink, hshows, hleaves⟩ := h.running call hcall
      exact ⟨link.abort, φ, by simp [hlink], hshows.abort, hleaves⟩
    · obtain ⟨link', -, rfl⟩ := Option.map_eq_some_iff.1 hlink
      exact .inl rfl

/-- Whatever the operations, the answers of the server and the failures are: an operation that has answered
    leaves no open transaction on a connection that is used again, an operation that started a transaction,
    did not succeed and had not issued COMMIT has committed nothing, and every operation begins outside any
    transaction. -/
theorem transaction_discipline (es : List DriverEvent) (hrun : es.foldlM step ({} : MysqlDriver) = some s) :
    (∀ call link r, s.running = some call → call.prog = .ret r → s.mysql = some link →
      (link.aborted = true ∨ link.tx = none) ∧
      (link.started = true → r.succeeded = false → link.issued = false → link.published = [])) ∧
    (s.running = none → ∀ link, s.mysql = some link → link.aborted = true ∨ link.tx = none) ∧
    ∀ op connects s' call link, s.step (.execute op connects) = some s' → s'.running = some call →
      s'.mysql = some link → call = ⟨op, MysqlStore.execute op⟩ ∧ link = {} := by
  have h : Disciplined s :=
    Steps.run_invariant disciplined_new (fun _ _ _ ht hu => ht.step hu) hrun
  refine ⟨fun call link r hcall hret hlink => ?_, h.between, fun op connects s' call link hs hcall hlink => ?_⟩
  · obtain ⟨link', φ, hlink', hshows, hleaves⟩ := h.running call hcall
    cases hlink.symm.trans hlink'
    rw [hret] at hleaves
    refine ⟨closed_of_tidy hshows hleaves.tidy, fun hstarted _ hissued => ?_⟩
    have hclean := hleaves.tidy.clean (hshows.started hstarted)
    by_contra hne
    rcases hshows.published hne with hi | hstray
    · rw [hissued] at hi
      cases hi
    rw [hclean] at hstray
    cases hstray
  · simp only [MysqlDriver.step] at hs
    split at hs
    · cases hs
    rename_i hidle
    have hidle : s.running = none := by simpa using hidle
    cases hs
    rcases h.execute_cases hidle op connects with heq | heq | heq <;> rw [heq] at hcall hlink
    · cases hcall
      cases hlink
      exact ⟨rfl, rfl⟩
    · cases hidle.symm.trans hcall
    · cases hidle.symm.trans (show s.running = some call from hcall)

/-- The second INSERT of a new friendship fails. -/
def interrupted : List DriverEvent :=
  [.execute (.insertFriend 7 9 1 2 "") true, .act 0 {} .done, .act 0 {} .done, .act 0 {} (.failed "lost"),
    .act 0 {} .done, .act 0 {} .done]

omit [Collation] in
/-- The first INSERT is gone with its connection, and a new one is made for the next operation. -/
theorem transaction_discipline_interrupted :
    let _ := Collation.binary
    ∃ s s' link, interrupted.foldlM step ({} : MysqlDriver) = some s ∧ s.mysql = some link ∧
      link.started = true ∧ link.aborted = true ∧ link.published = [] ∧
      [.finish, .execute (.getUserInfo 1) true].foldlM step s = some s' ∧ s'.mysql = some {} := by
  let _ := Collation.binary
  refine ⟨_, _, _, rfl, rfl, rfl, rfl, ?_, rfl, rfl⟩
  exact ((transaction_discipline interrupted rfl).1 _ _ (.thrown "lost") rfl rfl rfl).2 rfl rfl rfl

end MysqlDriver

end Imm
