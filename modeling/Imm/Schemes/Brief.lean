import Imm.Schemes.History

/-! Programs that answer as soon as their transaction is over.

    A program in a transaction is brief when nothing but the answer follows its COMMIT, its ROLLBACK or
    an abort. While such a program has not answered, its transaction is open: its view stays fixed and
    its locks stay held (`Brief.perform`). `Closing` is the same for programs that may throw; whoever
    catches what they throw aborts, and then answers. -/

namespace Txn

variable {D K W : Type} {A α β : Type}

/-- Nothing but a value, one of `L`, follows the end of the transaction. -/
def Prog.Ending (L : A → Prop) : Prog D K W A → Prop
  | .ret _ | .halt => True
  | .ask k => ∀ r, (k r).Ending L
  | .query _ k => ∀ r, (k r).Ending L
  | .stmt _ k => ∀ r, (k r).Ending L
  | .start _ => False
  | .commit k => (∃ a, L a ∧ k (.ok ()) = .ret a) ∧ ∀ e, (k (.error e)).Ending L
  | .rollback k => (∃ a, L a ∧ k (.ok ()) = .ret a) ∧ ∀ e, (k (.error e)).Ending L
  | .abort p => ∃ a, L a ∧ p = .ret a

abbrev Prog.Brief (p : Prog D K W A) : Prop := p.Ending fun _ => True

/-- What is thrown is thrown inside the transaction. -/
abbrev Prog.Closing (p : Prog D K W (Except String α)) : Prop := p.Ending fun r => ∃ a, r = .ok a

namespace Prog

theorem Closing.exec {s : Stmt D K W α} {f : α → Sql D K W β} (h : ∀ a, Closing (f a)) :
    Closing (Sql.exec s >>= f : Sql D K W β) := by
  intro r
  cases r with
  | ok a => exact h a
  | error e => trivial

theorem Closing.select {q : D → α} {f : α → Sql D K W β} (h : ∀ a, Closing (f a)) :
    Closing (Sql.select q >>= f : Sql D K W β) := by
  intro r
  cases r with
  | ok a => exact h a
  | error e => trivial

theorem Closing.commit {a : α} : Closing (Sql.commit >>= fun _ => pure a : Sql D K W α) :=
  ⟨⟨_, ⟨a, rfl⟩, rfl⟩, fun _ => trivial⟩

theorem Closing.rollback {a : α} : Closing (Sql.rollback >>= fun _ => pure a : Sql D K W α) :=
  ⟨⟨_, ⟨a, rfl⟩, rfl⟩, fun _ => trivial⟩

theorem Ending.bind {B : Type} {L : A → Prop} {L' : B → Prop} {p : Prog D K W A} {g : A → Prog D K W B}
    (h : p.Ending L) (hL : ∀ a, L a → ∃ b, L' b ∧ g a = .ret b) (hg : ∀ a, (g a).Ending L') :
    (p.bind g).Ending L' := by
  have hend : ∀ {q : Prog D K W A}, (∃ a, L a ∧ q = .ret a) → ∃ b, L' b ∧ q.bind g = .ret b := by
    rintro _ ⟨a, ha, rfl⟩
    exact hL a ha
  induction p with
  | ret a => exact hg a
  | halt => trivial
  | ask k ih => exact fun r => ih r (h r)
  | query q k ih => exact fun r => ih r (h r)
  | stmt s k ih => exact fun r => ih r (h r)
  | start k ih => exact h
  | commit k ih => exact ⟨hend h.1, fun e => ih _ (h.2 e)⟩
  | rollback k ih => exact ⟨hend h.1, fun e => ih _ (h.2 e)⟩
  | abort p ih => exact hend h

/-- What is thrown is answered after an abort. -/
theorem Closing.catching {x : Sql D K W α} (h : Closing x) {failed : String → α} :
    Closing (Sql.catching x fun e => Sql.abort >>= fun _ => pure (failed e)) := by
  refine Ending.bind h (by rintro _ ⟨a, rfl⟩; exact ⟨_, ⟨a, rfl⟩, rfl⟩) fun r => ?_
  cases r with
  | ok a => trivial
  | error e => exact ⟨_, ⟨failed e, rfl⟩, rfl⟩

theorem Closing.brief {x : Sql D K W α} (h : Closing x) {f : Except String α → A} :
    Prog.Brief (Sql.outcome (Sql.catching x fun e => Sql.abort >>= fun _ => Sql.throw e) f) := by
  refine Ending.bind (L := fun _ => True) (Ending.bind h (by rintro _ ⟨a, rfl⟩; exact ⟨_, trivial, rfl⟩) fun r => ?_)
    (fun a _ => ⟨f a, trivial, rfl⟩) fun _ => trivial
  cases r with
  | ok a => trivial
  | error e => exact ⟨_, trivial, rfl⟩

end Prog

/-! ### Open transactions -/

/-- A transaction that has gone on: its view is still fixed, its locks are still held. -/
structure Tx.Grows (x y : Tx K W) : Prop where
  view : x.view.isSome → y.view.isSome
  locks : ∀ l ∈ x.locks, l ∈ y.locks

theorem Tx.Grows.refl (x : Tx K W) : x.Grows x := ⟨fun h => h, fun _ h => h⟩

variable [Rows D K W] [DecidableEq K] {Op : Type} {s s' : Sys D K W A Op} {σ : Session D K W A Op}
  {i n : ℕ} {x : Tx K W}

theorem Prog.Brief.perform (h : σ.prog.Brief) (hx : σ.tx = some x) (hs : s.perform i σ n = some s') :
    ∃ σ', s'.sessions = s.sessions.set i σ' ∧
      ((∃ a, σ'.prog = .ret a) ∨
        ∃ y, σ'.tx = some y ∧ x.Grows y ∧ σ'.prog.Brief ∧ s'.cur = s.cur ∧ s'.past = s.past) := by
  obtain ⟨op, began, seen, prog, tx, dn⟩ := σ
  obtain rfl := hx
  cases prog with
  | ret a | halt => cases hs
  | ask k =>
    cases hs
    exact ⟨_, rfl, .inr ⟨x, rfl, .refl x, h _, rfl, rfl⟩⟩
  | query q k =>
    cases hv : x.view with
    | none =>
      simp only [Sys.perform, hv] at hs
      cases hs
      exact ⟨_, rfl, .inr ⟨_, rfl, ⟨fun _ => rfl, fun _ h => h⟩, h _, rfl, rfl⟩⟩
    | some j =>
      simp only [Sys.perform, hv] at hs
      obtain ⟨v, -, rfl⟩ := Option.map_eq_some_iff.1 hs
      exact ⟨_, rfl, .inr ⟨x, rfl, .refl x, h _, rfl, rfl⟩⟩
  | stmt st k =>
    simp only [Sys.perform] at hs
    split at hs
    · cases hs
      exact ⟨_, rfl, .inr ⟨x, rfl, .refl x, h _, rfl, rfl⟩⟩
    rename_i e _
    split at hs
    · cases hs
      exact ⟨_, rfl, .inr ⟨_, rfl, ⟨fun h => h, fun l hl => by
        rw [Tx.locks_add]
        exact List.mem_append_left _ hl⟩, h _, rfl, rfl⟩⟩
    · cases hs
  | start k => exact h.elim
  | commit k =>
    cases hs
    exact ⟨_, rfl, .inl (h.1.imp fun _ => And.right)⟩
  | rollback k =>
    cases hs
    exact ⟨_, rfl, .inl (h.1.imp fun _ => And.right)⟩
  | abort p =>
    cases hs
    exact ⟨_, rfl, .inl (h.imp fun _ => And.right)⟩

end Txn
