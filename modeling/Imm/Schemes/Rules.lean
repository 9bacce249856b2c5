import Mathlib.Data.Nat.Init
import Imm.Schemes.History

/-! Proof rules for throwing programs, and the frame rules of row locks.

    `Ensures Q x` is the calculus of `wp` for a program that may throw: `Q` is about the value it
    returns, and an exception promises nothing. There is one rule for each primitive. A lock that is
    quiet from `g` to `t` carries facts about its row from version `g` to version `t`
    (`Quiet.keeps`), and facts about any region that is only written under that lock
    (`Quiet.induct`). -/

namespace Txn

variable {D K W : Type} [Rows D K W] [DecidableEq K]

section tx

variable {α : Type} (x : Tx K W) (e : Effect K W α) (t : ℕ)

omit [DecidableEq K]

@[simp] theorem Tx.writes_add : (x.add D e t).writes = x.writes ++ e.writes := rfl

@[simp] theorem Tx.view_add : (x.add D e t).view = x.view := rfl

@[simp] theorem Tx.mem_held_add {l : Lock K} {g : ℕ} :
    (l, g) ∈ (x.add D e t).held ↔ (l, g) ∈ x.held ∨ l ∈ e.locks D ∧ t = g := by
  simp [Tx.add]

variable {x}

omit [Rows D K W] in
theorem Tx.mem_locks {l : Lock K} {g : ℕ} (h : (l, g) ∈ x.held) : l ∈ x.locks :=
  List.mem_map.2 ⟨_, h, rfl⟩

end tx

section rules

variable (V : List (Version D K)) (J : ℕ → Prop) (C : ℕ → Tx K W → Prop) {α β A : Type}

/-- Every commit of `x` satisfies `C`, and every value it returns satisfies `Q`. -/
def Ensures (Q : α → Post K W) (x : Sql D K W α) (a : ℕ)
    (tx : Option (Tx K W)) (dn : Option ℕ) : Prop :=
  wp V J C (fun r a tx dn => ∀ b, r = .ok b → Q b a tx dn) x a tx dn

variable {V J C} {Q : α → Post K W} {a : ℕ} {tx : Option (Tx K W)}
  {dn : Option ℕ} {y : Tx K W}

variable {C' : ℕ → Tx K W → Prop} {R : A → Post K W} {q : D → α}

/-- Consequence. Commits and the answer come after the last action, so `C` and `R` need only be weakened
    from there on. -/
theorem wp_mono_from {R' : A → Post K W} :
    ∀ (p : Prog D K W A) (a : ℕ) (tx : Option (Tx K W)) (dn : Option ℕ),
      (∀ r a' tx dn, a ≤ a' → R r a' tx dn → R' r a' tx dn) → (∀ t x, a ≤ t → C t x → C' t x) →
      wp V J C R p a tx dn → wp V J C' R' p a tx dn
  | .ret r, a, tx, dn, hR, _, h => hR r a tx dn (Nat.le_refl a) h
  | .halt, _, _, _, _, _, _ => trivial
  | .ask _, _, _, _, hR, hC, h =>
    ⟨fun n => wp_mono_from _ _ _ _ hR hC (h.1 n), fun e => wp_mono_from _ _ _ _ hR hC (h.2 e)⟩
  | .query _ _, _, none, _, hR, hC, h =>
    ⟨fun t v ht hv => wp_mono_from _ _ _ _ (fun r a' tx dn ha => hR r a' tx dn (Nat.le_trans ht ha))
        (fun t' x ht' => hC t' x (Nat.le_trans ht ht')) (h.1 t v ht hv),
      fun e => wp_mono_from _ _ _ _ hR hC (h.2 e)⟩
  | .query _ _, _, some _, _, hR, hC, h =>
    ⟨fun t v ht hv hn => wp_mono_from _ _ _ _ (fun r a' tx dn ha => hR r a' tx dn (Nat.le_trans ht ha))
        (fun t' x ht' => hC t' x (Nat.le_trans ht ht')) (h.1 t v ht hv hn),
      fun j v hj hv => wp_mono_from _ _ _ _ hR hC (h.2.1 j v hj hv),
      fun e => wp_mono_from _ _ _ _ hR hC (h.2.2 e)⟩
  | .stmt _ _, _, none, _, hR, hC, h =>
    ⟨fun t v n e ht hv hs =>
      ⟨fun t' ht' hp hc => hC _ _ (Nat.le_trans ht ht') ((h.1 t v n e ht hv hs).1 t' ht' hp hc),
        fun hc => wp_mono_from _ _ _ _ (fun r a' tx dn ha => hR r a' tx dn (by omega))
          (fun t' x ht' => hC t' x (by omega)) ((h.1 t v n e ht hv hs).2 hc)⟩,
      fun e => wp_mono_from _ _ _ _ hR hC (h.2 e)⟩
  | .stmt _ _, _, some _, _, hR, hC, h =>
    ⟨fun t v n e ht hv hs => wp_mono_from _ _ _ _ (fun r a' tx dn ha => hR r a' tx dn (Nat.le_trans ht ha))
        (fun t' x ht' => hC t' x (Nat.le_trans ht ht')) (h.1 t v n e ht hv hs),
      fun e => wp_mono_from _ _ _ _ hR hC (h.2 e)⟩
  | .start _, _, none, _, hR, hC, h =>
    ⟨wp_mono_from _ _ _ _ hR hC h.1, fun e => wp_mono_from _ _ _ _ hR hC (h.2 e)⟩
  | .start _, _, some _, _, hR, hC, h => fun e => wp_mono_from _ _ _ _ hR hC (h e)
  | .commit _, _, none, _, hR, hC, h =>
    ⟨wp_mono_from _ _ _ _ hR hC h.1, fun e => wp_mono_from _ _ _ _ hR hC (h.2 e)⟩
  | .commit _, _, some _, _, hR, hC, h =>
    ⟨fun t ht hp hc => ⟨hC _ _ ht (h.1 t ht hp hc).1,
        wp_mono_from _ _ _ _ (fun r a' tx dn ha => hR r a' tx dn (by omega))
          (fun t' x ht' => hC t' x (by omega)) (h.1 t ht hp hc).2⟩,
      fun e => ⟨wp_mono_from _ _ _ _ hR hC (h.2 e).1, wp_mono_from _ _ _ _ hR hC (h.2 e).2⟩⟩
  | .rollback _, _, _, _, hR, hC, h =>
    ⟨wp_mono_from _ _ _ _ hR hC h.1, fun e => wp_mono_from _ _ _ _ hR hC (h.2 e)⟩
  | .abort p, _, _, _, hR, hC, h => wp_mono_from p _ _ _ hR hC h

theorem wp_mono {R' : A → Post K W} (hR : ∀ r a tx dn, R r a tx dn → R' r a tx dn) (p : Prog D K W A) (a : ℕ)
    (tx : Option (Tx K W)) (dn : Option ℕ) (hC : ∀ t x, a ≤ t → C t x → C' t x) (h : wp V J C R p a tx dn) :
    wp V J C' R' p a tx dn :=
  wp_mono_from p a tx dn (fun r a tx dn _ => hR r a tx dn) hC h

theorem Ensures.mono {Q' : α → Post K W}
    {x : Sql D K W α} (h : Ensures V J C Q x a tx dn) (hC : ∀ t x, a ≤ t → C t x → C' t x)
    (hQ : ∀ b a tx dn, Q b a tx dn → Q' b a tx dn) : Ensures V J C' Q' x a tx dn :=
  wp_mono (fun _ a tx dn h b hb => hQ b a tx dn (h b hb)) _ _ _ _ hC h

/-- A program never goes back in the history. -/
theorem Ensures.onward {x : Sql D K W α} (h : Ensures V J C Q x a tx dn) :
    Ensures V J C (fun b a' tx dn => a ≤ a' ∧ Q b a' tx dn) x a tx dn :=
  wp_mono_from _ _ _ _ (fun _ _ _ _ ha h b hb => ⟨ha, h b hb⟩) (fun _ _ _ h => h) h

theorem Ensures.pure {b : α} (h : Q b a tx dn) : Ensures V J C Q (pure b) a tx dn := by
  rintro _ ⟨⟩
  exact h

theorem Ensures.bind {Q : β → Post K W} {x : Sql D K W α} {f : α → Sql D K W β}
    (h : Ensures V J C (fun b a tx dn => Ensures V J C Q (f b) a tx dn) x a tx dn) :
    Ensures V J C Q (x >>= f) a tx dn := by
  refine (wp_bind _ _ x a tx dn).2 (wp_mono (fun r a tx dn hr => ?_) _ _ _ _ (fun _ _ _ h => h) h)
  cases r with
  | ok b => exact hr b rfl
  | error e => rintro _ ⟨⟩

/-- A handler takes over from any state, since it does not learn where the exception came from. -/
theorem Ensures.catching {x : Sql D K W α} {f : String → Sql D K W α}
    (h : Ensures V J C Q x a tx dn) (hf : ∀ e a tx dn, Ensures V J C Q (f e) a tx dn) :
    Ensures V J C Q (Sql.catching x f) a tx dn := by
  refine (wp_bind _ _ x a tx dn).2 (wp_mono (fun r a tx dn hr => ?_) _ _ _ _ (fun _ _ _ h => h) h)
  cases r with
  | ok b => exact hr
  | error e => exact hf e a tx dn

theorem Ensures.outcome {x : Sql D K W α} {f : Except String α → A}
    (h : Ensures V J C (fun b a tx dn => R (f (.ok b)) a tx dn) x a tx dn)
    (hf : ∀ e a tx dn, R (f (.error e)) a tx dn) : wp V J C R (Sql.outcome x f) a tx dn := by
  refine (wp_bind _ _ x a tx dn).2 (wp_mono (fun r a tx dn hr => ?_) _ _ _ _ (fun _ _ _ h => h) h)
  cases r with
  | ok b => exact hr b rfl
  | error e => exact hf e a tx dn

/-! ### Primitives -/

theorem Ensures.throw {e : String} : Ensures V J C Q (Sql.throw e) a tx dn := by
  rintro _ ⟨⟩

theorem Ensures.ask {Q : ℕ → Post K W} (h : ∀ n, Q n a tx dn) :
    Ensures V J C Q Sql.ask a tx dn := by
  refine ⟨fun n => ?_, fun e => ?_⟩ <;> rintro _ ⟨⟩
  exact h n

theorem Ensures.start {Q : Unit → Post K W}
    (h : Q () a (some {}) dn) : Ensures V J C Q Sql.start a none dn := by
  refine ⟨?_, fun e => ?_⟩ <;> rintro _ ⟨⟩
  exact h

theorem Ensures.rollback {Q : Unit → Post K W}
    (h : Q () a none dn) : Ensures V J C Q Sql.rollback a tx dn := by
  refine ⟨?_, fun e => ?_⟩ <;> rintro _ ⟨⟩
  exact h

theorem Ensures.abort {Q : Unit → Post K W} (h : Q () a none dn) : Ensures V J C Q Sql.abort a tx dn := by
  rintro _ ⟨⟩
  exact h

theorem Ensures.commit {Q : Unit → Post K W}
    (h : ∀ t, a ≤ t → (∀ j < t, J j) → Commits V t y → C t y ∧ Q () (t + 1) none (some (t + 1))) :
    Ensures V J C Q Sql.commit a (some y) dn := by
  refine ⟨fun t ht hp hc => ⟨(h t ht hp hc).1, ?_⟩, fun e => ⟨?_, ?_⟩⟩ <;> rintro _ ⟨⟩
  exact (h t ht hp hc).2

theorem Ensures.select (h : ∀ t v, a ≤ t → Seen V J t v → Q (q v.db) t none dn) :
    Ensures V J C Q (Sql.select q) a none dn := by
  refine ⟨fun t v ht hv => ?_, fun e => ?_⟩ <;> rintro _ ⟨⟩
  exact h t v ht hv

/-- The first consistent read of a transaction fixes its view. -/
theorem Ensures.select_first (hy : y.view = none)
    (h : ∀ t v, a ≤ t → Seen V J t v → Q (q (applyAll y.writes v.db)) t (some { y with view := some t }) dn) :
    Ensures V J C Q (Sql.select q) a (some y) dn := by
  refine ⟨fun t v ht hv _ => ?_, fun j v hj => ?_, fun e => ?_⟩
  · rintro _ ⟨⟩; exact h t v ht hv
  · simp [hy] at hj
  · rintro _ ⟨⟩

theorem Ensures.select_again {j : ℕ} (hy : y.view = some j)
    (h : ∀ v, Seen V J j v → Q (q (applyAll y.writes v.db)) a (some y) dn) :
    Ensures V J C Q (Sql.select q) a (some y) dn := by
  refine ⟨fun t v _ _ hn => ?_, fun i v hi hv => ?_, fun e => ?_⟩
  · simp [hy] at hn
  · obtain rfl : j = i := by simpa [hy] using hi
    rintro _ ⟨⟩
    exact h v hv
  · rintro _ ⟨⟩

theorem Ensures.exec {s : Stmt D K W α}
    (h : ∀ t v n e, a ≤ t → Seen V J t v → s n (applyAll y.writes v.db) = .ok e →
      Q e.reply t (some (y.add D e t)) dn) : Ensures V J C Q (Sql.exec s) a (some y) dn := by
  refine ⟨fun t v n e ht hv hs => ?_, fun e => ?_⟩ <;> rintro _ ⟨⟩
  exact h t v n e ht hv hs

theorem Ensures.exec_auto {s : Stmt D K W α}
    (h : ∀ t v n e, a ≤ t → Seen V J t v → s n v.db = .ok e →
      (∀ t', t ≤ t' → (∀ j < t', J j) → Commits V t' (.add D {} e t) → C t' (.add D {} e t)) ∧
      (Commits V t (.add D {} e t) → Q e.reply (t + 1) none (some (t + 1)))) :
    Ensures V J C Q (Sql.exec s) a none dn := by
  refine ⟨fun t v n e ht hv hs => ⟨(h t v n e ht hv hs).1, fun hc => ?_⟩, fun e => ?_⟩ <;> rintro _ ⟨⟩
  exact (h t v n e ht hv hs).2 hc

end rules

/-! ### Frames -/

section frames

variable {V : List (Version D K)} {l : Lock K} {g t : ℕ} {v v' : Version D K}

omit [Rows D K W] in
theorem Quiet.later {g' : ℕ} (h : Quiet V l g t) (hg : g ≤ g') : Quiet V l g' t :=
  fun j v hj => h j v (Nat.lt_of_le_of_lt hg hj)

variable {P : D → Prop}

omit [Rows D K W] in
/-- Whatever every step outside the lock keeps is kept while the lock is quiet. -/
theorem Quiet.induct (hquiet : Quiet V l g t) (hle : g ≤ t)
    (hstep : ∀ j w w', g ≤ j → j < t → V[j]? = some w → V[j + 1]? = some w' →
      (∀ l' ∈ w'.locks, l.conflicts l' = false) → P w.db → P w'.db)
    (hv : V[g]? = some v) (hv' : V[t]? = some v') (hP : P v.db) : P v'.db := by
  induction t, hle using Nat.le_induction generalizing v' with
  | base => rw [hv, Option.some.injEq] at hv'; exact hv' ▸ hP
  | succ t hle ih =>
    have hlt : t < V.length := Nat.lt_of_succ_lt (List.getElem?_eq_some_iff.1 hv').1
    have hw : V[t]? = some V[t] := List.getElem?_eq_getElem hlt
    refine hstep t V[t] v' hle (Nat.lt_succ_self t) hw hv' (fun l' hl' => ?_) ?_
    · exact hquiet (t + 1) v' (Nat.lt_succ_of_le hle) (Nat.le_refl _) hv' l' hl'
    · exact ih (fun j u hgj hjt => hquiet j u hgj (Nat.le_succ_of_le hjt))
        (fun j w w' hgj hjt => hstep j w w' hgj (Nat.lt_succ_of_lt hjt)) hw

omit [DecidableEq K] in
theorem applyAll_keeps {k : K} (hstable : ∀ w d, k ∉ Rows.touches D w → P d → P (Rows.apply w d)) :
    ∀ (ws : List W) (d : D), (∀ w ∈ ws, k ∉ Rows.touches D w) → P d → P (applyAll ws d)
  | [], _, _, hP => hP
  | w :: ws, d, hws, hP =>
    applyAll_keeps hstable ws _ (fun u hu => hws u (List.mem_cons_of_mem _ hu))
      (hstable w d (hws w List.mem_cons_self) hP)

/-- A transaction whose locks are not in conflict with `l` leaves the row of `l` alone. -/
theorem Commits.avoids {x : Tx K W} {j : ℕ} (hc : Commits V j x)
    (hl : ∀ l' ∈ x.locks, l.conflicts l' = false) : ∀ w ∈ x.writes, l.key ∉ Rows.touches D w := by
  intro w hw hk
  have := hl _ (hc.covered w hw l.key hk)
  simp [Lock.conflicts] at this

/-- What is said of one row stays true as long as a lock on it is held. -/
theorem Quiet.keeps (hquiet : Quiet V l g t) (hle : g ≤ t) (hmade : ∀ j < t, ∃ x : Tx K W, Commits V j x)
    (hstable : ∀ (w : W) d, l.key ∉ Rows.touches D w → P d → P (Rows.apply w d)) (hv : V[g]? = some v)
    (hv' : V[t]? = some v') (hP : P v.db) : P v'.db := by
  refine hquiet.induct hle (fun j w w' _ hjt hw hw' hl hPw => ?_) hv hv' hP
  obtain ⟨x, hc⟩ := hmade j hjt
  obtain ⟨u, hu, hu'⟩ := hc.made
  rw [hw, Option.some.injEq] at hu
  rw [hw', Option.some.injEq] at hu'
  subst hu hu'
  exact applyAll_keeps hstable x.writes w.db (hc.avoids hl) hPw

/-- The commit of `x` on the version `v`, after other commits. -/
structure Landing (V : List (Version D K)) (t : ℕ) (x : Tx K W) (v : Version D K) : Prop where
  commits : Commits V t x
  past : ∀ j < t, ∃ x : Tx K W, Commits V j x
  here : V[t]? = some v

/-- What was said of a row when its lock was granted is true of every version up to the commit. -/
theorem Landing.between {x : Tx K W} {u w : Version D K} {j : ℕ} (h : Landing V t x v)
    (hheld : (l, g) ∈ x.held) (hu : V[g]? = some u) (hgj : g ≤ j) (hjt : j ≤ t) (hw : V[j]? = some w)
    (hstable : ∀ (w : W) d, l.key ∉ Rows.touches D w → P d → P (Rows.apply w d)) (hP : P u.db) :
    P w.db := by
  have hquiet : Quiet V l g j := fun i z hgi hij => (h.commits.quiet _ hheld).2 i z hgi (Nat.le_trans hij hjt)
  exact hquiet.keeps hgj (fun i hi => h.past i (Nat.lt_of_lt_of_le hi hjt)) hstable hu hw hP

theorem Landing.kept {x : Tx K W} {u : Version D K} (h : Landing V t x v)
    (hheld : (l, g) ∈ x.held) (hu : V[g]? = some u)
    (hstable : ∀ (w : W) d, l.key ∉ Rows.touches D w → P d → P (Rows.apply w d)) (hP : P u.db) :
    P v.db :=
  h.between hheld hu (h.commits.quiet _ hheld).1 (Nat.le_refl t) h.here hstable hP

variable {α : Type} {J : ℕ → Prop} {C : ℕ → Tx K W → Prop} {a : ℕ} {dn : Option ℕ} {y : Tx K W}

/-- COMMIT, when all steps before are known to be commits. -/
theorem Ensures.commit_landing {Q : Unit → Post K W}
    (hJ : ∀ j, J j → ∃ x : Tx K W, Commits V j x)
    (h : ∀ t v, a ≤ t → Landing V t y v → V[t + 1]? = some ⟨applyAll y.writes v.db, y.locks⟩ →
      C t y ∧ Q () (t + 1) none (some (t + 1))) :
    Ensures V J C Q Sql.commit a (some y) dn := by
  refine .commit fun t ht hp hc => ?_
  obtain ⟨v, hv, hv'⟩ := hc.made
  exact h t v ht ⟨hc, fun j hj => hJ j (hp j hj), hv⟩ hv'

/-- A statement that commits by itself, at once or when the server gets to it. -/
theorem Ensures.exec_landing {Q : α → Post K W} {s : Stmt D K W α}
    (hJ : ∀ j, J j → ∃ x : Tx K W, Commits V j x)
    (h : ∀ t v n e, a ≤ t → Seen V J t v → s n v.db = .ok e →
      (∀ t' v', t ≤ t' → Landing V t' (.add D {} e t) v' → C t' (.add D {} e t)) ∧
        (V[t + 1]? = some ⟨applyAll e.writes v.db, (Tx.add D {} e t).locks⟩ →
          Q e.reply (t + 1) none (some (t + 1)))) :
    Ensures V J C Q (Sql.exec s) a none dn := by
  refine .exec_auto fun t v n e ht hv hs => ⟨fun t' ht' hp hc => ?_, fun hc => ?_⟩
  · obtain ⟨v', hv', -⟩ := hc.made
    exact (h t v n e ht hv hs).1 t' v' ht' ⟨hc, fun j hj => hJ j (hp j hj), hv'⟩
  · obtain ⟨v', hv', hmade⟩ := hc.made
    obtain rfl := Option.some.inj (hv'.symm.trans hv.here)
    exact (h t v' n e ht hv hs).2 hmade

end frames

end Txn
