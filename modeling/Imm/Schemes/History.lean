import Imm.Schemes.Program

/-! Version histories of transactional programs, and a precondition calculus for them.

    Row locks are held from the statement that takes them to the end of the transaction, so no
    version written in between was written under a conflicting lock (`Quiet`). Over the finished
    history `V`, `wp` says what has to hold of a program so that every commit it makes satisfies `C`
    and every answer it gives satisfies `R`; other sessions may commit any versions between two of
    its actions, and what is known of those (`J`) may be used. `run_spec` is the soundness of `wp`
    for every interleaving. -/

namespace Txn

open List Nat Sys

variable {D K W : Type} [Rows D K W] [DecidableEq K]

theorem Lock.conflicts_comm (l l' : Lock K) : l.conflicts l' = l'.conflicts l := by
  simp only [Lock.conflicts, Bool.or_comm, eq_comm]

/-- No lock of the first list is in conflict with one of the second. -/
def Apart (ls ls' : List (Lock K)) : Prop := ∀ l ∈ ls, ∀ l' ∈ ls', l.conflicts l' = false

theorem Apart.symm {ls ls' : List (Lock K)} (h : Apart ls ls') : Apart ls' ls :=
  fun l hl l' hl' => (l.conflicts_comm l').trans (h l' hl' l hl)

theorem Apart.append {ls ms ls' : List (Lock K)} (h : Apart ls ls') (h' : Apart ms ls') :
    Apart (ls ++ ms) ls' :=
  fun l hl => (mem_append.1 hl).elim (h l) (h' l)

/-- No version after `g` and up to `t` was written under a lock in conflict with `l`. -/
def Quiet (V : List (Version D K)) (l : Lock K) (g t : ℕ) : Prop :=
  ∀ j v, g < j → j ≤ t → V[j]? = some v → ∀ l' ∈ v.locks, l.conflicts l' = false

/-- The transaction `x` as it is while version `t` is the current one: its locks are in force since
    they were granted, its writes stay inside the rows it holds exclusively. -/
structure Live (V : List (Version D K)) (t : ℕ) (x : Tx K W) : Prop where
  quiet : ∀ p ∈ x.held, p.2 ≤ t ∧ Quiet V p.1 p.2 t
  covered : ∀ w ∈ x.writes, ∀ k ∈ Rows.touches D w, ⟨k, .exclusive⟩ ∈ x.locks
  view_le : ∀ j, x.view = some j → j ≤ t

/-- Transaction `x` turned version `t` into version `t + 1`. -/
structure Commits (V : List (Version D K)) (t : ℕ) (x : Tx K W) : Prop extends Live V t x where
  made : ∃ v, V[t]? = some v ∧ V[t + 1]? = some ⟨applyAll x.writes v.db, x.locks⟩

/-- Version `t` is `v`, and `J` is known of every step that led to it. -/
structure Seen (V : List (Version D K)) (J : ℕ → Prop) (t : ℕ) (v : Version D K) : Prop where
  here : V[t]? = some v
  past : ∀ j < t, J j

/-- A condition on a version, the open transaction and the version of the last commit. -/
abbrev Post (K W : Type) := ℕ → Option (Tx K W) → Option ℕ → Prop

section calculus

variable (V : List (Version D K)) (J : ℕ → Prop) (C : ℕ → Tx K W → Prop)

/-- Weakest precondition: `a` is the version at the last action, `dn` the version of the last
    commit. Every action may fail; a commit may also be left to the server, which carries it out at
    any later version. -/
def wp {A : Type} (R : A → Post K W) :
    Prog D K W A → ℕ → Option (Tx K W) → Option ℕ → Prop
  | .ret r, a, tx, dn => R r a tx dn
  | .halt, _, _, _ => True
  | .ask k, a, tx, dn => (∀ n, wp R (k (.ok n)) a tx dn) ∧ ∀ e, wp R (k (.error e)) a tx dn
  | .query q k, a, none, dn =>
    (∀ t v, a ≤ t → Seen V J t v → wp R (k (.ok (q v.db))) t none dn) ∧
      ∀ e, wp R (k (.error e)) a none dn
  | .query q k, a, some x, dn =>
    (∀ t v, a ≤ t → Seen V J t v → x.view = none →
      wp R (k (.ok (q (applyAll x.writes v.db)))) t (some { x with view := some t }) dn) ∧
    (∀ j v, x.view = some j → Seen V J j v →
      wp R (k (.ok (q (applyAll x.writes v.db)))) a (some x) dn) ∧
    ∀ e, wp R (k (.error e)) a (some x) dn
  | .stmt s k, a, none, dn =>
    (∀ t v n e, a ≤ t → Seen V J t v → s n v.db = .ok e →
      (∀ t', t ≤ t' → (∀ j < t', J j) → Commits V t' (Tx.add D {} e t) →
        C t' (.add D {} e t)) ∧
      (Commits V t (Tx.add D {} e t) → wp R (k (.ok e.reply)) (t + 1) none (some (t + 1)))) ∧
    ∀ e, wp R (k (.error e)) a none dn
  | .stmt s k, a, some x, dn =>
    (∀ t v n e, a ≤ t → Seen V J t v → s n (applyAll x.writes v.db) = .ok e →
      wp R (k (.ok e.reply)) t (some (x.add D e t)) dn) ∧
    ∀ e, wp R (k (.error e)) a (some x) dn
  | .start k, a, none, dn =>
    wp R (k (.ok ())) a (some {}) dn ∧ ∀ e, wp R (k (.error e)) a none dn
  | .start k, a, some x, dn => ∀ e, wp R (k (.error e)) a (some x) dn
  | .commit k, a, none, dn => wp R (k (.ok ())) a none dn ∧ ∀ e, wp R (k (.error e)) a none dn
  | .commit k, a, some x, dn =>
    (∀ t, a ≤ t → (∀ j < t, J j) → Commits V t x →
      C t x ∧ wp R (k (.ok ())) (t + 1) none (some (t + 1))) ∧
    ∀ e, wp R (k (.error e)) a (some x) dn ∧ wp R (k (.error e)) a none dn
  | .rollback k, a, tx, dn => wp R (k (.ok ())) a none dn ∧ ∀ e, wp R (k (.error e)) a tx dn
  | .abort p, a, _, dn => wp R p a none dn

variable {V J C} {A B : Type}

/-- Sequencing: the answer of the first program is the start of the second. -/
theorem wp_bind (R : B → Post K W) (f : A → Prog D K W B) :
    ∀ (p : Prog D K W A) (a : ℕ) (tx : Option (Tx K W)) (dn : Option ℕ),
      wp V J C R (p.bind f) a tx dn ↔
        wp V J C (fun r a tx dn => wp V J C R (f r) a tx dn) p a tx dn
  | .ret _, _, _, _ | .halt, _, _, _ => by simp only [Prog.bind, wp]
  | .query q k, _, none, _ | .query q k, _, some _, _ => by
    simp only [Prog.bind, wp, fun r => wp_bind R f (k r)]
  | .stmt s k, _, none, _ | .stmt s k, _, some _, _ => by
    simp only [Prog.bind, wp, fun r => wp_bind R f (k r)]
  | .start k, _, none, _ | .start k, _, some _, _ => by
    simp only [Prog.bind, wp, fun r => wp_bind R f (k r)]
  | .commit k, _, none, _ | .commit k, _, some _, _ => by
    simp only [Prog.bind, wp, fun r => wp_bind R f (k r)]
  | .ask k, _, _, _ | .rollback k, _, _, _ => by
    simp only [Prog.bind, wp, fun r => wp_bind R f (k r)]
  | .abort p, _, _, _ => by simp only [Prog.bind, wp, wp_bind R f p]

end calculus

/-! ### Soundness of the calculus -/

section soundness

variable {A Op : Type} (V : List (Version D K)) (C : Op → ℕ → ℕ → Tx K W → Prop)
  (R : Op → ℕ → A → Post K W)

/-- The step from version `t` was made by an operation, in keeping with what is said of it. -/
def Made (t : ℕ) : Prop := ∃ op b x, Commits V t x ∧ C op b t x

variable {V C} in
theorem Made.commits {t : ℕ} (h : Made V C t) : ∃ x : Tx K W, Commits V t x := by
  obtain ⟨-, -, x, hx, -⟩ := h
  exact ⟨x, hx⟩

/-- What holds in every state on the way to the history `V`. -/
structure Coherent (s : Sys D K W A Op) : Prop where
  /-- the session that made a version is still there -/
  maker : ∀ j < s.now, ∃ σ ∈ s.sessions, σ.began ≤ j ∧ ∃ x, Commits V j x ∧ C σ.op σ.began j x
  began_le : ∀ σ ∈ s.sessions, σ.began ≤ s.now
  spec : ∀ σ ∈ s.sessions,
    wp V (Made V C) (C σ.op σ.began) (R σ.op σ.began) σ.prog σ.seen σ.tx σ.done
  seen_le : ∀ σ ∈ s.sessions, σ.seen ≤ s.now
  live : ∀ σ ∈ s.sessions, ∀ x, σ.tx = some x → Live V s.now x
  apart : ∀ (i j : ℕ) (σ τ : Session D K W A Op), i ≠ j →
    s.sessions[i]? = some σ → s.sessions[j]? = some τ → Apart σ.locks τ.locks
  done_le : ∀ σ ∈ s.sessions, ∀ t, σ.done = some t → t ≤ s.now
  done_inj : ∀ (i j : ℕ) (σ τ : Session D K W A Op) (t : ℕ), s.sessions[i]? = some σ →
    s.sessions[j]? = some τ → σ.done = some t → τ.done = some t → i = j

variable {V C R} {s s' : Sys D K W A Op} {σ σ' : Session D K W A Op} {i n : ℕ} {x : Tx K W}

omit [Rows D K W] [DecidableEq K] in
theorem Sys.cur_of_prefix (h : s.versions <+: V) : V[s.now]? = some s.cur := by
  obtain ⟨r, rfl⟩ := h
  simp [Sys.versions, Sys.now]

omit [Rows D K W] [DecidableEq K] in
theorem Sys.cur_now (s : Sys D K W A Op) : s.versions[s.now]? = some s.cur :=
  s.cur_of_prefix (List.prefix_refl _)

variable {j : ℕ} {v : Version D K} {τ : Session D K W A Op} {p : Prog D K W A} {program : Op → Prog D K W A}
  {ev : Event Op}

omit [Rows D K W] [DecidableEq K] in
theorem Sys.le_now (hj : s.versions[j]? = some v) : j ≤ s.now := by
  have := (List.getElem?_eq_some_iff.1 hj).1
  simp only [Sys.versions, length_append, length_singleton] at this
  exact le_of_lt_succ this

omit [Rows D K W] [DecidableEq K] in
theorem Sys.past_of_prefix (h : s.versions <+: V) (hj : s.versions[j]? = some v) : V[j]? = some v := by
  obtain ⟨r, rfl⟩ := h
  rw [List.getElem?_append_left (List.getElem?_eq_some_iff.1 hj).1]
  exact hj

theorem Coherent.made (h : Coherent V C R s) : ∀ j < s.now, Made V C j := by
  intro j hj
  obtain ⟨σ, -, -, x, hx⟩ := h.maker j hj
  exact ⟨σ.op, σ.began, x, hx⟩

theorem Coherent.seen (h : Coherent V C R s) (hpre : s.versions <+: V) : Seen V (Made V C) s.now s.cur :=
  ⟨s.cur_of_prefix hpre, h.made⟩

omit [Rows D K W] [DecidableEq K] in
theorem Sys.of_put (h : (s.put i σ).sessions[j]? = some τ) :
    j = i ∧ τ = σ ∨ j ≠ i ∧ s.sessions[j]? = some τ := by
  rw [Sys.put, getElem?_set] at h
  by_cases hij : i = j
  · rw [if_pos hij] at h
    split at h
    · exact .inl ⟨hij.symm, (Option.some.inj h).symm⟩
    · cases h
  · exact .inr ⟨.symm hij, by rwa [if_neg hij] at h⟩

omit [Rows D K W] [DecidableEq K] in
theorem Sys.of_push (h : (s.sessions ++ [σ])[j]? = some τ) :
    s.sessions[j]? = some τ ∨ j = s.sessions.length ∧ τ = σ := by
  rcases Nat.lt_or_ge j s.sessions.length with hlt | hge
  · exact .inl (getElem?_append_left hlt ▸ h)
  rw [List.getElem?_append_right hge, List.getElem?_singleton] at h
  split at h
  · exact .inr ⟨by omega, (Option.some.inj h).symm⟩
  · cases h

omit [Rows D K W] [DecidableEq K] in
theorem Sys.mem_put (υ : Session D K W A Op) (hi : s.sessions[i]? = some σ)
    (hop : υ.op = σ.op) (hbegan : υ.began = σ.began) (hτ : τ ∈ s.sessions) :
    ∃ ρ ∈ (s.put i υ).sessions, ρ.op = τ.op ∧ ρ.began = τ.began := by
  obtain ⟨j, hj⟩ := mem_iff_getElem?.1 hτ
  have hlt := (List.getElem?_eq_some_iff.1 hi).1
  by_cases hij : i = j
  · subst hij
    cases hi.symm.trans hj
    exact ⟨υ, mem_set hlt _, hop, hbegan⟩
  · exact ⟨τ, mem_of_getElem? (getElem?_set_ne hij ▸ hj), rfl, rfl⟩

theorem Coherent.put (h : Coherent V C R s)
    (hspec : wp V (Made V C) (C σ'.op σ'.began) (R σ'.op σ'.began) σ'.prog σ'.seen σ'.tx σ'.done)
    (hseen : σ'.seen ≤ s.now) (hlive : ∀ x, σ'.tx = some x → Live V s.now x)
    (hapart : ∀ (j : ℕ) τ, j ≠ i → s.sessions[j]? = some τ → Apart σ'.locks τ.locks)
    (hi : s.sessions[i]? = some σ) (hop : σ'.op = σ.op) (hbegan : σ'.began = σ.began)
    (hdone : σ'.done = σ.done) : Coherent V C R (s.put i σ') where
  maker j hj := by
    obtain ⟨τ, hτ, hle, hx⟩ := h.maker j hj
    obtain ⟨υ, hυ, hop', hbegan'⟩ := mem_put σ' hi hop hbegan hτ
    exact ⟨υ, hυ, hbegan' ▸ hle, by rwa [hop', hbegan']⟩
  began_le τ hτ := (mem_or_eq_of_mem_set hτ).elim (h.began_le τ) fun e =>
    (e ▸ hbegan : τ.began = σ.began) ▸ h.began_le σ (mem_of_getElem? hi)
  spec τ hτ := (mem_or_eq_of_mem_set hτ).elim (h.spec τ) (· ▸ hspec)
  seen_le τ hτ := (mem_or_eq_of_mem_set hτ).elim (h.seen_le τ) (· ▸ hseen)
  live τ hτ := (mem_or_eq_of_mem_set hτ).elim (h.live τ) (· ▸ hlive)
  apart j k τ υ hjk hj hk := by
    rcases of_put hj with ⟨rfl, rfl⟩ | ⟨hji, hj₀⟩ <;> rcases of_put hk with ⟨rfl, rfl⟩ | ⟨hki, hk₀⟩
    · exact absurd rfl hjk
    · exact hapart k υ hki hk₀
    · exact (hapart j τ hji hj₀).symm
    · exact h.apart j k τ υ hjk hj₀ hk₀
  done_le τ hτ t ht := (mem_or_eq_of_mem_set hτ).elim (fun m => h.done_le τ m t ht) fun e =>
    h.done_le σ (mem_of_getElem? hi) t (hdone ▸ e ▸ ht)
  done_inj j k τ υ t hj hk hτ hυ := by
    rcases of_put hj with ⟨rfl, rfl⟩ | ⟨-, hj₀⟩ <;> rcases of_put hk with ⟨rfl, rfl⟩ | ⟨-, hk₀⟩
    · rfl
    · exact h.done_inj j k σ υ t hi hk₀ (hdone ▸ hτ) hυ
    · exact h.done_inj j k τ σ t hj₀ hi hτ (hdone ▸ hυ)
    · exact h.done_inj j k τ υ t hj₀ hk₀ hτ hυ

theorem Coherent.push (h : Coherent V C R s)
    (hspec : wp V (Made V C) (C σ.op σ.began) (R σ.op σ.began) σ.prog σ.seen σ.tx σ.done)
    (hseen : σ.seen ≤ s.now) (hlive : ∀ x, σ.tx = some x → Live V s.now x)
    (hapart : ∀ τ ∈ s.sessions, Apart σ.locks τ.locks) (hbegan : σ.began ≤ s.now)
    (hdone : σ.done = none) : Coherent V C R { s with sessions := s.sessions ++ [σ] } where
  maker j hj := by
    obtain ⟨τ, hτ, hx⟩ := h.maker j hj
    exact ⟨τ, mem_append_left _ hτ, hx⟩
  began_le τ hτ := (mem_append.1 hτ).elim (h.began_le τ) (by simpa using fun e => e ▸ hbegan)
  spec τ hτ := (mem_append.1 hτ).elim (h.spec τ) (by simpa using fun e => e ▸ hspec)
  seen_le τ hτ := (mem_append.1 hτ).elim (h.seen_le τ) (by simpa using fun e => e ▸ hseen)
  live τ hτ := (mem_append.1 hτ).elim (h.live τ) (by simpa using fun e => e ▸ hlive)
  apart j k τ υ hjk hj hk := by
    rcases of_push hj with hj₀ | ⟨rfl, rfl⟩ <;> rcases of_push hk with hk₀ | ⟨rfl, rfl⟩
    · exact h.apart j k τ υ hjk hj₀ hk₀
    · exact (hapart τ (mem_of_getElem? hj₀)).symm
    · exact hapart υ (mem_of_getElem? hk₀)
    · exact absurd rfl hjk
  done_le τ hτ t ht := (mem_append.1 hτ).elim (fun m => h.done_le τ m t ht) fun m => by
    rw [mem_singleton.1 m, hdone] at ht
    cases ht
  done_inj j k τ υ t hj hk hτ hυ := by
    rcases of_push hj with hj₀ | ⟨rfl, rfl⟩ <;> rcases of_push hk with hk₀ | ⟨rfl, rfl⟩
    · exact h.done_inj j k τ υ t hj₀ hk₀ hτ hυ
    · simp [hdone] at hυ
    · simp [hdone] at hτ
    · rfl

omit [Rows D K W] in
theorem Sys.apart_of_free {ls : List (Lock K)} (h : s.free i ls = true) (hji : j ≠ i) (hj : s.sessions[j]? = some τ) :
    Apart ls τ.locks := by
  simp only [Sys.free, all_eq_true, Prod.forall, Bool.or_eq_true, decide_eq_true_eq, Bool.not_eq_true'] at h
  have hmem : (τ, j) ∈ s.sessions.zipIdx := mk_mem_zipIdx_iff_getElem?.2 hj
  have hfree := (h τ j hmem).resolve_left hji
  exact Apart.symm fun l hl l' hl' => hfree l hl l' hl'

theorem Live.add (h : Live V s.now x) {α : Type} (e : Effect K W α) :
    Live V s.now (x.add D e s.now) where
  quiet p hp := by
    rcases mem_append.1 hp with hp | hp
    · exact h.quiet p hp
    obtain ⟨l, -, rfl⟩ := mem_map.1 hp
    exact ⟨Nat.le_refl _, fun j v hgt hle => absurd hle (Nat.not_le.2 hgt)⟩
  covered w hw k hk := by
    simp only [Tx.locks, Tx.add, map_append, map_map, Function.comp_def, map_id', mem_append]
    rcases mem_append.1 hw with hw | hw
    · exact .inl (h.covered w hw k hk)
    refine .inr (mem_append_right _ (mem_map.2 ⟨k, ?_, rfl⟩))
    exact mem_flatMap.2 ⟨w, hw, hk⟩
  view_le := h.view_le

theorem Live.empty (V : List (Version D K)) (t : ℕ) : Live V t ({} : Tx K W) :=
  ⟨by simp, by simp, by simp⟩

omit [DecidableEq K] in
theorem Tx.locks_add {α : Type} (x : Tx K W) (e : Effect K W α) (t : ℕ) :
    (x.add D e t).locks = x.locks ++ e.locks D := by
  simp [Tx.locks, Tx.add, Function.comp_def]

theorem Live.commits (hx : Live V s.now x) (hpre : (s.close i σ x p).versions <+: V) :
    Commits V s.now x := by
  have hnow : (s.close i σ x p).now = s.now + 1 := by simp [Sys.close, Sys.put, Sys.publish, Sys.now]
  have hcur : V[s.now]? = some s.cur := past_of_prefix hpre (by
    simp [Sys.close, Sys.put, Sys.publish, Sys.versions, Sys.now])
  exact { hx with made := ⟨s.cur, hcur, hnow ▸ cur_of_prefix hpre⟩ }

/-- COMMIT: the next version carries the locks of `x`, which no other session was in conflict with,
    so every lock held elsewhere stays quiet. -/
theorem Coherent.close (h : Coherent V C R s) (hi : s.sessions[i]? = some σ) (hpre : (s.close i σ x p).versions <+: V)
    (hx : Live V s.now x)
    (hapart : ∀ (j : ℕ) τ, j ≠ i → s.sessions[j]? = some τ → Apart x.locks τ.locks)
    (hspec : Commits V s.now x → C σ.op σ.began s.now x ∧
      wp V (Made V C) (C σ.op σ.began) (R σ.op σ.began) p (s.now + 1) none (some (s.now + 1))) :
    Coherent V C R (s.close i σ x p) := by
  have hnow : (s.close i σ x p).now = s.now + 1 := by simp [Sys.close, Sys.put, Sys.publish, Sys.now]
  have hcommits := hx.commits hpre
  obtain ⟨_, -, hnew⟩ := hcommits.made
  obtain ⟨hC, hwp⟩ := hspec hcommits
  have hdone : ∀ (j : ℕ) (τ : Session D K W A Op), (s.close i σ x p).sessions[j]? = some τ →
      j = i ∧ τ.done = some (s.now + 1) ∨ ∃ υ, s.sessions[j]? = some υ ∧ υ.done = τ.done := by
    intro j τ hj
    rcases of_put hj with ⟨rfl, rfl⟩ | ⟨-, hj₀⟩
    · exact .inl ⟨rfl, rfl⟩
    · exact .inr ⟨τ, hj₀, rfl⟩
  have hbegan := h.began_le σ (mem_of_getElem? hi)
  refine ⟨fun j hj => ?_, fun τ hτ => ?_, fun τ hτ => ?_, fun τ hτ => ?_, fun τ hτ y hy => ?_, ?_,
    fun τ hτ t ht => ?_, fun j k τ υ t hj hk hτ hυ => ?_⟩
  · rcases Nat.lt_succ_iff_lt_or_eq.1 (hnow ▸ hj) with hlt | rfl
    · obtain ⟨τ, hτ, hle, hx⟩ := h.maker j hlt
      obtain ⟨υ, hυ, hop', hbegan'⟩ := mem_put
        { σ with prog := p, tx := none, seen := s.now + 1, done := some (s.now + 1) } hi rfl rfl hτ
      exact ⟨υ, hυ, hbegan' ▸ hle, by rwa [hop', hbegan']⟩
    · exact ⟨_, List.mem_set (List.getElem?_eq_some_iff.1 hi).1 _, hbegan, x, hcommits, hC⟩
  · rw [hnow]
    exact (mem_or_eq_of_mem_set hτ).elim (fun m => le_succ_of_le (h.began_le τ m))
      fun e => by subst e; exact le_succ_of_le hbegan
  · exact (mem_or_eq_of_mem_set hτ).elim (h.spec τ) fun e => by subst e; exact hwp
  · rw [hnow]
    exact (mem_or_eq_of_mem_set hτ).elim (fun m => le_succ_of_le (h.seen_le τ m))
      fun e => by subst e; exact Nat.le_refl _
  · obtain ⟨j, hj⟩ := mem_iff_getElem?.1 hτ
    rcases of_put hj with ⟨-, rfl⟩ | ⟨hji, hj₀⟩
    · cases hy
    have hlive := h.live τ (mem_of_getElem? hj₀) y hy
    have hτ : Apart y.locks x.locks := by
      have := (hapart j τ hji hj₀).symm
      rwa [Session.locks, hy] at this
    refine ⟨fun q hq => ?_, hlive.covered, fun k hk => hnow ▸ le_succ_of_le (hlive.view_le k hk)⟩
    obtain ⟨hle, hquiet⟩ := hlive.quiet q hq
    refine ⟨hnow ▸ le_succ_of_le hle, fun k v hgt hle' hv l hl => ?_⟩
    rcases Nat.lt_succ_iff_lt_or_eq.1 (Nat.lt_succ_of_le (hnow ▸ hle')) with hlt | rfl
    · exact hquiet k v hgt (le_of_lt_succ hlt) hv l hl
    rw [hnew, Option.some.injEq] at hv
    subst hv
    exact hτ q.1 (mem_map_of_mem hq) l hl
  · intro j k τ υ hjk hj hk
    rcases of_put hj with ⟨rfl, rfl⟩ | ⟨hji, hj₀⟩
    · exact fun l hl => absurd hl (by simp [Session.locks])
    rcases of_put hk with ⟨rfl, rfl⟩ | ⟨hki, hk₀⟩
    · exact fun l _ l' hl' => absurd hl' (by simp [Session.locks])
    · exact h.apart j k τ υ hjk hj₀ hk₀
  · obtain ⟨j, hj⟩ := mem_iff_getElem?.1 hτ
    rcases hdone j τ hj with ⟨-, e⟩ | ⟨υ, hυ, e⟩
    · exact hnow ▸ Nat.le_of_eq (Option.some.inj (e.symm.trans ht)).symm
    · exact hnow ▸ le_succ_of_le (h.done_le υ (mem_of_getElem? hυ) t (e.trans ht))
  · -- the new version is later than every commit before it
    have hold : ∀ {l : ℕ} {ρ : Session D K W A Op}, s.sessions[l]? = some ρ →
        ρ.done ≠ some (s.now + 1) := fun hl e =>
      not_succ_le_self _ (h.done_le _ (mem_of_getElem? hl) _ e)
    rcases hdone j τ hj with ⟨rfl, e⟩ | ⟨τ₀, hτ₀, e⟩ <;> rcases hdone k υ hk with ⟨rfl, f⟩ | ⟨υ₀, hυ₀, f⟩
    · rfl
    · exact absurd ((f.trans hυ).trans (hτ.symm.trans e)) (hold hυ₀)
    · exact absurd ((e.trans hτ).trans (hυ.symm.trans f)) (hold hτ₀)
    · exact h.done_inj j k τ₀ υ₀ t hτ₀ hυ₀ (e.trans hτ) (f.trans hυ)

theorem Coherent.strand (h : Coherent V C R s) (hi : s.sessions[i]? = some σ) (hx : Live V s.now x)
    (hapart : ∀ (j : ℕ) τ, j ≠ i → s.sessions[j]? = some τ → Apart x.locks τ.locks)
    (hC : ∀ t, s.now ≤ t → (∀ j < t, Made V C j) → Commits V t x → C σ.op σ.began t x)
    (hspec : wp V (Made V C) (C σ.op σ.began) (R σ.op σ.began) p σ.seen none σ.done) :
    Coherent V C R (s.strand i σ x p) := by
  have hput : Coherent V C R (s.put i { σ with prog := p, tx := none }) :=
    h.put hspec (h.seen_le σ (mem_of_getElem? hi)) (by simp)
      (fun _ _ _ _ l hl => absurd hl (by simp [Session.locks])) hi rfl rfl rfl
  refine hput.push (σ := ⟨σ.op, σ.began, s.now, .headless, some x, none⟩) ?_ (Nat.le_refl _)
    (by rintro y ⟨⟩; exact hx) (fun τ hτ => ?_) (h.began_le σ (mem_of_getElem? hi)) rfl
  · simp only [Prog.headless, wp, and_true, implies_true]
    exact hC
  · obtain ⟨j, hj⟩ := mem_iff_getElem?.1 hτ
    rcases of_put hj with ⟨-, rfl⟩ | ⟨hji, hj₀⟩
    · exact fun l _ l' hl' => absurd hl' (by simp [Session.locks])
    · exact hapart j τ hji hj₀

theorem Sys.versions_perform (h : s.perform i σ n = some s') : s.versions <+: s'.versions := by
  unfold Sys.perform at h
  split at h <;> (try split at h) <;> (try split at h) <;> first
    | contradiction
    | (obtain ⟨v, -, rfl⟩ := Option.map_eq_some_iff.1 h; exact prefix_refl _)
    | (cases h; exact prefix_refl _)
    | (cases h; exact prefix_append _ _)

theorem Sys.versions_step (h : s.step program ev = some s') : s.versions <+: s'.versions := by
  cases ev with
  | begin op => cases h; exact prefix_refl _
  | act i n =>
    obtain ⟨σ, -, h⟩ := Option.bind_eq_some_iff.1 h
    exact versions_perform h
  | fault i e =>
    obtain ⟨σ, -, h⟩ := Option.bind_eq_some_iff.1 h
    obtain ⟨p, -, rfl⟩ := Option.map_eq_some_iff.1 h
    exact prefix_refl _
  | orphan i n e =>
    obtain ⟨σ, -, h⟩ := Option.bind_eq_some_iff.1 h
    split at h
    · cases h; exact prefix_refl _
    · split at h
      · cases h
      split at h
      · cases h; exact prefix_refl _
      · cases h
    · cases h

/-! Sessions keep their operation and their beginning, and a finished session does not change. -/

theorem Sys.sessions_perform (h : s.perform i σ n = some s') :
    ∃ υ, s'.sessions = s.sessions.set i υ ∧ υ.op = σ.op ∧ υ.began = σ.began ∧ ∀ r, σ.prog ≠ .ret r := by
  unfold Sys.perform at h
  split at h <;> (try split at h) <;> (try split at h) <;> first
    | contradiction
    | (obtain ⟨v, -, rfl⟩ := Option.map_eq_some_iff.1 h; exact ⟨_, rfl, rfl, rfl, by simp_all⟩)
    | (cases h; exact ⟨_, rfl, rfl, rfl, by simp_all⟩)

theorem Sys.over_perform (h : s.perform i σ n = some s') : σ.prog.over = false := by
  unfold Sys.perform at h
  split at h <;> first | cases h; done | simp_all [Prog.over]

omit [Rows D K W] [DecidableEq K] in
theorem Prog.over_fail {q : Prog D K W A} {e : String} (h : p.fail e = some q) : p.over = false := by
  cases p <;> first | rfl | cases h

/-- An event begins a session, or it moves one that has not ended, which may leave a headless one behind. -/
theorem Sys.step_moved (h : s.step program ev = some s') :
    (∃ op, ev = .begin op ∧ s' = { s with
      sessions := s.sessions ++ [{ op, began := s.now, seen := s.now, prog := program op }] }) ∨
    ∃ i σ υ rest, ev.target = some i ∧ s.sessions[i]? = some σ ∧ σ.prog.over = false ∧
      s'.sessions = s.sessions.set i υ ++ rest ∧ υ.op = σ.op ∧ υ.began = σ.began ∧
      (∀ τ ∈ rest, τ.op = σ.op ∧ τ.began = σ.began) ∧ (rest = [] ∨ ∃ n e, ev = .orphan i n e) := by
  cases ev with
  | begin op =>
    cases h
    exact .inl ⟨op, rfl, rfl⟩
  | act i n =>
    obtain ⟨σ, hi, h⟩ := Option.bind_eq_some_iff.1 h
    obtain ⟨υ, hs', hop, hbegan, -⟩ := sessions_perform h
    exact .inr ⟨i, σ, υ, [], rfl, hi, over_perform h, by simp [hs'], hop, hbegan, by simp, .inl rfl⟩
  | fault i e =>
    obtain ⟨σ, hi, h⟩ := Option.bind_eq_some_iff.1 h
    obtain ⟨p, hp, rfl⟩ := Option.map_eq_some_iff.1 h
    exact .inr ⟨i, σ, { σ with prog := p }, [], rfl, hi, Prog.over_fail hp, by simp [Sys.put], rfl, rfl,
      by simp, .inl rfl⟩
  | orphan i n e =>
    obtain ⟨σ, hi, h⟩ := Option.bind_eq_some_iff.1 h
    have hstrand : ∃ x p, s' = s.strand i σ x p ∧ σ.prog.over = false := by
      split at h
      · cases h
        exact ⟨_, _, rfl, by simp_all [Prog.over]⟩
      · split at h
        · cases h
        split at h
        · cases h
          exact ⟨_, _, rfl, by simp_all [Prog.over]⟩
        · cases h
      · cases h
    obtain ⟨x, p, rfl, hover⟩ := hstrand
    exact .inr ⟨i, σ, _, _, rfl, hi, hover, rfl, rfl, rfl, by simp, .inr ⟨n, e, rfl⟩⟩

theorem Sys.sessions_step (h : s.step program ev = some s') :
    (∀ σ' ∈ s'.sessions, (∃ σ ∈ s.sessions, σ'.op = σ.op ∧ σ'.began = σ.began) ∨
      ev = .begin σ'.op ∧ σ'.began = s.now) ∧
    ∀ σ ∈ s.sessions, ∀ r, σ.prog = .ret r → σ ∈ s'.sessions := by
  rcases step_moved h with ⟨op, rfl, rfl⟩ | ⟨i, σ, υ, rest, -, hi, hover, hs', hop, hbegan, hrest, -⟩
  · refine ⟨fun σ' hσ' => ?_, fun σ hσ _ _ => mem_append_left _ hσ⟩
    rcases mem_append.1 hσ' with hσ' | hσ'
    · exact .inl ⟨σ', hσ', rfl, rfl⟩
    rw [mem_singleton.1 hσ']
    exact .inr ⟨rfl, rfl⟩
  · rw [hs']
    refine ⟨fun σ' hσ' => .inl ?_, fun τ hτ r hr => mem_append_left _ ?_⟩
    · rcases mem_append.1 hσ' with hσ' | hσ'
      · rcases mem_or_eq_of_mem_set hσ' with hσ' | rfl
        · exact ⟨σ', hσ', rfl, rfl⟩
        · exact ⟨σ, mem_of_getElem? hi, hop, hbegan⟩
      · exact ⟨σ, mem_of_getElem? hi, hrest σ' hσ'⟩
    · -- the session that moves has not finished
      obtain ⟨j, hj⟩ := mem_iff_getElem?.1 hτ
      have hij : i ≠ j := by
        rintro rfl
        cases hi.symm.trans hj
        simp [hr, Prog.over] at hover
      exact mem_of_getElem? (getElem?_set_ne hij ▸ hj)

/-- A session that has not ended is one that had not ended before, or it begins now. -/
theorem Sys.unended_step (h : s.step program ev = some s')
    {σ' : Session D K W A Op} (hσ' : σ' ∈ s'.sessions) (hover : σ'.prog.over = false) :
    (∃ σ ∈ s.sessions, σ'.op = σ.op ∧ σ.prog.over = false) ∨ ev = .begin σ'.op := by
  rcases step_moved h with ⟨op, rfl, rfl⟩ | ⟨i, σ, υ, rest, -, hi, hσ, hs', hop, -, hrest, -⟩
  · rcases mem_append.1 hσ' with hσ' | hσ'
    · exact .inl ⟨σ', hσ', rfl, hover⟩
    rw [mem_singleton.1 hσ']
    exact .inr rfl
  · rw [hs'] at hσ'
    rcases mem_append.1 hσ' with hσ' | hσ'
    · rcases mem_or_eq_of_mem_set hσ' with hσ' | rfl
      · exact .inl ⟨σ', hσ', rfl, hover⟩
      · exact .inl ⟨σ, mem_of_getElem? hi, hop, hσ⟩
    · exact .inl ⟨σ, mem_of_getElem? hi, (hrest σ' hσ').1, hσ⟩

theorem Coherent.perform (h : Coherent V C R s) (hi : s.sessions[i]? = some σ)
    (hs : s.perform i σ n = some s') (hpre : s'.versions <+: V) : Coherent V C R s' := by
  have hseen := h.seen ((versions_perform hs).trans hpre)
  have hspec := h.spec σ (mem_of_getElem? hi)
  have hle := h.seen_le σ (mem_of_getElem? hi)
  have hlive := h.live σ (mem_of_getElem? hi)
  have hapart : ∀ (j : ℕ) τ, j ≠ i → s.sessions[j]? = some τ → Apart σ.locks τ.locks :=
    fun j τ hji hj => h.apart i j σ τ (Ne.symm hji) hi hj
  have hnone : ∀ (j : ℕ) (τ : Session D K W A Op), j ≠ i → s.sessions[j]? = some τ →
      Apart ([] : List (Lock K)) τ.locks := fun _ _ _ _ l hl => absurd hl (by simp)
  obtain ⟨op, began, a, prog, tx, dn⟩ := σ
  cases prog with
  | ret r => cases hs
  | halt => cases hs
  | ask k => cases hs; exact h.put (hspec.1 n) hle hlive hapart hi rfl rfl rfl
  | query q k =>
    cases tx with
    | none => cases hs; exact h.put (hspec.1 _ _ hle hseen) (Nat.le_refl _) (by simp) hnone hi rfl rfl rfl
    | some x =>
      have hx := hlive x rfl
      cases hview : x.view with
      | none =>
        simp only [Sys.perform, hview] at hs
        cases hs
        refine h.put (hspec.1 _ _ hle hseen hview) (Nat.le_refl _) ?_ hapart hi rfl rfl rfl
        rintro y ⟨⟩
        exact ⟨hx.quiet, hx.covered, fun j hj => Nat.le_of_eq (Option.some.inj hj).symm⟩
      | some j =>
        simp only [Sys.perform, hview] at hs
        obtain ⟨v, hv, rfl⟩ := Option.map_eq_some_iff.1 hs
        have hj : Seen V (Made V C) j v :=
          ⟨Sys.past_of_prefix hpre hv, fun m hm => h.made m (Nat.lt_of_lt_of_le hm (hx.view_le j hview))⟩
        exact h.put (hspec.2.1 j v hview hj) hle hlive hapart hi rfl rfl rfl
  | stmt st k =>
    cases tx with
    | none =>
      cases hst : st n s.cur.db with
      | error e =>
        simp only [Sys.perform, hst] at hs
        cases hs
        exact h.put (hspec.2 e) hle hlive hapart hi rfl rfl rfl
      | ok e =>
        simp only [Sys.perform, hst] at hs
        split at hs
        · rename_i hfree
          cases hs
          have hx := (Live.empty V s.now).add e
          obtain ⟨hC, hnext⟩ := hspec.1 s.now s.cur n e hle hseen hst
          refine h.close hi hpre hx (fun j τ hji hj => ?_) fun hc =>
            ⟨hC s.now (Nat.le_refl _) h.made hc, hnext hc⟩
          rw [Tx.locks_add]
          exact .append (hnone j τ hji hj) (apart_of_free hfree hji hj)
        · cases hs
    | some x =>
      cases hst : st n (applyAll x.writes s.cur.db) with
      | error e =>
        simp only [Sys.perform, hst] at hs
        cases hs
        exact h.put (hspec.2 e) hle hlive hapart hi rfl rfl rfl
      | ok e =>
        simp only [Sys.perform, hst] at hs
        split at hs
        · rename_i hfree
          cases hs
          refine h.put (hspec.1 s.now s.cur n e hle hseen hst) (Nat.le_refl _) ?_ (fun j τ hji hj => ?_)
            hi rfl rfl rfl
          · rintro y ⟨⟩
            exact (hlive x rfl).add e
          · have := hapart j τ hji hj
            simp only [Session.locks, Option.map_some, Option.getD_some, Tx.locks_add] at this ⊢
            exact .append this (apart_of_free hfree hji hj)
        · cases hs
  | start k =>
    cases tx with
    | none =>
      cases hs
      exact h.put hspec.1 hle (by rintro y ⟨⟩; exact Live.empty V s.now) hnone hi rfl rfl rfl
    | some x => cases hs
  | commit k =>
    cases tx with
    | none => cases hs; exact h.put hspec.1 hle (by simp) hnone hi rfl rfl rfl
    | some x =>
      cases hs
      exact h.close hi hpre (hlive x rfl) hapart fun hc => hspec.1 s.now hle h.made hc
  | rollback k => cases hs; exact h.put hspec.1 hle (by simp) hnone hi rfl rfl rfl
  | abort p => cases hs; exact h.put hspec hle (by simp) hnone hi rfl rfl rfl

/-- An action publishes nothing, or it publishes what the operation of its session commits. -/
theorem Coherent.published (h : Coherent V C R s) (hi : s.sessions[i]? = some σ)
    (hs : s.perform i σ n = some s') (hpre : s'.versions <+: V) :
    s'.versions = s.versions ∨ ∃ x, s'.versions = s.versions ++ [⟨applyAll x.writes s.cur.db, x.locks⟩] ∧
      Commits V s.now x ∧ C σ.op σ.began s.now x := by
  have hseen := h.seen ((versions_perform hs).trans hpre)
  have hspec := h.spec σ (mem_of_getElem? hi)
  have hle := h.seen_le σ (mem_of_getElem? hi)
  have hlive := h.live σ (mem_of_getElem? hi)
  obtain ⟨op, began, a, prog, tx, dn⟩ := σ
  cases prog with
  | ret r | halt => cases hs
  | ask k | rollback k | abort p => cases hs; exact .inl rfl
  | query q k =>
    cases tx with
    | none => cases hs; exact .inl rfl
    | some x =>
      simp only [Sys.perform] at hs
      split at hs
      · cases hs; exact .inl rfl
      obtain ⟨v, -, rfl⟩ := Option.map_eq_some_iff.1 hs
      exact .inl rfl
  | stmt st k =>
    cases tx with
    | none =>
      cases hst : st n s.cur.db with
      | error e =>
        simp only [Sys.perform, hst] at hs
        cases hs
        exact .inl rfl
      | ok e =>
        simp only [Sys.perform, hst] at hs
        split at hs
        · cases hs
          have hc := ((Live.empty V s.now).add e).commits hpre
          exact .inr ⟨_, rfl, hc, (hspec.1 s.now s.cur n e hle hseen hst).1 s.now (Nat.le_refl _) h.made hc⟩
        · cases hs
    | some x =>
      simp only [Sys.perform] at hs
      split at hs
      · cases hs; exact .inl rfl
      split at hs
      · cases hs; exact .inl rfl
      · cases hs
  | start k =>
    cases tx with
    | none => cases hs; exact .inl rfl
    | some x => cases hs
  | commit k =>
    cases tx with
    | none => cases hs; exact .inl rfl
    | some x =>
      cases hs
      have hc := (hlive x rfl).commits hpre
      exact .inr ⟨x, rfl, hc, (hspec.1 s.now hle h.made hc).1⟩

/-- A failure of the next action is one of the branches `wp` provides for. -/
theorem wp_fail {V : List (Version D K)} {J : ℕ → Prop} {C : ℕ → Tx K W → Prop} {R : A → Post K W}
    {q : Prog D K W A} {a : ℕ} {tx : Option (Tx K W)} {dn : Option ℕ} {e : String} (hq : p.fail e = some q)
    (h : wp V J C R p a tx dn) : wp V J C R q a tx dn := by
  cases p <;> cases hq
  case ask => exact h.2 e
  case query => cases tx with | none => exact h.2 e | some x => exact h.2.2 e
  case stmt => cases tx with | none => exact h.2 e | some x => exact h.2 e
  case start => cases tx with | none => exact h.2 e | some x => exact h e
  case commit => cases tx with | none => exact h.2 e | some x => exact (h.2 e).1
  case rollback => exact h.2 e

theorem Coherent.step (hprog : ∀ op b, wp V (Made V C) (C op b) (R op b) (program op) b none none)
    (h : Coherent V C R s) (hs : s.step program ev = some s') (hpre : s'.versions <+: V) :
    Coherent V C R s' := by
  cases ev with
  | begin op =>
    cases hs
    exact h.push (hprog op s.now) (Nat.le_refl _) (by simp)
      (fun _ _ l hl => absurd hl (by simp [Session.locks])) (Nat.le_refl _) rfl
  | act i n =>
    obtain ⟨σ, hi, hs⟩ := Option.bind_eq_some_iff.1 hs
    exact h.perform hi hs hpre
  | fault i e =>
    obtain ⟨σ, hi, hs⟩ := Option.bind_eq_some_iff.1 hs
    obtain ⟨p, hp, rfl⟩ := Option.map_eq_some_iff.1 hs
    have hmem := mem_of_getElem? hi
    exact h.put (wp_fail hp (h.spec σ hmem)) (h.seen_le σ hmem) (h.live σ hmem)
      (fun j τ hji hj => h.apart i j σ τ (Ne.symm hji) hi hj) hi rfl rfl rfl
  | orphan i n e =>
    obtain ⟨σ, hi, hs⟩ := Option.bind_eq_some_iff.1 hs
    have hmem := mem_of_getElem? hi
    have hspec := h.spec σ hmem
    have hle := h.seen_le σ hmem
    split at hs
    · rename_i k x hk hx
      cases hs
      rw [hk, hx] at hspec
      refine h.strand hi (h.live σ hmem x hx) (fun j τ hji hj => ?_)
        (fun t ht hm hc => (hspec.1 t (Nat.le_trans hle ht) hm hc).1) (hspec.2 e).2
      have := h.apart i j σ τ (.symm hji) hi hj
      rwa [Session.locks, hx] at this
    · rename_i st k hk hx
      rw [hk, hx] at hspec
      split at hs
      · cases hs
      rename_i eff hst
      split at hs
      · rename_i hfree
        cases hs
        have hseen := h.seen hpre
        refine h.strand hi ((Live.empty V s.now).add eff) (fun j τ hji hj => ?_)
          (hspec.1 s.now s.cur n eff hle hseen hst).1 (hspec.2 e)
        rw [Tx.locks_add]
        exact Apart.append (fun l hl => absurd hl (by simp [Tx.locks])) (apart_of_free hfree hji hj)
      · cases hs
    · cases hs

theorem Sys.versions_run :
    ∀ {evs : List (Event Op)} {s : Sys D K W A Op}, s.run program evs = some s' →
      s.versions <+: s'.versions
  | [], _, hr => by cases hr; exact prefix_refl _
  | ev :: evs, s, hr => by
    obtain ⟨t, ht, hr⟩ := Option.bind_eq_some_iff.1 (show (s.step program ev).bind _ = _ from hr)
    exact (versions_step ht).trans (versions_run hr)

theorem Coherent.run (hprog : ∀ op b, wp V (Made V C) (C op b) (R op b) (program op) b none none) :
    ∀ {evs : List (Event Op)} {s : Sys D K W A Op}, Coherent V C R s →
      s.run program evs = some s' → s'.versions <+: V → Coherent V C R s'
  | [], _, h, hr, _ => by cases hr; exact h
  | ev :: evs, s, h, hr, hpre => by
    obtain ⟨t, ht, hr⟩ := Option.bind_eq_some_iff.1 (show (s.step program ev).bind _ = _ from hr)
    exact Coherent.run hprog (h.step hprog ht ((versions_run hr).trans hpre)) hr hpre

theorem Coherent.init (V : List (Version D K)) (C : Op → ℕ → ℕ → Tx K W → Prop)
    (R : Op → ℕ → A → Post K W) (d : D) : Coherent V C R (Sys.init d) :=
  ⟨by simp [Sys.init, Sys.now], by simp [Sys.init], by simp [Sys.init], by simp [Sys.init],
    by simp [Sys.init], by simp [Sys.init], by simp [Sys.init], by simp [Sys.init]⟩

/-- Soundness: every interleaving of programs that meet their `wp` is coherent. -/
theorem run_spec {d : D} {evs : List (Event Op)} (hrun : (Sys.init d).run program evs = some s)
    (hprog : ∀ op b, wp s.versions (Made s.versions C) (C op b) (R op b) (program op) b none none) :
    Coherent s.versions C R s :=
  Coherent.run hprog (Coherent.init _ _ _ d) hrun (prefix_refl _)

omit [Rows D K W] [DecidableEq K] in
theorem Sys.cur_of_versions {l : List (Version D K)} (h : s.versions = l ++ [v]) :
    s.cur = v := (append_inj' h rfl).2 |> singleton_inj.1

/-- One more event of a run: the current version stays, or an action has published the next one. -/
theorem step_spec {d : D} {evs : List (Event Op)}
    (hrun : (Sys.init d).run program evs = some s) (hs : s.step program ev = some s')
    (hprog : ∀ op b, wp s'.versions (Made s'.versions C) (C op b) (R op b) (program op) b none none) :
    s'.versions = s.versions ∨ ∃ i n σ x, ev = .act i n ∧ s.sessions[i]? = some σ ∧
      s'.versions = s.versions ++ [⟨applyAll x.writes s.cur.db, x.locks⟩] ∧
      Commits s'.versions s.now x ∧ C σ.op σ.began s.now x := by
  have hcoherent : Coherent s'.versions C R s :=
    Coherent.run hprog (Coherent.init _ _ _ d) hrun (versions_step hs)
  cases ev with
  | begin op => cases hs; exact .inl rfl
  | act i n =>
    obtain ⟨σ, hi, hs⟩ := Option.bind_eq_some_iff.1 hs
    rcases hcoherent.published hi hs (prefix_refl _) with hsame | ⟨x, hx⟩
    · exact .inl hsame
    · exact .inr ⟨i, n, σ, x, rfl, hi, hx⟩
  | fault i e =>
    obtain ⟨σ, -, hs⟩ := Option.bind_eq_some_iff.1 hs
    obtain ⟨p, -, rfl⟩ := Option.map_eq_some_iff.1 hs
    exact .inl rfl
  | orphan i n e =>
    obtain ⟨σ, -, hs⟩ := Option.bind_eq_some_iff.1 hs
    split at hs
    · cases hs; exact .inl rfl
    · split at hs
      · cases hs
      split at hs
      · cases hs; exact .inl rfl
      · cases hs
    · cases hs

/-- A finished session has answered as its program promised. -/
theorem Coherent.answer (h : Coherent V C R s) (hσ : σ ∈ s.sessions) {r : A}
    (hr : σ.prog = .ret r) : R σ.op σ.began r σ.seen σ.tx σ.done := by
  have := h.spec σ hσ
  rwa [hr] at this

end soundness

end Txn
