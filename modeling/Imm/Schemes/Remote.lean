import Mathlib.Data.List.Basic

/-! Calls to a remote store. A call is carried out at most once, at any time after it was sent, even
    when its caller has stopped waiting; its reply may get lost. The store's values may expire. -/

namespace Remote

/-! ### Calls -/

/-- A call, with its reply once it has been carried out. -/
structure Call (W C R : Type) where
  caller : W
  command : C
  reply : Option R := none

variable {W C R : Type}

/-- The call `n` of the history has been carried out with the reply `r`. -/
def Done (cs : List (Call W C R)) (n : ℕ) (w : W) (c : C) (r : R) : Prop := cs[n]? = some ⟨w, c, some r⟩

/-- One more call has been sent. -/
def send (cs : List (Call W C R)) (w : W) (c : C) : List (Call W C R) := cs ++ [⟨w, c, none⟩]

/-- The call `n` has been carried out. -/
def answer (cs : List (Call W C R)) (n : ℕ) (r : R) : List (Call W C R) :=
  cs.modify n fun call => { call with reply := some r }

variable {cs : List (Call W C R)} {n m : ℕ} {w w' : W} {c c' : C} {r r' : R}

@[simp] theorem done_send : Done (send cs w c) n w' c' r ↔ Done cs n w' c' r := by
  unfold Done send
  rcases Nat.lt_trichotomy n cs.length with hlt | rfl | hgt
  · rw [List.getElem?_append_left hlt]
  · simp
  rw [List.getElem?_eq_none (by simpa using Nat.succ_le_of_lt hgt), List.getElem?_eq_none (Nat.le_of_lt hgt)]

theorem done_answer (h : cs[m]? = some ⟨w, c, none⟩) :
    Done (answer cs m r) n w' c' r' ↔ Done cs n w' c' r' ∨ n = m ∧ w' = w ∧ c' = c ∧ r' = r := by
  unfold Done answer
  by_cases hnm : n = m
  · subst hnm
    simp [h, eq_comm]
  · simp [hnm, Ne.symm hnm]

/-- The calls of `cs` are there in `cs'`, with their replies. -/
def Grows (cs cs' : List (Call W C R)) : Prop :=
  ∀ (n : ℕ) w c r, cs[n]? = some ⟨w, c, r⟩ → ∃ r', cs'[n]? = some ⟨w, c, r'⟩ ∧ (r ≠ none → r' = r)

theorem Grows.refl (cs : List (Call W C R)) : Grows cs cs := fun _ _ _ r h => ⟨r, h, fun _ => rfl⟩

theorem grows_send (cs : List (Call W C R)) (w : W) (c : C) : Grows cs (send cs w c) := by
  intro n w' c' r h
  refine ⟨r, ?_, fun _ => rfl⟩
  rw [send, List.getElem?_append_left (List.getElem?_eq_some_iff.1 h).1, h]

theorem grows_answer (h : cs[m]? = some ⟨w, c, none⟩) : Grows cs (answer cs m r) := by
  intro n w' c' r' h'
  by_cases hnm : m = n
  · subst hnm
    obtain ⟨rfl, rfl, rfl⟩ : w = w' ∧ c = c' ∧ none = r' := by simpa using h.symm.trans h'
    exact ⟨some r, by simp [answer, h], fun h => absurd rfl h⟩
  · exact ⟨r', by simp [answer, hnm, h'], fun _ => rfl⟩

theorem Done.grows {cs' : List (Call W C R)} (h : Done cs n w c r) (hgrows : Grows cs cs') :
    Done cs' n w c r := by
  obtain ⟨r', hr', hkept⟩ := hgrows n w c (some r) h
  rw [Done, hr', hkept (by simp)]

/-- What holds of every call that is sent holds of every call. -/
theorem forall_send {P : W → C → Prop} :
    (∀ call ∈ send cs w c, P call.caller call.command) ↔
      (∀ call ∈ cs, P call.caller call.command) ∧ P w c := by
  simp [send, or_imp, forall_and]

theorem forall_answer {P : W → C → Prop} (h : ∀ call ∈ cs, P call.caller call.command) :
    ∀ call ∈ answer cs m r, P call.caller call.command := by
  intro call hcall
  obtain ⟨n, hn⟩ := List.getElem?_of_mem hcall
  rw [answer, List.getElem?_modify] at hn
  obtain ⟨old, hold, rfl⟩ := Option.map_eq_some_iff.1 hn
  have := h old (List.mem_of_getElem? hold)
  split <;> exact this

/-! ### Values that expire -/

/-- A value that is there up to its deadline. -/
structure Expiring (α : Type) where
  value : α
  deadline : ℕ

variable {α : Type}

/-- What is left of a value at the time `now`. -/
def live (now : ℕ) (e : Option (Expiring α)) : Option α :=
  e.bind fun e => if now ≤ e.deadline then some e.value else none

@[simp] theorem live_none (now : ℕ) : live now (none : Option (Expiring α)) = none := rfl

theorem live_some {now : ℕ} {e : Option (Expiring α)} {v : α} :
    live now e = some v ↔ ∃ deadline, e = some ⟨v, deadline⟩ ∧ now ≤ deadline := by
  cases e with
  | none => simp
  | some e =>
    obtain ⟨value, deadline⟩ := e
    simp only [live, Option.bind_some, Option.ite_none_right_eq_some, Option.some.injEq, Expiring.mk.injEq]
    constructor
    · rintro ⟨hle, rfl⟩
      exact ⟨deadline, ⟨rfl, rfl⟩, hle⟩
    · rintro ⟨_, ⟨rfl, rfl⟩, hle⟩
      exact ⟨hle, rfl⟩

theorem live_fresh (now : ℕ) (v : α) (ttl : ℕ) : live now (some ⟨v, now + ttl⟩) = some v :=
  live_some.2 ⟨_, rfl, Nat.le_add_right now ttl⟩

theorem live_earlier {now later : ℕ} {e : Option (Expiring α)} {v : α} (hle : now ≤ later)
    (h : live later e = some v) : live now e = some v := by
  obtain ⟨deadline, rfl, hdeadline⟩ := live_some.1 h
  exact live_some.2 ⟨deadline, rfl, Nat.le_trans hle hdeadline⟩

end Remote
