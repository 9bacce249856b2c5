import Imm.Schemes.Paths
import Imm.Schemes.Semaphore
import Imm.Socket.Connection

/-! The `budget` of a shard and those who hold some of it. A budget is two semaphores, one that counts the
    holders and one for their bytes; both are tried, and what one of them gave goes back when the other
    gives nothing. The budget of `message_io` is the same without `resize`. Whatever the holders do, what
    is free and what is held make up the capacity. -/

namespace Imm.GatewayIo

open Steps List

structure CapacityUnits where
  count : ℕ
  bytes : ℕ
  deriving DecidableEq, Repr

structure Budget where
  count : Semaphore
  bytes : Semaphore
  deriving DecidableEq, Repr

namespace Budget

variable (b : Budget)

/-- The new budget, and the units or the exception. -/
def acquire (bytes : ℕ) : Budget × Except LinkError CapacityUnits :=
  let count := b.count.tryGetUnits 1
  let storage := b.bytes.tryGetUnits bytes
  match count.2, storage.2 with
  | some one, some taken => (⟨count.1, storage.1⟩, .ok ⟨one, taken⟩)
  | one, taken => (⟨count.1.drop one, storage.1.drop taken⟩, .error .overloaded)

/-- The new budget, what the holder then has, and the exception, if any. -/
def resize (units : CapacityUnits) (bytes : ℕ) : Budget × CapacityUnits × Except LinkError Unit :=
  let old := units.bytes
  if old < bytes then
    match b.bytes.tryGetUnits (bytes - old) with
    | (semaphore, none) => ({ b with bytes := semaphore }, units, .error .overloaded)
    | (semaphore, some extra) => ({ b with bytes := semaphore }, { units with bytes := old + extra }, .ok ())
  else
    ({ b with bytes := b.bytes.signal (old - bytes) }, { units with bytes := old - (old - bytes) }, .ok ())

/-- The destructors of `capacity_units`. -/
def release (units : CapacityUnits) : Budget := ⟨b.count.signal units.count, b.bytes.signal units.bytes⟩

variable {b} {n : ℕ} {units : CapacityUnits}

theorem acquire_granted (hcount : 1 ≤ b.count.available) (hbytes : (n : ℤ) ≤ b.bytes.available) :
    b.acquire n = (⟨⟨b.count.available - 1⟩, ⟨b.bytes.available - n⟩⟩, .ok ⟨1, n⟩) := by
  have hone := Semaphore.tryGetUnits_granted (s := b.count) (n := 1) hcount
  simp [acquire, hone, Semaphore.tryGetUnits_granted hbytes]

theorem acquire_refused (h : b.count.available < 1 ∨ b.bytes.available < n) :
    b.acquire n = (b, .error .overloaded) := by
  have hcount := Semaphore.drop_tryGetUnits (s := b.count) (n := 1)
  have hbytes := Semaphore.drop_tryGetUnits (s := b.bytes) (n := n)
  have hnone : (b.count.tryGetUnits 1).2 = none ∨ (b.bytes.tryGetUnits n).2 = none := by
    refine h.imp (fun h => ?_) fun h => ?_
    · rw [Semaphore.tryGetUnits_refused h]
    · rw [Semaphore.tryGetUnits_refused h]
  unfold acquire
  dsimp only
  split
  · rename_i one taken hone htaken
    simp [hone, htaken] at hnone
  · rw [hcount, hbytes]

theorem resize_granted (hgrowth : (n : ℤ) - units.bytes ≤ b.bytes.available) :
    b.resize units n =
      ({ b with bytes := ⟨b.bytes.available + units.bytes - n⟩ }, { units with bytes := n }, .ok ()) := by
  unfold resize
  dsimp only
  split
  · rename_i hmore
    have hextra : ((n - units.bytes : ℕ) : ℤ) ≤ b.bytes.available := by omega
    simp only [Semaphore.tryGetUnits_granted hextra, Prod.mk.injEq, Budget.mk.injEq, Semaphore.mk.injEq,
      CapacityUnits.mk.injEq, true_and, and_true]
    omega
  · simp only [Semaphore.signal, Prod.mk.injEq, Budget.mk.injEq, Semaphore.mk.injEq, CapacityUnits.mk.injEq,
      true_and, and_true]
    omega

theorem resize_refused (hfree : 0 ≤ b.bytes.available) (hgrowth : b.bytes.available < (n : ℤ) - units.bytes) :
    b.resize units n = (b, units, .error .overloaded) := by
  have hextra : b.bytes.available < ((n - units.bytes : ℕ) : ℤ) := by omega
  unfold resize
  rw [if_pos (by omega)]
  simp only [Semaphore.tryGetUnits_refused hextra]

end Budget

/-! ### The holders -/

/-- A budget and the units its holders have. -/
structure Shared where
  budget : Budget
  holders : List CapacityUnits := []
  deriving DecidableEq, Repr

inductive BudgetEvent where
  | acquire (bytes : ℕ)
  | resize (holder bytes : ℕ)
  | release (holder : ℕ)

namespace Shared

def fresh (count bytes : ℕ) : Shared := { budget := ⟨⟨count⟩, ⟨bytes⟩⟩ }

/-- An exception leaves the holder with what it had, or without anything. -/
def step (s : Shared) : BudgetEvent → Option Shared
  | .acquire bytes =>
    match s.budget.acquire bytes with
    | (budget, .ok units) => some ⟨budget, s.holders ++ [units]⟩
    | (budget, .error _) => some { s with budget }
  | .resize holder bytes =>
    match s.holders[holder]? with
    | none => none
    | some units =>
      let result := s.budget.resize units bytes
      some ⟨result.1, s.holders.set holder result.2.1⟩
  | .release holder =>
    match s.holders[holder]? with
    | none => none
    | some units => some ⟨s.budget.release units, s.holders.eraseIdx holder⟩

def heldCount (s : Shared) : ℕ := (s.holders.map (·.count)).sum

def heldBytes (s : Shared) : ℕ := (s.holders.map (·.bytes)).sum

/-- Free and held units make up the capacity; every holder has one unit of the count. -/
structure Conserved (count bytes : ℕ) (s : Shared) : Prop where
  count : s.budget.count.available + s.heldCount = count
  bytes : s.budget.bytes.available + s.heldBytes = bytes
  countFree : 0 ≤ s.budget.count.available
  bytesFree : 0 ≤ s.budget.bytes.available
  one : ∀ units ∈ s.holders, units.count = 1

variable {count bytes n i : ℕ} {s s' : Shared} {units : CapacityUnits}

theorem sum_holder (f : CapacityUnits → ℕ) {holders : List CapacityUnits} (h : holders[i]? = some units) :
    (holders.map f).sum = ((holders.take i).map f).sum + (f units + ((holders.drop (i + 1)).map f).sum) := by
  obtain ⟨hi, rfl⟩ := List.getElem?_eq_some_iff.1 h
  conv_lhs => rw [← take_append_drop i holders, drop_eq_getElem_cons hi]
  simp only [map_append, map_cons, sum_append, sum_cons]

theorem sum_set (f : CapacityUnits → ℕ) {holders : List CapacityUnits} (h : holders[i]? = some units)
    (units' : CapacityUnits) :
    ((holders.set i units').map f).sum + f units = (holders.map f).sum + f units' := by
  obtain ⟨hi, -⟩ := List.getElem?_eq_some_iff.1 h
  rw [sum_holder f h, set_eq_take_append_cons_drop, if_pos hi]
  simp only [map_append, sum_append, map_cons, sum_cons]
  omega

theorem sum_eraseIdx (f : CapacityUnits → ℕ) {holders : List CapacityUnits} (h : holders[i]? = some units) :
    ((holders.eraseIdx i).map f).sum + f units = (holders.map f).sum := by
  rw [sum_holder f h, eraseIdx_eq_take_drop_succ]
  simp only [map_append, sum_append]
  omega

theorem fresh_conserved (count bytes : ℕ) : (fresh count bytes).Conserved count bytes where
  count := by simp [fresh, heldCount]
  bytes := by simp [fresh, heldBytes]
  countFree := by simp [fresh]
  bytesFree := by simp [fresh]
  one := by simp [fresh]

theorem Conserved.acquire (h : s.Conserved count bytes) (hstep : s.step (.acquire n) = some s') :
    s'.Conserved count bytes := by
  by_cases hfree : s.budget.count.available < 1 ∨ s.budget.bytes.available < n
  · simp only [step, Budget.acquire_refused hfree, Option.some.injEq] at hstep
    exact hstep ▸ h
  obtain ⟨hcount, hbytes⟩ := not_or.1 hfree
  simp only [step, Budget.acquire_granted (not_lt.1 hcount) (not_lt.1 hbytes), Option.some.injEq] at hstep
  obtain ⟨hc, hb, -, -, hone⟩ := h
  subst hstep
  constructor
  · simp only [heldCount, map_append, sum_append, map_cons, sum_cons] at hc ⊢
    simp only [map_nil, sum_nil]
    omega
  · simp only [heldBytes, map_append, sum_append, map_cons, sum_cons] at hb ⊢
    simp only [map_nil, sum_nil]
    omega
  · exact sub_nonneg.2 (not_lt.1 hcount)
  · exact sub_nonneg.2 (not_lt.1 hbytes)
  · intro units hunits
    rcases mem_append.1 hunits with hunits | hunits
    · exact hone units hunits
    · rw [mem_singleton.1 hunits]

theorem Conserved.resize (h : s.Conserved count bytes) (hstep : s.step (.resize i n) = some s') :
    s'.Conserved count bytes := by
  simp only [Shared.step] at hstep
  split at hstep
  · cases hstep
  rename_i units hholder
  rcases lt_or_ge s.budget.bytes.available ((n : ℤ) - units.bytes) with hgrowth | hgrowth
  · have hself : s.holders.set i units = s.holders := by
      obtain ⟨hi, rfl⟩ := List.getElem?_eq_some_iff.1 hholder
      exact set_getElem_self hi
    rw [Budget.resize_refused h.bytesFree hgrowth, hself] at hstep
    cases hstep
    exact h
  · rw [Budget.resize_granted hgrowth] at hstep
    cases hstep
    have hcounts := sum_set (·.count) hholder { units with bytes := n }
    have hsizes := sum_set (·.bytes) hholder { units with bytes := n }
    dsimp only at hcounts hsizes
    obtain ⟨hc, hb, hcount, -, hone⟩ := h
    simp only [heldCount, heldBytes] at hc hb
    refine ⟨?_, ?_, hcount, ?_, ?_⟩
    · simp only [heldCount]
      omega
    · simp only [heldBytes]
      omega
    · dsimp only
      omega
    · intro units' hunits'
      rcases mem_or_eq_of_mem_set hunits' with hold | rfl
      · exact hone units' hold
      · exact hone units (mem_of_getElem? hholder)

theorem Conserved.release (h : s.Conserved count bytes) (hstep : s.step (.release i) = some s') :
    s'.Conserved count bytes := by
  simp only [Shared.step] at hstep
  split at hstep
  · cases hstep
  rename_i units hholder
  cases hstep
  have hcounts := sum_eraseIdx (·.count) hholder
  have hsizes := sum_eraseIdx (·.bytes) hholder
  obtain ⟨hc, hb, hcount, hbytes, hone⟩ := h
  simp only [heldCount, heldBytes] at hc hb
  refine ⟨?_, ?_, ?_, ?_, fun units' hunits' => hone units' (mem_of_mem_eraseIdx hunits')⟩
  · simp only [heldCount, Budget.release, Semaphore.signal_available]
    omega
  · simp only [heldBytes, Budget.release, Semaphore.signal_available]
    omega
  · simp only [Budget.release, Semaphore.signal_available]
    omega
  · simp only [Budget.release, Semaphore.signal_available]
    omega

theorem Conserved.step (h : s.Conserved count bytes) {e : BudgetEvent} (hstep : s.step e = some s') :
    s'.Conserved count bytes := by
  cases e with
  | acquire n => exact h.acquire hstep
  | resize i n => exact h.resize hstep
  | release i => exact h.release hstep

theorem run_conserved {events : List BudgetEvent}
    (hrun : events.foldlM Shared.step (fresh count bytes) = some s) :
    s.Conserved count bytes :=
  run_invariant (fresh_conserved count bytes) (fun _ _ _ h hstep => h.step hstep) hrun

/-- Whatever the holders have done, the free units and those they hold make up the capacity. A request that
    cannot be met is refused and changes nothing, neither the semaphores nor what the holder has; a holder
    whose bytes were changed has just those. -/
theorem budget_conserved (count bytes : ℕ) {events : List BudgetEvent} {s : Shared}
    (hrun : events.foldlM Shared.step (fresh count bytes) = some s) :
    s.budget.count.available + s.heldCount = count ∧ s.budget.bytes.available + s.heldBytes = bytes ∧
      0 ≤ s.budget.count.available ∧ 0 ≤ s.budget.bytes.available ∧
      (∀ n, ((s.budget.acquire n).2 = .error .overloaded ↔
          s.budget.count.available < 1 ∨ s.budget.bytes.available < n) ∧
        ∀ e, (s.budget.acquire n).2 = .error e → (s.budget.acquire n).1 = s.budget) ∧
      ∀ (i : ℕ) units, s.holders[i]? = some units → units.count = 1 ∧ ∀ n,
        ((s.budget.resize units n).2.2 = .error .overloaded ↔
          s.budget.bytes.available < (n : ℤ) - units.bytes) ∧
        (∀ e, (s.budget.resize units n).2.2 = .error e →
          (s.budget.resize units n).1 = s.budget ∧ (s.budget.resize units n).2.1 = units) ∧
        ((s.budget.resize units n).2.2 = .ok () → (s.budget.resize units n).2.1 = ⟨1, n⟩) := by
  have h := run_conserved hrun
  refine ⟨h.count, h.bytes, h.countFree, h.bytesFree, fun n => ?_, fun i units hholder => ?_⟩
  · by_cases hfree : s.budget.count.available < 1 ∨ s.budget.bytes.available < n
    · simp [Budget.acquire_refused hfree, hfree]
    obtain ⟨hcount, hbytes⟩ := not_or.1 hfree
    simp [Budget.acquire_granted (not_lt.1 hcount) (not_lt.1 hbytes), hfree]
  · have hone := h.one units (mem_of_getElem? hholder)
    refine ⟨hone, fun n => ?_⟩
    rcases lt_or_ge s.budget.bytes.available ((n : ℤ) - units.bytes) with hgrowth | hgrowth
    · simp [Budget.resize_refused h.bytesFree hgrowth, hgrowth]
    · simp [Budget.resize_granted hgrowth, hgrowth.not_gt, hone]

/-- Two of three holders are let in; one of them grows as far as it can. -/
theorem budget_conserved_two : ∃ s,
    [.acquire 30, .acquire 50, .acquire 1, .resize 0 51, .resize 0 50].foldlM Shared.step (fresh 2 100) = some s ∧
      s.holders = [⟨1, 50⟩, ⟨1, 50⟩] ∧ s.budget.count.available = 0 ∧ s.budget.bytes.available = 0 ∧
      (s.budget.acquire 0).2 = .error .overloaded ∧
      (s.budget.resize ⟨1, 50⟩ 51).2.1 = ⟨1, 50⟩ := by
  have hrun :
      [.acquire 30, .acquire 50, .acquire 1, .resize 0 51, .resize 0 50].foldlM Shared.step (fresh 2 100) =
        some ⟨⟨⟨0⟩, ⟨0⟩⟩, [⟨1, 50⟩, ⟨1, 50⟩]⟩ := by decide
  obtain ⟨hcount, hbytes, -, -, hacquire, hresize⟩ := budget_conserved 2 100 hrun
  refine ⟨_, hrun, rfl, rfl, rfl, (hacquire 0).1.2 (.inl (by decide)), ?_⟩
  obtain ⟨-, hresized⟩ := hresize 0 ⟨1, 50⟩ rfl
  exact ((hresized 51).2.1 .overloaded ((hresized 51).1.2 (by decide))).2

end Shared

/-! ### The budget of the drivers -/

/-- The free units, as the drivers and the sockets count them. -/
def Budget.free (b : Budget) : Imm.Budget := ⟨b.count.available.toNat, b.bytes.available.toNat⟩

/-- Whatever the holders have done, each request is granted or refused as the drivers do, and leaves free what
    they count. -/
theorem budget_refines {count bytes : ℕ} {events : List BudgetEvent} {s : Shared}
    (hrun : events.foldlM Shared.step (Shared.fresh count bytes) = some s) :
    (∀ n, s.budget.free.acquire n =
      ((s.budget.acquire n).2.toOption).map fun _ => (s.budget.acquire n).1.free) ∧
    ∀ units ∈ s.holders,
      (∀ n, s.budget.free.resize units.bytes n =
        ((s.budget.resize units n).2.2.toOption).map fun _ => (s.budget.resize units n).1.free) ∧
      s.budget.free.release units.bytes = (s.budget.release units).free := by
  obtain ⟨-, -, hcount, hbytes, hone⟩ := Shared.run_conserved hrun
  refine ⟨fun n => ?_, fun units hunits => ⟨fun n => ?_, ?_⟩⟩
  · by_cases hfree : s.budget.count.available < 1 ∨ s.budget.bytes.available < n
    · rw [Budget.acquire_refused hfree, Imm.Budget.acquire, if_neg (by simp only [Budget.free]; omega)]
      rfl
    rw [Budget.acquire_granted (by omega) (by omega), Imm.Budget.acquire,
      if_pos (by simp only [Budget.free]; omega)]
    simp only [Budget.free, Except.toOption, Option.map_some, Option.some.injEq, Imm.Budget.mk.injEq]
    omega
  · rcases lt_or_ge s.budget.bytes.available ((n : ℤ) - units.bytes) with hgrowth | hgrowth
    · rw [Budget.resize_refused hbytes hgrowth, Imm.Budget.resize, if_pos (by omega),
        if_neg (by simp only [Budget.free]; omega)]
      rfl
    rw [Budget.resize_granted hgrowth, Imm.Budget.resize]
    by_cases hmore : units.bytes < n
    · rw [if_pos hmore, if_pos (by simp only [Budget.free]; omega)]
      simp only [Budget.free, Except.toOption, Option.map_some, Option.some.injEq, Imm.Budget.mk.injEq, true_and]
      omega
    rw [if_neg hmore]
    simp only [Budget.free, Except.toOption, Option.map_some, Option.some.injEq, Imm.Budget.mk.injEq, true_and]
    omega
  · simp only [Budget.free, Budget.release, Semaphore.signal_available, Imm.Budget.release, hone units hunits,
      Imm.Budget.mk.injEq]
    omega

end Imm.GatewayIo
