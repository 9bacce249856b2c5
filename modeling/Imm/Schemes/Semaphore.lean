import Mathlib.Algebra.Order.Ring.Int
import Mathlib.Tactic.Common

/-! A counting semaphore on which nobody waits. Units are taken if there are enough of them and go back
    when their holder drops them, so trying and dropping what one got changes nothing. -/

/-- What may still be taken. -/
structure Semaphore where
  available : ℤ
  deriving DecidableEq, Repr

namespace Semaphore

variable (s : Semaphore) (n : ℕ)

def tryGetUnits : Semaphore × Option ℕ :=
  if 0 ≤ s.available ∧ (n : ℤ) ≤ s.available then (⟨s.available - n⟩, some n) else (s, none)

def signal : Semaphore := ⟨s.available + n⟩

/-- Units go out of scope, if there were any. -/
def drop : Option ℕ → Semaphore
  | none => s
  | some units => s.signal units

variable {s n}

theorem tryGetUnits_granted (h : (n : ℤ) ≤ s.available) :
    s.tryGetUnits n = (⟨s.available - n⟩, some n) := by
  unfold tryGetUnits
  rw [if_pos ⟨by omega, h⟩]

theorem tryGetUnits_refused (h : s.available < n) : s.tryGetUnits n = (s, none) := by
  unfold tryGetUnits
  rw [if_neg (by omega)]

@[simp] theorem signal_available : (s.signal n).available = s.available + n := rfl

theorem drop_tryGetUnits : (s.tryGetUnits n).1.drop (s.tryGetUnits n).2 = s := by
  rcases lt_or_ge s.available n with h | h
  · rw [tryGetUnits_refused h]
    rfl
  · rw [tryGetUnits_granted h, drop, signal, Int.sub_add_cancel]

end Semaphore
