import Mathlib.Data.Set.Insert
import Mathlib.Logic.Relation

/-! Fencing tokens. A fence issues tokens under ever higher numbers; at most one of them is in force.
    Whoever holds a token can tell from its number whether it is the one in force. -/

namespace Fencing

variable {T : Type}

/-- The state of a fence: `top` is the last number used, `holder` the token in force. -/
structure Fence (number : T → ℕ) where
  top : ℕ
  issued : Set T
  holder : Option T
  le_top : ∀ x ∈ issued, number x ≤ top
  inj : ∀ x ∈ issued, ∀ y ∈ issued, number x = number y → x = y
  valid : ∀ x, holder = some x → x ∈ issued

variable {number : T → ℕ}

namespace Fence

/-- No token has been issued. -/
def new : Fence number where
  top := 0
  issued := ∅
  holder := none
  le_top := by simp
  inj := by simp
  valid := by simp

/-- Issue the token `x` and put it in force. -/
def grant (f : Fence number) (x : T) (hx : number x = f.top + 1) : Fence number where
  top := f.top + 1
  issued := insert x f.issued
  holder := some x
  le_top y hy := by
    rcases hy with rfl | hy
    · exact hx.le
    · exact (f.le_top y hy).trans (Nat.le_succ _)
  inj y hy z hz heq := by
    have above : ∀ y ∈ f.issued, number y ≠ number x := fun y hy => by
      have := f.le_top y hy
      omega
    rcases hy with rfl | hy <;> rcases hz with rfl | hz
    · rfl
    · exact absurd heq.symm (above z hz)
    · exact absurd heq (above y hy)
    · exact f.inj y hy z hz heq
  valid y hy := .inl (Option.some.inj hy).symm

/-- No token is in force any more. -/
def drop (f : Fence number) : Fence number :=
  { f with holder := none, valid := by simp }

end Fence

/-- What can happen to a fence. -/
inductive Step : Fence number → Fence number → Prop
  | stay (f : Fence number) : Step f f
  | grant (f : Fence number) (x : T) (hx : number x = f.top + 1) : Step f (f.grant x hx)
  | drop (f : Fence number) : Step f f.drop

variable {f g : Fence number}

theorem Step.issued_subset (h : Step f g) : f.issued ⊆ g.issued := by
  cases h with
  | stay => exact subset_rfl
  | grant x hx => exact Set.subset_insert x f.issued
  | drop => exact subset_rfl

/-- A token that comes into force has a higher number than all tokens issued before. -/
theorem Step.overtakes (h : Step f g) {y : T} (hg : g.holder = some y) (hf : f.holder ≠ some y) {x : T}
    (hx : x ∈ f.issued) : number x < number y := by
  cases h with
  | stay => exact absurd hg hf
  | grant z hz =>
    cases hg
    exact hz ▸ Nat.lt_succ_of_le (f.le_top x hx)
  | drop => cases hg

theorem issued_mono (h : Relation.ReflTransGen Step f g) : f.issued ⊆ g.issued := by
  induction h with
  | refl => exact subset_rfl
  | tail _ hstep ih => exact ih.trans hstep.issued_subset

end Fencing
