import Mathlib.Logic.Function.Basic
import Mathlib.Logic.ExistsUnique
import Mathlib.Tactic.Common

/-! Numbered logs. Each log `c` has a head, the number of its last entry; entries are filed under ids
    of their own. Opening a log sets its head to 0, appending takes the number after the head. The
    numbers of a log that only grows this way are 1, …, head, without gap or repetition. -/

structure Logs (κ ι : Type) where
  head : κ → Option ℕ
  entry : ι → Option (κ × ℕ)

namespace Logs

open Function (update update_self update_of_ne)

variable {κ ι : Type} {L L' : Logs κ ι}

/-- The numbers of every log are exactly 1, …, head, each used once. -/
def Gapless (L : Logs κ ι) : Prop :=
  ∀ c n, L.head c = some n →
    (∀ i q, L.entry i = some (c, q) → 1 ≤ q ∧ q ≤ n) ∧
      ∀ q, 1 ≤ q → q ≤ n → ∃! i, L.entry i = some (c, q)

/-- Every entry belongs to a log that is there. -/
def Attached (L : Logs κ ι) : Prop := ∀ i c q, L.entry i = some (c, q) → (L.head c).isSome

inductive Step [DecidableEq κ] [DecidableEq ι] (L : Logs κ ι) : Logs κ ι → Prop
  | same : Step L L
  | opened {c : κ} (hc : L.head c = none) :
      Step L { L with head := update L.head c (some 0) }
  | appended {c : κ} {n : ℕ} {i : ι} (hc : L.head c = some n) (hi : L.entry i = none) :
      Step L ⟨update L.head c (some (n + 1)), update L.entry i (some (c, n + 1))⟩

section step

variable [DecidableEq κ] [DecidableEq ι]

theorem Step.head (h : Step L L') {c : κ} {n : ℕ} (hc : L.head c = some n) :
    ∃ n', n ≤ n' ∧ L'.head c = some n' := by
  cases h with
  | same => exact ⟨n, Nat.le_refl n, hc⟩
  | @opened c' hc' =>
    have hne : c ≠ c' := by rintro rfl; simp [hc] at hc'
    exact ⟨n, Nat.le_refl n, by simp [update_of_ne hne, hc]⟩
  | @appended c' n' j hc' hnew =>
    by_cases hcc : c = c'
    · subst hcc
      cases hc.symm.trans hc'
      exact ⟨n + 1, Nat.le_succ n, by simp⟩
    · exact ⟨n, Nat.le_refl n, by simp [update_of_ne hcc, hc]⟩

theorem Step.attached (h : Step L L') (ha : L.Attached) : L'.Attached := by
  intro i c q hi
  cases h with
  | same => exact ha i c q hi
  | opened hc' =>
    obtain ⟨n, hn⟩ := Option.isSome_iff_exists.1 (ha i c q hi)
    obtain ⟨n', -, hn'⟩ := (Step.opened hc').head hn
    exact Option.isSome_iff_exists.2 ⟨n', hn'⟩
  | @appended c' n j hc' hnew =>
    by_cases hcc : c = c'
    · simp [hcc]
    have hij : i ≠ j := by
      rintro rfl
      simp only [update_self, Option.some.injEq, Prod.mk.injEq] at hi
      exact hcc hi.1.symm
    simp only [update_of_ne hij] at hi
    simpa [update_of_ne hcc] using ha i c q hi

/-- A log that is opened must have no entries yet; that is what `Attached` is for. -/
theorem Step.gapless (h : Step L L') (ha : L.Attached) (hg : L.Gapless) : L'.Gapless := by
  intro c n hn
  cases h with
  | same => exact hg c n hn
  | @opened c' hc' =>
    by_cases hcc : c = c'
    · subst hcc
      obtain rfl : 0 = n := by simpa using hn
      refine ⟨fun i q hi => ?_, fun q h1 h0 => absurd h1 (by omega)⟩
      have := ha i c q hi
      simp [hc'] at this
    · simp only [update_of_ne hcc] at hn
      exact hg c n hn
  | @appended c' n' j hc' hnew =>
    have hfile : ∀ i q, update L.entry j (some (c', n' + 1)) i = some (c, q) ↔
        (i = j ∧ c = c' ∧ q = n' + 1) ∨ L.entry i = some (c, q) := by
      intro i q
      by_cases hij : i = j
      · subst hij
        simp [hnew, eq_comm]
      · simp [hij]
    by_cases hcc : c = c'
    · subst hcc
      obtain rfl : n' + 1 = n := by simpa using hn
      obtain ⟨hin, hall⟩ := hg c n' hc'
      refine ⟨fun i q hi => ?_, fun q h1 hq => ?_⟩
      · rcases (hfile i q).1 hi with ⟨-, -, rfl⟩ | hi
        · omega
        have := hin i q hi
        omega
      · simp only [hfile]
        rcases Nat.lt_or_eq_of_le hq with hlt | rfl
        · -- an old number: the entry that had it is still the only one
          obtain ⟨i, hi, huniq⟩ := hall q h1 (by omega)
          refine ⟨i, .inr hi, ?_⟩
          rintro k (⟨-, -, rfl⟩ | hk)
          · omega
          · exact huniq k hk
        · refine ⟨j, by simp, ?_⟩
          rintro k (⟨rfl, -⟩ | hk)
          · rfl
          · have := hin k _ hk
            omega
    · simp only [update_of_ne hcc] at hn
      simpa [hfile, hcc] using hg c n hn

end step

end Logs
