import Mathlib.Data.List.Count
import Mathlib.Data.List.Range
import Mathlib.Data.List.Perm.Basic

/-! Tickets that are settled once. Tickets are numbered as they are given out; each is waiting or settled
    and never both. Giving one out adds its number, settling moves some from one list to the other. -/

namespace Tickets

/-- Each of the first `n` tickets is in one place, once. -/
def Balanced (waiting settled : List ℕ) (n : ℕ) : Prop := (waiting ++ settled).Perm (List.range n)

variable {waiting settled waiting' settled' : List ℕ} {n k : ℕ}

theorem balanced_nil : Balanced [] [] 0 := .refl _

theorem Balanced.issue (h : Balanced waiting settled n) : Balanced (waiting ++ [n]) settled (n + 1) := by
  unfold Balanced
  rw [List.range_succ, List.append_assoc]
  exact (List.Perm.append_left _ List.perm_append_comm).trans (by simpa using List.Perm.append_right [n] h)

theorem Balanced.move (h : Balanced waiting settled n)
    (hperm : (waiting' ++ settled').Perm (waiting ++ settled)) : Balanced waiting' settled' n :=
  hperm.trans h

theorem Balanced.count (h : Balanced waiting settled n) (hk : k < n) : (waiting ++ settled).count k = 1 := by
  rw [h.count_eq, List.count_range, if_pos hk]

theorem Balanced.notMem (h : Balanced waiting settled n) (hk : k ∈ settled) : k ∉ waiting := by
  intro hw
  have hnodup : (waiting ++ settled).Nodup := h.nodup_iff.2 List.nodup_range
  exact (List.nodup_append.1 hnodup).2.2 k hw k hk rfl

end Tickets
