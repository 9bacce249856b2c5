import Mathlib.Data.List.MinMax
import Mathlib.Data.Set.Function

/-! The best entry of a list. Where no two entries score the same the order of the list does not matter,
    and the best entry stays the best among fewer entries as long as it is one of them. -/

namespace Choice

open List

variable {α β : Type*} [LinearOrder β] {f : α → β} {l l' : List α} {m : α}

theorem argmax_eq_of_forall_le (hinj : Set.InjOn f {a | a ∈ l}) (hm : m ∈ l) (hle : ∀ a ∈ l, f a ≤ f m) :
    l.argmax f = some m := by
  cases hbest : l.argmax f with
  | none => simp [argmax_eq_none.1 hbest] at hm
  | some n =>
    have hn : n ∈ l := argmax_mem hbest
    have hscore : f n = f m := le_antisymm (hle n hn) (le_of_mem_argmax hm hbest)
    rw [hinj hn hm hscore]

/-- The entries that did not win do not matter. -/
theorem argmax_eq_of_subset (hinj : Set.InjOn f {a | a ∈ l'}) (hsub : l' ⊆ l) (h : l.argmax f = some m)
    (hm : m ∈ l') : l'.argmax f = some m :=
  argmax_eq_of_forall_le hinj hm fun _ ha => le_of_mem_argmax (hsub ha) h

theorem argmax_of_stays (hinj : Set.InjOn f {a | a ∈ l'}) (hsub : l' ⊆ l)
    (hstays : ∀ m, l.argmax f = some m → m ∈ l') : l'.argmax f = l.argmax f := by
  cases h : l.argmax f with
  | none =>
    have hl' : l' = [] := by
      rw [argmax_eq_none.1 h] at hsub
      exact subset_nil.1 hsub
    rw [hl', argmax_nil]
  | some m => exact argmax_eq_of_subset hinj hsub h (hstays m h)

/-- An entry more changes the choice only if it wins itself. -/
theorem argmax_insert {a : α} (hinj : Set.InjOn f {a | a ∈ l}) (hsub : l ⊆ l')
    (hmem : ∀ b ∈ l', b = a ∨ b ∈ l) : l'.argmax f = l.argmax f ∨ l'.argmax f = some a := by
  by_cases hwins : l'.argmax f = some a
  · exact .inr hwins
  refine .inl (argmax_of_stays hinj hsub fun m hm => ?_).symm
  rcases hmem m (argmax_mem hm) with rfl | h
  · exact absurd hm hwins
  · exact h

end Choice
