import Mathlib.Data.Set.Insert
import Mathlib.Logic.Function.Basic

/-! Groups with rooms. A group has members and applicants; it has a room of its own, in which exactly
    its members are seated, and a master. Rooms that belong to no group are private. -/

@[ext] structure Rooms (γ κ υ : Type) where
  /-- the room and the master of each group -/
  room : γ → Option (κ × υ)
  /-- the rooms there are: `some none` is a private one -/
  owner : κ → Option (Option γ)
  member : γ → Set υ
  applied : γ → Set υ
  seated : κ → Set υ

namespace Rooms

variable {γ κ υ : Type} {R : Rooms γ κ υ}

/-- Members and seats agree, nobody applies to a group it is in, a group has exactly one room, and
    nothing is left of a group that is gone or in a room that is not there. -/
structure Aligned (R : Rooms γ κ υ) : Prop where
  seats : ∀ g c m, R.room g = some (c, m) → R.member g = R.seated c
  apart : ∀ g u, u ∈ R.member g → u ∉ R.applied g
  rooms : ∀ g c m, R.room g = some (c, m) → ∀ c', R.owner c' = some (some g) ↔ c' = c
  gone : ∀ g, R.room g = none → R.member g = ∅ ∧ R.applied g = ∅
  homeless : ∀ c g, R.owner c = some (some g) → R.room g = none → R.seated c = ∅
  closed : ∀ c, R.owner c = none → R.seated c = ∅

/-- Every group's master is a member. -/
def Mastered (R : Rooms γ κ υ) : Prop := ∀ g c m, R.room g = some (c, m) → m ∈ R.member g

variable [DecidableEq γ] [DecidableEq κ]

open Function (update update_self update_of_ne)

/-- What can happen to groups and rooms; `stays` says whether a master stays as long as the group. -/
inductive Step (stays : Prop) (R : Rooms γ κ υ) : Rooms γ κ υ → Prop
  | same : Step stays R R
  | opened {c : κ} {us : Set υ} (hc : R.owner c = none) :
      Step stays R { R with owner := update R.owner c (some none), seated := update R.seated c us }
  | sat {c : κ} {us : Set υ} (hc : R.owner c = some none) :
      Step stays R { R with seated := update R.seated c us }
  | founded {g : γ} {c : κ} {m : υ} (hg : R.room g = none) (hc : R.owner c = none)
      (hfree : ∀ c', R.owner c' ≠ some (some g)) :
      Step stays R { R with
        room := update R.room g (some (c, m)), owner := update R.owner c (some (some g)),
        member := update R.member g {m}, seated := update R.seated c {m} }
  | requested {g : γ} {u : υ} (hg : R.room g ≠ none) (hu : u ∉ R.member g) :
      Step stays R { R with applied := update R.applied g (insert u (R.applied g)) }
  | rejected {g : γ} {u : υ} : Step stays R { R with applied := update R.applied g (R.applied g \ {u}) }
  | admitted {g : γ} {c : κ} {m u : υ} (hg : R.room g = some (c, m)) :
      Step stays R { R with
        applied := update R.applied g (R.applied g \ {u}),
        member := update R.member g (insert u (R.member g)),
        seated := update R.seated c (insert u (R.seated c)) }
  | left {g : γ} {c : κ} {m u : υ} (hg : R.room g = some (c, m)) (hu : stays → u ≠ m) :
      Step stays R { R with
        member := update R.member g (R.member g \ {u}),
        seated := update R.seated c (R.seated c \ {u}) }
  | dissolved {g : γ} {c : κ} {m : υ} (hg : R.room g = some (c, m)) :
      Step stays R { R with
        room := update R.room g none, member := update R.member g ∅,
        applied := update R.applied g ∅, seated := update R.seated c ∅ }

omit [DecidableEq γ] [DecidableEq κ] in
theorem Aligned.owner_room (h : R.Aligned) {g : γ} {c : κ} {m : υ} (hg : R.room g = some (c, m)) :
    R.owner c = some (some g) :=
  (h.rooms g c m hg c).2 rfl

variable {stays : Prop} {R' : Rooms γ κ υ}

theorem Step.aligned (hs : Step stays R R') (h : R.Aligned) : R'.Aligned := by
  obtain ⟨hseats, hapart, hrooms, hgone, hhomeless, hclosed⟩ := h
  -- a clause is about one group and one room: those of the step, or others that are as before
  cases hs with
  | same => exact ⟨hseats, hapart, hrooms, hgone, hhomeless, hclosed⟩
  | opened hc => constructor <;> grind [Function.update_apply]
  | sat hc => constructor <;> grind [Function.update_apply]
  | founded hg hc hfree => constructor <;> grind [Function.update_apply]
  | requested hg hu => constructor <;> grind [Function.update_apply]
  | rejected => constructor <;> grind [Function.update_apply]
  | admitted hg => constructor <;> grind [Function.update_apply]
  | left hg => constructor <;> grind [Function.update_apply]
  | dissolved hg => constructor <;> grind [Function.update_apply]

theorem Step.mastered (hs : Step True R R') (h : R.Mastered) : R'.Mastered := by
  cases hs with
  | same | opened | sat | requested | rejected => exact h
  | founded hg hc hfree => grind [Mastered, Function.update_apply]
  | admitted hg => grind [Mastered, Function.update_apply]
  | left hg hu => grind [Mastered, Function.update_apply]
  | dissolved hg => grind [Mastered, Function.update_apply]

end Rooms
