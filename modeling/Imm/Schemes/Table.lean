import Mathlib.Algebra.Order.Ring.Int
import Mathlib.Data.List.AList
import Mathlib.Data.Set.Insert
import Mathlib.Logic.Function.Basic

/-! Tables with a primary key. A write sets the row of one key (or removes it), a read looks a key up
    or scans the rows; the key occurs once by construction. -/

def Table (κ ρ : Type) : Type := AList (fun _ : κ => ρ)

namespace Table

open List

variable {κ ρ : Type} [DecidableEq κ]

def get (T : Table κ ρ) (k : κ) : Option ρ := AList.lookup k T

/-- Set the row of a key; `none` removes it. -/
def set (T : Table κ ρ) (k : κ) : Option ρ → Table κ ρ
  | some r => .insert k r T
  | none => .erase k T

def rows (T : Table κ ρ) : List (κ × ρ) := T.entries.map fun e => (e.1, e.2)

instance : EmptyCollection (Table κ ρ) := ⟨(∅ : AList fun _ : κ => ρ)⟩

def ofList (l : List (κ × ρ)) : Table κ ρ :=
  l.foldr (fun e T => T.set e.1 (some e.2)) ∅

@[simp] theorem get_empty (k : κ) : (∅ : Table κ ρ).get k = none := rfl

theorem get_set (T : Table κ ρ) (k k' : κ) (r : Option ρ) :
    (T.set k r).get k' = if k' = k then r else T.get k' := by
  by_cases h : k' = k
  · subst h
    rw [if_pos rfl]
    cases r with
    | some r => exact AList.lookup_insert T
    | none => exact AList.lookup_erase k' T
  · rw [if_neg h]
    cases r with
    | some r => exact AList.lookup_insert_ne h
    | none => exact AList.lookup_erase_ne h

@[simp] theorem get_set_self (T : Table κ ρ) (k : κ) (r : Option ρ) : (T.set k r).get k = r := by
  rw [get_set, if_pos rfl]

variable {k : κ} {r : ρ} {p : κ → ρ → Bool}

theorem get_set_ne (T : Table κ ρ) {k' : κ} (r : Option ρ) (h : k' ≠ k) :
    (T.set k r).get k' = T.get k' := by
  rw [get_set, if_neg h]

/-- Setting a row whose key was free leaves the other rows alone. -/
theorem get_set_new {T : Table κ ρ} {k' : κ} {r : Option ρ} {row : ρ} (hnew : T.get k' = none)
    (hget : T.get k = some row) : (T.set k' r).get k = some row := by
  rw [get_set_ne _ _ (by rintro rfl; simp [hnew] at hget)]
  exact hget

/-- The second halves of the keys that start with `a`. -/
def under {α β : Type} [DecidableEq α] [DecidableEq β] (T : Table (α × β) ρ) (a : α) : Set β :=
  {b | (T.get (a, b)).isSome}

section under

variable {α β : Type} [DecidableEq α] [DecidableEq β] (T : Table (α × β) ρ) (a : α) (b : β)

theorem under_set_some (r : ρ) :
    (T.set (a, b) (some r)).under = Function.update T.under a (insert b (T.under a)) := by
  funext a'
  by_cases ha : a' = a
  · subst ha
    ext b'
    by_cases hb : b' = b <;> simp [under, get_set, hb]
  ext b'
  simp [under, get_set, ha]

theorem under_set_none :
    (T.set (a, b) none).under = Function.update T.under a (T.under a \ {b}) := by
  funext a'
  by_cases ha : a' = a
  · subst ha
    ext b'
    by_cases hb : b' = b <;> simp [under, get_set, hb]
  ext b'
  simp [under, get_set, ha]

variable {T a}

theorem under_deleted {T' : Table (α × β) ρ} {ks : List (α × β)}
    (hget : ∀ k, T'.get k = if k ∈ ks then none else T.get k) (hks : ∀ k ∈ ks, k.1 = a)
    (hall : ∀ b, (T.get (a, b)).isSome → (a, b) ∈ ks) : T'.under = Function.update T.under a ∅ := by
  funext a'
  by_cases ha : a' = a
  · subst ha
    ext b
    simp only [under, hget, Set.mem_ofPred_eq, Function.update_self, Set.mem_empty_iff_false, iff_false]
    split
    · simp
    rename_i hb
    exact fun h => hb (hall b h)
  · ext b
    have hb : (a', b) ∉ ks := fun h => ha (hks _ h)
    simp [under, hget, hb, ha]

end under

theorem mem_rows {T : Table κ ρ} : (k, r) ∈ T.rows ↔ T.get k = some r := by
  have hmem : (k, r) ∈ T.rows ↔ (⟨k, r⟩ : Sigma fun _ : κ => ρ) ∈ T.entries := by
    simp only [rows, mem_map, Prod.mk.injEq]
    constructor
    · rintro ⟨⟨k', r'⟩, he, rfl, rfl⟩; exact he
    · exact fun he => ⟨⟨k, r⟩, he, rfl, rfl⟩
  rw [hmem]
  exact AList.mem_lookup_iff.symm

omit [DecidableEq κ] in
theorem nodup_keys (T : Table κ ρ) : (T.rows.map Prod.fst).Nodup := by
  have : T.rows.map Prod.fst = T.keys := by simp [rows, AList.keys, List.keys]
  rw [this]
  exact T.keys_nodup

omit [DecidableEq κ] in
theorem nodup_rows (T : Table κ ρ) : T.rows.Nodup := List.Nodup.of_map _ T.nodup_keys

/-- Some row satisfies `p`. -/
def has (T : Table κ ρ) (p : κ → ρ → Bool) : Bool := T.rows.any fun e => p e.1 e.2

theorem has_eq_false {T : Table κ ρ} :
    T.has p = false ↔ ∀ k r, T.get k = some r → p k r = false := by
  simp only [has, any_eq_false, Prod.forall, mem_rows, Bool.not_eq_true]

/-- A row that satisfies `p`, if there is one. -/
def first (T : Table κ ρ) (p : κ → ρ → Bool) : Option (κ × ρ) := T.rows.find? fun e => p e.1 e.2

theorem of_first {T : Table κ ρ} (h : T.first p = some (k, r)) : T.get k = some r ∧ p k r = true := by
  have hp := find?_some h
  exact ⟨mem_rows.1 (mem_of_find?_eq_some h), hp⟩

theorem first_eq_none {T : Table κ ρ} :
    T.first p = none ↔ ∀ k r, T.get k = some r → p k r = false := by
  simp only [first, find?_eq_none, Prod.forall, mem_rows, Bool.not_eq_true]

/-- The key of the one row that satisfies `p` depends on the rows only, not on their order. -/
theorem first_key {T T' : Table κ ρ}
    (hsame : ∀ k, (∃ r, T'.get k = some r ∧ p k r = true) ↔ ∃ r, T.get k = some r ∧ p k r = true)
    (hone : ∀ k k' r r', T.get k = some r → p k r = true → T.get k' = some r' → p k' r' = true → k = k') :
    (T'.first p).map Prod.fst = (T.first p).map Prod.fst := by
  cases hT' : T'.first p with
  | none =>
    have hnone : T.first p = none := by
      refine first_eq_none.2 fun k r hr => Bool.eq_false_iff.2 fun hp => ?_
      obtain ⟨r', hr', hp'⟩ := (hsame k).2 ⟨r, hr, hp⟩
      exact absurd hp' (by rw [first_eq_none.1 hT' k r' hr']; decide)
    rw [hnone]
  | some e' =>
    obtain ⟨r, hr, hp⟩ := (hsame e'.1).1 ⟨e'.2, of_first hT'⟩
    cases hT : T.first p with
    | none => exact absurd hp (by rw [first_eq_none.1 hT _ r hr]; decide)
    | some e =>
      obtain ⟨he, hpe⟩ := of_first hT
      exact congrArg some (hone _ _ _ _ hr hp he hpe)

/-- The keys of the rows that satisfy `p`. -/
def keysOf (T : Table κ ρ) (p : κ → ρ → Bool) : List κ :=
  (T.rows.filter fun e => p e.1 e.2).map Prod.fst

theorem mem_keysOf {T : Table κ ρ} :
    k ∈ T.keysOf p ↔ ∃ r, T.get k = some r ∧ p k r = true := by
  simp only [keysOf, mem_map, mem_filter, Prod.exists, exists_and_right, exists_eq_right, mem_rows]

theorem exists_bound (T : Table κ ρ) (f : κ → ρ → ℤ) : ∃ n : ℕ, ∀ k r, T.get k = some r → f k r < n := by
  have hlist : ∀ es : List (κ × ρ), ∃ n : ℕ, ∀ e ∈ es, f e.1 e.2 < n := by
    intro es
    induction es with
    | nil => exact ⟨0, by simp⟩
    | cons e es ih =>
      obtain ⟨n, hn⟩ := ih
      refine ⟨max n ((f e.1 e.2).toNat + 1), fun e' he' => ?_⟩
      rcases mem_cons.1 he' with rfl | he'
      · omega
      have := hn e' he'
      omega
  obtain ⟨n, hn⟩ := hlist T.rows
  exact ⟨n, fun k r h => hn (k, r) (mem_rows.2 h)⟩

/-! ### Totals -/

/-- The sum of a measure over the rows. -/
def total (T : Table κ ρ) (f : ρ → ℕ) : ℕ := (T.rows.map fun e => f e.2).sum

theorem rows_set_some (T : Table κ ρ) (k : κ) (r : ρ) :
    (T.set k (some r)).rows = (k, r) :: (T.set k none).rows := rfl

theorem set_set_some (T : Table κ ρ) (k : κ) (r r' : ρ) :
    (T.set k (some r)).set k (some r') = T.set k (some r') := AList.insert_insert T

theorem set_none_of_get {T : Table κ ρ} (h : T.get k = none) : T.set k none = T :=
  AList.ext (kerase_of_notMem_keys fun hk => AList.lookup_eq_none.1 h (AList.mem_keys.2 hk))

theorem rows_perm {T : Table κ ρ} (h : T.get k = some r) :
    T.rows.Perm ((k, r) :: (T.set k none).rows) := by
  have hmem : k ∈ T.entries.keys :=
    AList.mem_keys.1 (AList.lookup_isSome.1 (show (T.get k).isSome = true by rw [h]; rfl))
  obtain ⟨r', before, after, -, hentries, herase⟩ := exists_of_kerase hmem
  have hrow : (⟨k, r'⟩ : Sigma fun _ : κ => ρ) ∈ T.entries := by rw [hentries]; simp
  have hr : some r' = some r := (AList.mem_lookup_iff.2 hrow).symm.trans h
  cases hr
  have hrest : (T.set k none).entries = before ++ after := herase
  unfold rows
  rw [hentries, hrest]
  simp

theorem total_set_none {T : Table κ ρ} (h : T.get k = some r) (f : ρ → ℕ) :
    T.total f = f r + (T.set k none).total f := by
  have hperm := ((rows_perm h).map fun e => f e.2).sum_nat
  rwa [map_cons, sum_cons] at hperm

theorem total_set_some (T : Table κ ρ) (k : κ) (r : ρ) (f : ρ → ℕ) :
    (T.set k (some r)).total f = f r + (T.set k none).total f := by
  unfold total
  rw [rows_set_some, map_cons, sum_cons]

theorem length_set_none {T : Table κ ρ} (h : T.get k = some r) :
    T.rows.length = (T.set k none).rows.length + 1 := by
  rw [(rows_perm h).length_eq, length_cons]

theorem length_set_some (T : Table κ ρ) (k : κ) (r : ρ) :
    (T.set k (some r)).rows.length = (T.set k none).rows.length + 1 := by
  rw [rows_set_some, length_cons]

theorem total_congr {T : Table κ ρ} {f g : ρ → ℕ} (h : ∀ k r, T.get k = some r → f r = g r) :
    T.total f = T.total g := by
  unfold total
  rw [map_congr_left fun e he => h e.1 e.2 (mem_rows.1 he)]

theorem le_total {T : Table κ ρ} (h : T.get k = some r) (f : ρ → ℕ) : f r ≤ T.total f := by
  rw [total_set_none h f]
  exact Nat.le_add_right _ _

end Table
