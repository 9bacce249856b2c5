import Imm.Store.FriendDeeds

/-! The group operations commit nothing but their deeds, each of them under the lock of the group's
    row. -/

namespace Imm

open Txn SQL MysqlStore List

variable [Collation] {V : Versions} {J : ℕ → Prop} {a₀ : ℕ} {dn₀ : Option ℕ}

theorem pullGroup_ensures {C : ℕ → Tx Key Write → Prop} (g u : ℤ) :
    Ensures V J C (fun r a _ _ => r.error = .Success → WasMember V g u a₀ a)
      (MysqlStore.pullGroup g u) a₀ none dn₀ := by
  refine .catching ?_ fun e a tx dn => .pure (by rintro ⟨⟩)
  refine .bind (.select fun t₁ v₁ ht₁ _ => ?_)
  split
  · exact .pure (by simp)
  refine .catching ?_ fun e a tx dn => .pure (by rintro ⟨⟩)
  refine .bind (.select fun t₂ v₂ ht₂ hv₂ => ?_)
  split
  · exact .pure (by simp)
  rename_i hmember
  have hwas : ∀ {a}, t₂ ≤ a → WasMember V g u a₀ a := fun ha =>
    ⟨t₂, v₂, ht₁.trans ht₂, ha, hv₂.here, by
      simpa [isMember, Option.isSome_iff_ne_none] using hmember⟩
  refine .bind (.select fun t₃ v₃ ht₃ _ => ?_)
  refine .catching ?_ fun e a tx dn => .pure (by rintro ⟨⟩)
  split
  · exact .bind (.select fun t₄ v₄ ht₄ _ => .pure fun _ => hwas (ht₃.trans ht₄))
  · exact .pure fun _ => hwas ht₃

/-- From the moment a group's row is locked up to the commit, nobody else writes under that lock. -/
theorem since_lock {g : ℤ} {t t₁ j : ℕ} {y : Tx Key Write} {v u : Version Db Key}
    (hland : Landing V t y v) (hheld : (exclusive (.group g), t₁) ∈ y.held) (hj : t₁ ≤ j) (hjt : j ≤ t)
    (hu : V[j]? = some u) : Since V (exclusive (.group g)) t u.db :=
  ⟨j, u, hjt, hu, rfl, (hland.commits.quiet _ hheld).2.later hj⟩

variable (hJ : ∀ j, J j → ∃ x : Tx Key Write, Commits V j x)

include hJ

theorem createGroup_ensures (g : ℤ) (gi : GroupInfo) :
    Ensures V J (Does V (.createGroup g gi)) (fun _ _ tx _ => tx = none)
      (MysqlStore.createGroup g gi) a₀ none dn₀ := by
  refine .bind (.start (guarded_ensures ?_ fun _ _ _ => rfl))
  refine .bind (.exec fun t₁ v₁ n₁ e₁ _ hv₁ h₁ => ?_)
  obtain ⟨hgroup, rfl⟩ := insertGroup_ok h₁
  refine .bind (.exec fun t₂ v₂ n₂ e₂ _ hv₂ h₂ => ?_)
  obtain ⟨hconv, hfree, rfl⟩ := insertConversation_ok h₂
  refine .bind (.exec fun t₃ v₃ n₃ e₃ _ hv₃ h₃ => ?_)
  obtain ⟨hmember, rfl⟩ := insertMember_ok h₃
  refine .bind (.exec fun t₄ v₄ n₄ e₄ _ hv₄ h₄ => ?_)
  obtain ⟨hstates, -, rfl⟩ := insertUserStates_ok h₄
  refine .bind (.commit_landing hJ fun t v _ hland _ =>
    ⟨⟨v, hland.here, Deed.found (Tx.mem_locks (g := t₁) (by simp)) ?_ ?_ ?_ ?_ ?_⟩, .pure rfl⟩)
  · exact (groupInfo_frame.kept (m := .exclusive) hland (by simp) hv₁.here).trans hgroup
  · exact (conversations_frame.kept (m := .exclusive) hland (by simp) hv₂.here).trans hconv
  · exact noConversation_kept (m := .exclusive) hland (by simp) hv₂.here hfree
  · exact (groupMembers_frame.kept (m := .exclusive) hland (by simp) hv₃.here).trans hmember
  · intro w hw
    rw [mem_singleton] at hw
    exact ⟨_, hw, (userStates_frame.kept (m := .exclusive) hland (by simp) hv₄.here).trans
      (hstates gi.masterUid (by simp))⟩

theorem requestGroupJoin_ensures (g u : ℤ) (message now : String) :
    Ensures V J (Does V (.requestGroupJoin g u message now)) (fun _ _ tx _ => tx = none)
      (MysqlStore.requestGroupJoin g u message now) a₀ none dn₀ := by
  refine .bind (.start (guarded_ensures ?_ fun _ _ _ => rfl))
  refine .bind (.exec fun t₁ v₁ n₁ e₁ _ hv₁ h₁ => ?_)
  obtain rfl | ⟨gi, hgroup, rfl⟩ := lockGroup_ok h₁
  · exact .bind (.rollback (.pure rfl))
  refine guarded_ensures ?_ fun _ _ _ => rfl
  refine .bind (.select_first rfl fun t₂ v₂ ht₂ hv₂ => ?_)
  split
  · exact .bind (.rollback (.pure rfl))
  rename_i hmember
  refine .bind (.exec fun t₃ v₃ n₃ e₃ ht₃ hv₃ h₃ => ?_)
  refine guarded_ensures ?_ fun _ _ _ => rfl
  refine .bind (.commit_landing hJ fun t v ht hland _ =>
    ⟨⟨v, hland.here, ?_⟩, .pure rfl⟩)
  obtain rfl | ⟨hnew, rfl⟩ := insertIgnoreGroupApply_ok h₃
  · exact .idle _
  have hgroup' : v.db.groupInfo.get g = some gi :=
    (groupInfo_frame.kept (m := .exclusive) hland (by simp) hv₁.here).trans hgroup
  have hnew' : v.db.groupApplys.get (g, u) = none :=
    (groupApplys_frame.kept (m := .exclusive) hland (by simp) hv₃.here).trans hnew
  exact Deed.requestJoin (Tx.mem_locks (g := t₁) (by simp)) hgroup'
    (since_lock hland (by simp) ht₂ (ht₃.trans ht) hv₂.here) (by simpa [isMember] using hmember) hnew'

omit hJ in
theorem finish_ensures {C : ℕ → Tx Key Write → Prop} {a : ℕ} {y : Tx Key Write} {dn : Option ℕ}
    (hJ : ∀ j, J j → ∃ x : Tx Key Write, Commits V j x) {r : GroupOperationResult}
    (h : ∀ t v, a ≤ t → Landing V t y v → C t y) :
    Ensures V J C (fun _ _ tx _ => tx = none) (replyGroupJoin.finish r) a (some y) dn :=
  guarded_ensures (.bind (.commit_landing hJ fun t v ht hland _ =>
    ⟨h t v ht hland, .pure rfl⟩)) fun _ _ _ => rfl

theorem replyGroupJoin_ensures (g a u : ℤ) (accept : Bool) (now : String) :
    Ensures V J (Does V (.replyGroupJoin g a u accept now)) (fun _ _ tx _ => tx = none)
      (MysqlStore.replyGroupJoin g a u accept now) a₀ none dn₀ := by
  refine .bind (.start (guarded_ensures ?_ fun _ _ _ => rfl))
  refine .bind (.exec fun t₁ v₁ n₁ e₁ _ hv₁ h₁ => ?_)
  obtain rfl | ⟨gi, hgroup, rfl⟩ := lockGroup_ok h₁
  · exact .bind (.rollback (.pure rfl))
  refine guarded_ensures ?_ fun _ _ _ => rfl
  split
  · exact .bind (.rollback (.pure rfl))
  refine .bind (.exec fun t₂ v₂ n₂ e₂ ht₂ hv₂ h₂ => ?_)
  obtain rfl | ⟨row, hrow, rfl⟩ := lockGroupApply_ok h₂
  · exact .bind (.rollback (.pure rfl))
  refine .bind (.exec fun t₃ v₃ n₃ e₃ ht₃ hv₃ h₃ => ?_)
  -- the application is locked since `t₂`, so DELETE finds it
  have hdelete : ∀ {t v} {y : Tx Key Write}, Landing V t y v → t₃ ≤ t →
      (exclusive (.groupApply g u), t₂) ∈ y.held → e₃.writes = [.groupApplys (g, u) none] := by
    intro t v y hland ht hheld
    have hrow₃ : v₃.db.groupApplys.get (g, u) = some row :=
      (groupApplys_frame.between hland hheld hv₂.here ht₃ ht hv₃.here).trans hrow
    rw [deleteGroupApply_ok h₃ (by simp [hrow₃])]
  have hgroup' : ∀ {t v} {y : Tx Key Write}, Landing V t y v →
      (exclusive (.group g), t₁) ∈ y.held → v.db.groupInfo.get g = some gi := by
    intro t v y hland hheld
    exact (groupInfo_frame.kept hland hheld hv₁.here).trans hgroup
  split
  · rename_i haccept
    subst haccept
    refine .bind (.exec fun t₄ v₄ n₄ e₄ ht₄ hv₄ h₄ => ?_)
    obtain ⟨hmember, rfl⟩ := insertMember_ok h₄
    refine .bind (.exec fun t₅ v₅ n₅ e₅ ht₅ hv₅ h₅ => ?_)
    refine guarded_ensures ?_ fun _ _ _ => rfl
    refine .bind (.select_first rfl fun t₆ v₆ ht₆ _ => ?_)
    refine finish_ensures hJ fun t v ht hland => ⟨v, hland.here, ?_⟩
    have hw₃ := hdelete hland (ht₄.trans (ht₅.trans (ht₆.trans ht))) (by simp)
    have hmember' : v.db.groupMembers.get (g, u) = none :=
      (groupMembers_frame.kept (m := .exclusive) hland (by simp) hv₄.here).trans (by simpa [hw₃] using hmember)
    have hgroup₆ := hgroup' hland (by simp)
    obtain ⟨hconv, rfl⟩ | ⟨conv, hconv, hstate, rfl⟩ := insertUserStateFromNow_ok h₅
    · have hgroup₅ : v₅.db.groupInfo.get g = some gi :=
        (groupInfo_frame.between (m := .exclusive) hland (by simp) hv₁.here
          (ht₂.trans (ht₃.trans (ht₄.trans ht₅))) (ht₆.trans ht) hv₅.here).trans hgroup
      simp only [hw₃, Tx.writes_add, nil_append, cons_append, append_nil]
      exact .welcomeBare (Tx.mem_locks (g := t₁) (by simp)) hgroup₆
        ⟨t₅, v₅, ht₆.trans ht, hv₅.here, rfl⟩ hgroup₅ (by simpa [hw₃] using hconv)
    · have hconv' : v.db.conversations.get gi.conversationId = some conv :=
        (conversations_frame.kept (m := .shared) hland (by simp) hv₅.here).trans (by simpa [hw₃] using hconv)
      have hstate' : v.db.conversationUserStates.get (gi.conversationId, u) = none :=
        (userStates_frame.kept (m := .exclusive) hland (by simp) hv₅.here).trans (by simpa [hw₃] using hstate)
      simp only [hw₃, Tx.writes_add, nil_append, cons_append, append_nil]
      exact .welcome (Tx.mem_locks (g := t₁) (by simp)) hgroup₆ hmember' hconv' hstate'
  · rename_i haccept
    obtain rfl : accept = false := by simpa using haccept
    refine finish_ensures hJ fun t v ht hland => ⟨v, hland.here, ?_⟩
    simpa [hdelete hland ht (by simp)] using
      Deed.reject (Tx.mem_locks (g := t₁) (by simp)) (hgroup' hland (by simp))

section remove

variable {g actor u : ℤ} {gi : GroupInfo} {t₁ a : ℕ} {v₁ : Version Db Key} {y : Tx Key Write}
  {r : GroupOperationResult}

theorem dissolve_ensures (hw : y.writes = []) (hheld : (exclusive (.group g), t₁) ∈ y.held)
    (hv₁ : V[t₁]? = some v₁) (hgroup : v₁.db.groupInfo.get g = some gi) (ha : t₁ ≤ a) :
    Ensures V J (Does V (.removeGroupMember g actor u true)) (fun _ _ tx _ => tx = none)
      (do removeGroupMember.deleteRows g u gi.conversationId true; Sql.commit; pure r)
      a (some y) dn₀ := by
  refine .bind ?_
  refine .bind (.exec fun t₄ v₄ n₄ e₄ ht₄ hv₄ h₄ => ?_)
  refine .bind (.exec fun t₅ v₅ n₅ e₅ ht₅ hv₅ h₅ => ?_)
  refine .bind (.exec fun t₆ v₆ n₆ e₆ ht₆ hv₆ h₆ => ?_)
  refine .exec fun t₇ v₇ n₇ e₇ ht₇ hv₇ h₇ => ?_
  refine .bind (.commit_landing hJ fun t v ht hland _ =>
    ⟨⟨v, hland.here, ?_⟩, .pure rfl⟩)
  have hheld' : (exclusive (.group g), t₁) ∈
      ((((y.add Db e₄ t₄).add Db e₅ t₅).add Db e₆ t₆).add Db e₇ t₇).held := by
    simp [hheld]
  have hgroup₇ : v₇.db.groupInfo.get g = some gi :=
    (groupInfo_frame.between hland hheld' hv₁ (by omega) ht hv₇.here).trans hgroup
  have hgroup' : v.db.groupInfo.get g = some gi :=
    (groupInfo_frame.kept (m := .exclusive) hland hheld' hv₁).trans hgroup
  have since : ∀ {j u}, t₁ ≤ j → j ≤ t → V[j]? = some u → Since V (exclusive (.group g)) t u.db :=
    fun hj hjt hu => since_lock hland hheld' hj hjt hu
  obtain ⟨ss, hss, rfl⟩ := deleteUserStates_ok h₄
  obtain ⟨as, has, rfl⟩ := deleteGroupApplys_ok h₅
  obtain ⟨ms, hms, rfl⟩ := deleteMembers_ok h₆
  -- each DELETE reads its own table only, which the ones before have not touched
  simp only [Tx.writes_add, hw, nil_append, applyAll_nil, applyAll_append] at hss has hms h₇
  rw [applyAll_map Db.groupApplys _ _ rfl] at has
  rw [applyAll_map Db.groupMembers _ _ rfl, applyAll_map Db.groupMembers _ _ rfl] at hms
  obtain rfl := deleteGroup_ok h₇ <| by
    rw [applyAll_map Db.groupInfo _ _ rfl, applyAll_map Db.groupInfo _ _ rfl,
      applyAll_map Db.groupInfo _ _ rfl, hgroup₇, Option.isSome_some]
  simpa [hw, dissolved] using Deed.dissolve (a := actor) (u := u) (Tx.mem_locks hheld') hgroup'
    (since (by omega) (by omega) hv₄.here) (since (by omega) (by omega) hv₅.here)
    (since (by omega) (by omega) hv₆.here) hss has hms

theorem leave_ensures {dissolve : Bool} {t₂ : ℕ} {v₂ : Version Db Key} {time : String} (hw : y.writes = [])
    (hheld : (exclusive (.group g), t₁) ∈ y.held) (hv₁ : V[t₁]? = some v₁)
    (hgroup : v₁.db.groupInfo.get g = some gi) (ha : t₁ ≤ a) (hheld₂ : (exclusive (.member g u), t₂) ∈ y.held)
    (hv₂ : V[t₂]? = some v₂) (ha₂ : t₂ ≤ a) (hmember : v₂.db.groupMembers.get (g, u) = some time)
    (hactor : actor = gi.masterUid ∨ actor = u) (hkeep : ¬ (u = gi.masterUid ∧ dissolve = true)) :
    Ensures V J (Does V (.removeGroupMember g actor u dissolve)) (fun _ _ tx _ => tx = none)
      (do removeGroupMember.deleteRows g u gi.conversationId false; Sql.commit; pure r)
      a (some y) dn₀ := by
  refine .bind ?_
  refine .bind (.exec fun t₄ v₄ n₄ e₄ ht₄ hv₄ h₄ => ?_)
  refine .exec fun t₅ v₅ n₅ e₅ ht₅ hv₅ h₅ => ?_
  refine .bind (.commit_landing hJ fun t v ht hland _ =>
    ⟨⟨v, hland.here, ?_⟩, .pure rfl⟩)
  have hheld' : (exclusive (.group g), t₁) ∈ ((y.add Db e₄ t₄).add Db e₅ t₅).held := by simp [hheld]
  have hgroup' : v.db.groupInfo.get g = some gi :=
    (groupInfo_frame.kept hland hheld' hv₁).trans hgroup
  have hmember₅ : v₅.db.groupMembers.get (g, u) = some time :=
    (groupMembers_frame.between (m := .exclusive) hland (by simp [hheld₂]) hv₂ (by omega) ht
      hv₅.here).trans hmember
  have hmember' : v.db.groupMembers.get (g, u) = some time :=
    (groupMembers_frame.kept (m := .exclusive) hland (by simp [hheld₂]) hv₂).trans hmember
  have hsince : Since V (exclusive (.group g)) t v₄.db :=
    since_lock hland hheld' (ha.trans ht₄) (ht₅.trans ht) hv₄.here
  have hrest : ∀ d : Db, (applyAll e₄.writes d).groupMembers = d.groupMembers := by
    obtain ⟨-, rfl⟩ | rfl := deleteUserState_ok h₄ <;> simp
  obtain rfl := deleteMember_ok h₅ (by simp [hw, hrest, hmember₅])
  have hstates : e₄.writes = [.conversationUserStates (gi.conversationId, u) none] ∨
      e₄.writes = [] ∧ v₄.db.conversationUserStates.get (gi.conversationId, u) = none := by
    obtain ⟨hnone, rfl⟩ | rfl := deleteUserState_ok h₄
    · exact .inr ⟨rfl, by simpa [hw] using hnone⟩
    · exact .inl rfl
  simpa [hw] using Deed.leave (Tx.mem_locks hheld') hgroup' hactor hkeep (by simp [hmember']) hsince hstates

end remove

theorem removeGroupMember_ensures (g a u : ℤ) (dissolve : Bool) :
    Ensures V J (Does V (.removeGroupMember g a u dissolve)) (fun _ _ tx _ => tx = none)
      (MysqlStore.removeGroupMember g a u dissolve) a₀ none dn₀ := by
  refine .bind (.start (guarded_ensures ?_ fun _ _ _ => rfl))
  refine .bind (.exec fun t₁ v₁ n₁ e₁ _ hv₁ h₁ => ?_)
  obtain rfl | ⟨gi, hgroup, rfl⟩ := lockGroup_ok h₁
  · exact .bind (.rollback (.pure rfl))
  refine guarded_ensures ?_ fun _ _ _ => rfl
  split
  · exact .bind (.rollback (.pure rfl))
  rename_i hactor
  split
  · exact .bind (.rollback (.pure rfl))
  refine .bind (.exec fun t₂ v₂ n₂ e₂ ht₂ hv₂ h₂ => ?_)
  obtain rfl | ⟨time, hmember, rfl⟩ := lockMember_ok h₂
  · exact .bind (.rollback (.pure rfl))
  refine .bind (.select_first rfl fun t₃ v₃ ht₃ _ => ?_)
  refine guarded_ensures ?_ fun _ _ _ => rfl
  by_cases hdissolve : u = gi.masterUid ∧ dissolve = true
  · obtain ⟨hmaster, rfl⟩ := hdissolve
    rw [decide_eq_true ⟨hmaster, rfl⟩]
    exact dissolve_ensures hJ rfl (by simp) hv₁.here hgroup (ht₂.trans ht₃)
  rw [decide_eq_false hdissolve]
  exact leave_ensures hJ rfl (by simp) hv₁.here hgroup (ht₂.trans ht₃) (by simp) hv₂.here ht₃ hmember
    (by simpa [or_iff_not_imp_left] using hactor) hdissolve

end Imm
