import Imm.Store.Deeds

/-! The friend and file operations commit nothing but their deeds. -/

namespace Imm

open Txn SQL MysqlStore

variable [Collation] {V : Versions} {J : ℕ → Prop} {C : ℕ → Tx Key Write → Prop} {α : Type}
  {a₀ : ℕ} {dn₀ : Option ℕ}

variable {Q : α → Post Key Write} {x : Operating α}

theorem guarded_ensures {failed : String → α} {tx : Option (Tx Key Write)} (h : Ensures V J C Q x a₀ tx dn₀)
    (hfailed : ∀ e a dn, Q (failed e) a none dn) : Ensures V J C Q (guarded failed x) a₀ tx dn₀ :=
  h.catching fun e a _ dn => .bind (.abort (.pure (hfailed e a dn)))

theorem rethrowing_ensures {tx : Option (Tx Key Write)} (h : Ensures V J C Q x a₀ tx dn₀) :
    Ensures V J C Q (rethrowing x) a₀ tx dn₀ :=
  h.catching fun _ _ _ _ => .bind (.abort .throw)

theorem replying_wp {R : Reply → Post Key Write} {reply : α → Reply}
    (h : Ensures V J C Q x a₀ none dn₀) (hR : ∀ b a tx dn, Q b a tx dn → R (reply b) a tx dn)
    (hthrown : ∀ e a tx dn, R (.thrown e) a tx dn) : wp V J C R (replying reply x) a₀ none dn₀ :=
  Ensures.outcome ((rethrowing_ensures h).mono (fun _ _ _ h => h) hR) hthrown

theorem findReadyFile_ensures (fileId : String) (owner : ℤ) (now : String) :
    Ensures V J C (fun r _ tx _ => tx = none ∧ ∀ file, r = some file → file.ownerUid = owner ∧ ∃ v ∈ V,
        v.db.fileObjects.get (weight fileId) = some file)
      (MysqlStore.findReadyFile fileId owner now) a₀ none dn₀ := by
  refine .select fun t v _ hv => ⟨rfl, fun file hfile => ?_⟩
  obtain ⟨hrow, hready⟩ := Option.filter_eq_some_iff.1 hfile
  rw [decide_eq_true_eq] at hready
  exact ⟨hready.1, v, List.mem_of_getElem? hv.here, hrow⟩

variable (hJ : ∀ j, J j → ∃ x : Tx Key Write, Commits V j x)

include hJ

theorem insertFriendApply_ensures (a b : ℤ) (data : FriendApply) :
    Ensures V J (Does V (.insertFriendApply a b data))
      (fun _ n tx _ => tx = none ∧ Applied V a b data n)
      (MysqlStore.insertFriendApply a b data) a₀ none dn₀ := by
  have deed : ∀ k : ℤ × ℤ, k = (a, b) ∨ k = (b, a) → ∀ t v n e, Seen V J t v →
      SQL.insertFriendApply k.1 k.2 data n v.db = .ok e →
      ∀ t' v', t ≤ t' → Landing V t' (.add Db {} e t) v' →
        Does V (.insertFriendApply a b data) t' (.add Db {} e t) := by
    intro k hk t v n e hv hs t' v' _ hland
    obtain ⟨hnew, rfl⟩ := insertFriendApply_ok hs
    have hnone : v'.db.friendApplys.get k = none := by
      rw [friendApplys_frame.kept (m := .exclusive) hland (by simp) hv.here, hnew]
    exact ⟨v', hland.here, by simpa using Deed.apply hk hnone⟩
  refine .bind (.exec_landing hJ fun t₁ v₁ n₁ e₁ _ hv₁ h₁ =>
    ⟨deed (a, b) (.inl rfl) t₁ v₁ n₁ e₁ hv₁ h₁, fun hmade₁ => ?_⟩)
  refine .bind (.exec_landing hJ fun t₂ v₂ n₂ e₂ ht₂ hv₂ h₂ =>
    ⟨deed (b, a) (.inr rfl) t₂ v₂ n₂ e₂ hv₂ h₂, fun _ => ?_⟩)
  obtain ⟨-, rfl⟩ := insertFriendApply_ok h₁
  exact .pure ⟨rfl, _, _, _, _, ht₂, Nat.le_succ_of_le le_rfl, hmade₁, Table.get_set_self _ _ _, hv₂.here,
    (insertFriendApply_ok h₂).1⟩

theorem updateFriendApplyStatus_ensures (a b : ℤ) (data : FriendApply) :
    Ensures V J (Does V (.updateFriendApplyStatus a b data)) (fun _ _ tx _ => tx = none)
      (MysqlStore.updateFriendApplyStatus a b data) a₀ none dn₀ := by
  have deed : ∀ k : ℤ × ℤ, k = (a, b) ∨ k = (b, a) → ∀ t v n e, Seen V J t v →
      SQL.updateFriendApply k.1 k.2 data n v.db = .ok e →
      ∀ t' v', t ≤ t' → Landing V t' (.add Db {} e t) v' →
        Does V (.updateFriendApplyStatus a b data) t' (.add Db {} e t) := by
    intro k hk t v n e hv hs t' v' _ hland
    rcases updateFriendApply_ok hs with ⟨-, rfl⟩ | ⟨old, hold, rfl⟩
    · exact ⟨v', hland.here, .idle _⟩
    rw [← friendApplys_frame.kept (m := .exclusive) hland (by simp) hv.here] at hold
    exact ⟨v', hland.here, by simpa using Deed.answer hk hold⟩
  refine .bind (.exec_landing hJ fun t v n e _ hv hs =>
    ⟨deed (a, b) (.inl rfl) t v n e hv hs, fun _ => ?_⟩)
  refine .bind (.exec_landing hJ fun t v n e _ hv hs =>
    ⟨deed (b, a) (.inr rfl) t v n e hv hs, fun _ => ?_⟩)
  exact .pure rfl

theorem insertFriend_ensures (f c a b : ℤ) (time : String) :
    Ensures V J (Does V (.insertFriend f c a b time))
      (fun _ n tx _ => tx = none ∧ Befriended V a b n)
      (MysqlStore.insertFriend f c a b time) a₀ none dn₀ := by
  refine .bind (.start (rethrowing_ensures ?_))
  refine .bind (.exec fun t₁ v₁ n₁ e₁ _ hv₁ h₁ => ?_)
  obtain ⟨hfriend, hpair, rfl⟩ := insertFriend_ok h₁
  refine .bind (.exec fun t₂ v₂ n₂ e₂ _ hv₂ h₂ => ?_)
  obtain ⟨hconv, hfree, rfl⟩ := insertConversation_ok h₂
  refine .bind (.exec fun t₃ v₃ n₃ e₃ _ hv₃ h₃ => ?_)
  obtain ⟨hstates, -, rfl⟩ := insertUserStates_ok h₃
  refine .bind (.commit_landing hJ fun t v _ hland hmade =>
    ⟨⟨v, hland.here, .befriend ?_ ?_ ?_ ?_ ?_⟩, .pure ⟨rfl, t + 1, _, Nat.le_refl _, hmade,
      fun h => h f ⟨min a b, max a b, time⟩ ?_ ⟨rfl, rfl⟩⟩⟩)
  · exact (friends_frame.kept (m := .exclusive) hland (by simp) hv₁.here).trans hfriend
  · exact (conversations_frame.kept (m := .exclusive) hland (by simp) hv₂.here).trans hconv
  · exact noConversation_kept (m := .exclusive) hland (by simp) hv₂.here hfree
  · have hjoin : ∀ u ∈ [min a b, max a b], v.db.conversationUserStates.get (c, u) = none := by
      intro u hu
      have hlocked : u = min a b ∨ u = max a b := by simpa using hu
      refine (userStates_frame.kept (m := .exclusive) hland ?_ hv₃.here).trans (hstates u hu)
      simpa using hlocked
    intro w hw
    rcases List.mem_pair.1 hw with rfl | rfl
    · exact ⟨_, rfl, hjoin _ (by simp)⟩
    · exact ⟨_, rfl, hjoin _ (by simp)⟩
  · exact strangers_kept (m := .exclusive) hland (by simp) hv₁.here hpair
  · exact Table.get_set_self _ _ _

theorem deleteFriend_ensures (a b : ℤ) :
    Ensures V J (Does V (.deleteFriend a b)) (fun _ _ tx _ => tx = none)
      (MysqlStore.deleteFriend a b) a₀ none dn₀ := by
  refine .bind (.exec_landing hJ fun t v n e _ _ hs => ⟨fun t' v' _ hland => ?_, fun _ => ?_⟩)
  · cases hs
    exact ⟨v', hland.here, .unfriend⟩
  · exact .pure rfl

/-- The row is written after a look at its owner, which another session may have set in between. -/
theorem upsertReadyFile_ensures (file : FileObject) :
    Ensures V J (fun t x => Does V (.upsertReadyFile file) t x ∧ (x.writes ≠ [] → OwnerSeen V file a₀ t))
      (fun _ _ tx _ => tx = none) (MysqlStore.upsertReadyFile file) a₀ none dn₀ := by
  refine .bind (.exec_landing hJ fun t₁ v₁ n e ht₁ hv₁ hs =>
    ⟨fun t' v' _ hland => ?_, fun _ => ?_⟩)
  · rw [SQL.lockFileOwner] at hs
    split at hs <;> cases hs <;> exact ⟨⟨v', hland.here, .idle _⟩, fun hw => absurd rfl hw⟩
  · have hreply : e.reply = (v₁.db.fileObjects.get (weight file.fileId)).map (·.ownerUid) := by
      rw [SQL.lockFileOwner] at hs
      split at hs <;> cases hs <;> simp [*]
    split
    · exact .pure rfl
    rename_i howner
    have hseen : ∀ f, v₁.db.fileObjects.get (weight file.fileId) = some f → f.ownerUid = file.ownerUid := by
      intro f hf
      simpa [hreply, hf] using howner
    refine .bind (.exec_landing hJ fun t v n e ht hv hs =>
      ⟨fun t' v' ht' hland => ⟨?_, fun _ => ⟨t₁, v₁, ht₁, by omega, hv₁.here, hseen⟩⟩, fun _ => ?_⟩)
    · obtain ⟨-, -, rfl⟩ := insertRows_ok (within_ok hs).2
      have hkept := (fileObjects_frame (k := weight file.fileId)).kept (m := .exclusive) hland (by simp)
        hv.here
      refine ⟨v', hland.here, ?_⟩
      cases hrow : v.db.fileObjects.get (weight file.fileId) with
      | none => simpa [hrow] using Deed.upload (hkept.trans hrow)
      | some old => simpa [hrow] using Deed.reupload (hkept.trans hrow)
    · exact .pure rfl

theorem saveFileUploadProgress_ensures (u : ℤ) (fileId : String) (row : FileUpload) :
    Ensures V J (Does V (.saveFileUploadProgress u fileId row)) (fun _ _ tx _ => tx = none)
      (MysqlStore.saveFileUploadProgress u fileId row) a₀ none dn₀ := by
  refine .bind (.exec_landing hJ fun t v n e _ _ hs => ⟨fun t' v' _ hland => ?_, fun _ => ?_⟩)
  · obtain ⟨-, -, rfl⟩ := insertRows_ok (within_ok hs).2
    exact ⟨v', hland.here, .progress⟩
  · exact .pure rfl

/-- The four operations on `userInfo` make the same kind of deed. -/
theorem updateUserInfo_ensures (o : Operation) (u : ℤ) (change : UserInfo → UserInfo) :
    Ensures V J (Does V o) (fun _ _ tx _ => tx = none) (MysqlStore.updateUserInfo u change) a₀ none dn₀ := by
  refine .bind (.exec_landing hJ fun t v n e _ _ hs => ⟨fun t' v' _ hland => ?_, fun _ => ?_⟩)
  · rw [SQL.updateUserInfo] at hs
    split at hs <;> cases hs
    · exact ⟨v', hland.here, .profile⟩
    · exact ⟨v', hland.here, .idle _⟩
  · exact .pure rfl

end Imm
