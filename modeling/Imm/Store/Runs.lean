import Imm.Store.MessageDeeds
import Imm.Store.GroupDeeds

/-! Runs of the store. Every version of a run is the version before it with one deed applied, whatever
    the sessions, their interleaving and their failures (`History`); what is true of the versions then
    follows by induction over them. Every answer is one of the answers `Answers` describes. -/

namespace Imm

open Txn SQL MysqlStore Nat

variable [Collation]

/-- What the answer `r` of operation `o` says of the versions, when the operation began at version
    `b`, ended at version `a` and its last commit made version `dn`. -/
def Answers (V : Versions) (b : ℕ) : Operation → Reply → ℕ → Option ℕ → Prop
  | .acceptDirectText op, .accepted r, _, dn =>
    (r.error = .Success →
      Accepted V op.senderId op.receiverId op.clientMessageId op.messageType op.content r dn) ∧
    Refers V op.senderId op.clientMessageId r
  | .acceptGroupMessage op, .groupAccepted r, a, dn =>
    (r.error = .Success →
      Accepted V op.senderId op.groupId op.clientMessageId op.messageType op.content
        r.toMessageAcceptResult dn ∧
      WasMember V op.groupId op.senderId b a ∧ (r.duplicate = false → Delivered V op r dn)) ∧
    Refers V op.senderId op.clientMessageId r.toMessageAcceptResult
  | .syncConversation op, .synced r, a, _ => r.error = .Success → Synced V op r b a
  | .acknowledgeConversationMessage op, .acknowledged r, a, dn =>
    (r.updated ≠ 0 → WasParticipant V op.conversationId op.uid b a ∧ Recorded V op r dn) ∧
      (r.updated = 0 → dn = none ∧ r.readStateChanged = false)
  | .pullGroup g u, .group r, a, _ => r.error = .Success → WasMember V g u b a
  | _, _, _, _ => True

/-- An operation whose answer says nothing of the versions. -/
theorem silent_wp {α : Type} {V : Versions} {J : ℕ → Prop} {C : ℕ → Tx Key Write → Prop} {Q : α → Post Key Write}
    {x : Sql Db Key Write α} {reply : α → Reply} {o : Operation} {b : ℕ} (h : Ensures V J C Q x b none none)
    (hany : ∀ r a dn, Answers V b o r a dn := by intros; trivial) :
    wp V J C (fun r a _ dn => Answers V b o r a dn) (replying reply x) b none none :=
  replying_wp h (fun _ _ _ _ _ => hany _ _ _) fun _ _ _ _ => hany _ _ _

/-- Every operation commits its deeds only, and its answer is right. -/
theorem execute_wp {V : Versions} {J : ℕ → Prop} (hJ : ∀ j, J j → ∃ x : Tx Key Write, Commits V j x)
    (o : Operation) (b : ℕ) :
    wp V J (Does V o) (fun r a _ dn => Answers V b o r a dn) (execute o) b none none := by
  have thrown : ∀ e a (_ : Option (Tx Key Write)) dn, Answers V b o (.thrown e) a dn := by
    intro e a _ dn
    cases o <;> trivial
  cases o with
  | getUserInfo u => exact silent_wp (Q := fun _ _ _ _ => True) (.select fun _ _ _ _ => trivial)
  | getFriendList u => exact silent_wp (Q := fun _ _ _ _ => True) (.bind (.select fun _ _ _ _ => .pure trivial))
  | insertFriendApply x y data => exact silent_wp (insertFriendApply_ensures hJ x y data)
  | updateFriendApplyStatus x y data => exact silent_wp (updateFriendApplyStatus_ensures hJ x y data)
  | insertFriend f c x y time => exact silent_wp (insertFriend_ensures hJ f c x y time)
  | deleteFriend x y => exact silent_wp (deleteFriend_ensures hJ x y)
  | acceptDirectText op =>
    exact replying_wp (acceptDirectText_ensures hJ op) (fun _ _ _ _ h => h.2) thrown
  | acceptGroupMessage op =>
    exact replying_wp (acceptGroupMessage_ensures hJ op) (fun _ _ _ _ h => h.2) thrown
  | syncConversation op =>
    exact replying_wp (syncConversation_ensures op) (fun _ _ _ _ h => h.2) thrown
  | acknowledgeConversationMessage op =>
    exact replying_wp (acknowledge_ensures hJ op) (fun _ _ _ _ h => h.2) thrown
  | upsertReadyFile file =>
    exact silent_wp ((upsertReadyFile_ensures hJ file).mono (fun _ _ _ h => h.1) fun _ _ _ _ h => h)
  | findReadyFile fileId owner now => exact silent_wp (findReadyFile_ensures fileId owner now)
  | saveFileUploadProgress u fileId row => exact silent_wp (saveFileUploadProgress_ensures hJ u fileId row)
  | findDownloadableFile fileId u now => exact silent_wp (Q := fun _ _ _ _ => True) (.select fun _ _ _ _ => trivial)
  | getFriendApplyList u => exact silent_wp (Q := fun _ _ _ _ => True) (.bind (.select fun _ _ _ _ => .pure trivial))
  | createGroup g gi => exact silent_wp (createGroup_ensures hJ g gi)
  | requestGroupJoin g u message now => exact silent_wp (requestGroupJoin_ensures hJ g u message now)
  | replyGroupJoin g x u accept now => exact silent_wp (replyGroupJoin_ensures hJ g x u accept now)
  | removeGroupMember g x u dissolve => exact silent_wp (removeGroupMember_ensures hJ g x u dissolve)
  | pullGroup g u =>
    exact replying_wp (pullGroup_ensures g u) (fun _ _ _ _ h => h) thrown
  | updateUserInfoName u name => exact silent_wp (updateUserInfo_ensures hJ _ u _)
  | updateUserInfoAge u age => exact silent_wp (updateUserInfo_ensures hJ _ u _)
  | updateUserInfoSex u sex => exact silent_wp (updateUserInfo_ensures hJ _ u _)
  | updateUserInfoHeadImageUrl u url => exact silent_wp (updateUserInfo_ensures hJ _ u _)

/-- A run of the store from the rows `d`. -/
def Runs (d : Db) (s : Store) : Prop :=
  ∃ evs : List (Event Operation), (Sys.init d).run execute evs = some s

theorem Runs.first {d : Db} {s : Store} (h : Runs d s) : s.versions[0]? = some ⟨d, []⟩ := by
  obtain ⟨evs, hrun⟩ := h
  obtain ⟨rest, hrest⟩ := Sys.versions_run hrun
  rw [← hrest]
  rfl

theorem Runs.coherent {d : Db} {s : Store} (h : Runs d s) :
    Coherent s.versions (fun o _ => Does s.versions o)
      (fun o b r a _ dn => Answers s.versions b o r a dn) s := by
  obtain ⟨evs, hrun⟩ := h
  exact run_spec hrun fun o b => execute_wp (fun _ => Made.commits) o b

/-! ### Histories -/

/-- Every version but the first is a deed on the one before, of an operation in `A`. -/
def History (A : Operation → Prop) (V : Versions) : Prop :=
  ∀ j, j + 1 < V.length → ∃ o x, A o ∧ Commits V j x ∧ Does V o j x

variable {A : Operation → Prop} {V : Versions}

theorem History.step (h : History A V) {j : ℕ} {v v' : Version Db Key}
    (hv : V[j]? = some v) (hv' : V[j + 1]? = some v') :
    ∃ o ws, A o ∧ Deed V j v.db v'.locks o ws ∧ v'.db = applyAll ws v.db := by
  obtain ⟨o, x, ha, hc, u, hu, hdeed⟩ := h j (List.getElem?_eq_some_iff.1 hv').1
  obtain ⟨u', hu', hmade⟩ := hc.made
  cases hv.symm.trans hu
  cases hv.symm.trans hu'
  cases hv'.symm.trans hmade
  exact ⟨o, x.writes, ha, hdeed, rfl⟩

/-- What the first version satisfies and every deed keeps holds of all versions. The step may use
    that it holds of every version so far, since a deed can rest on an old read. -/
theorem History.invariant (h : History A V) {P : Db → Prop}
    (hinit : ∀ v, V[0]? = some v → P v.db)
    (hstep : ∀ j v v' o ws, V[j]? = some v → V[j + 1]? = some v' →
      (∀ i u, i ≤ j → V[i]? = some u → P u.db) → A o → Deed V j v.db v'.locks o ws →
      P (applyAll ws v.db))
    (j : ℕ) : ∀ v, V[j]? = some v → P v.db := by
  induction j using Nat.strong_induction_on with
  | _ j ih =>
    intro v' hv'
    cases j with
    | zero => exact hinit v' hv'
    | succ j =>
      have hlt : j < V.length := lt_of_succ_lt (List.getElem?_eq_some_iff.1 hv').1
      have hv : V[j]? = some V[j] := List.getElem?_eq_getElem hlt
      obtain ⟨o, ws, ha, hdeed, hdb⟩ := h.step hv hv'
      rw [hdb]
      exact hstep j _ v' o ws hv hv' (fun i u hi hu => ih i (lt_succ_of_le hi) u hu) ha hdeed

theorem History.onwards (h : History A V) {P : Db → Prop}
    (hstep : ∀ j v v' o ws, V[j]? = some v → V[j + 1]? = some v' →
      A o → Deed V j v.db v'.locks o ws → P v.db → P (applyAll ws v.db))
    {i j : ℕ} {u v : Version Db Key} (hij : i ≤ j) (hu : V[i]? = some u) (hv : V[j]? = some v)
    (hP : P u.db) : P v.db := by
  induction j, hij using le_induction generalizing v with
  | base => rw [hu, Option.some.injEq] at hv; exact hv ▸ hP
  | succ j hij ih =>
    have hlt : j < V.length := lt_of_succ_lt (List.getElem?_eq_some_iff.1 hv).1
    have hw : V[j]? = some V[j] := List.getElem?_eq_getElem hlt
    obtain ⟨o, ws, ha, hdeed, hdb⟩ := h.step hw hv
    rw [hdb]
    exact hstep j _ v o ws hw hv ha hdeed (ih hw)

section rows

variable {β : Type} {f : Db → Option β} {R : β → β → Prop} {i j : ℕ} {u v : Version Db Key} {x y : β}

/-- A row that every deed keeps up to `R` is kept from a version on. -/
theorem History.grows (h : History A V) (hrefl : ∀ x, R x x) (htrans : ∀ {x y z}, R x y → R y z → R x z)
    (hstep : ∀ {t d ls o ws x}, Deed V t d ls o ws → f d = some x → ∃ y, f (applyAll ws d) = some y ∧ R x y)
    (hij : i ≤ j) (hu : V[i]? = some u) (hv : V[j]? = some v) (hx : f u.db = some x) :
    ∃ y, f v.db = some y ∧ R x y := by
  refine h.onwards (P := fun d => ∃ y, f d = some y ∧ R x y) ?_ hij hu hv ⟨x, hx, hrefl x⟩
  rintro _ _ _ _ _ - - - hdeed ⟨y, hy, hxy⟩
  obtain ⟨z, hz, hyz⟩ := hstep hdeed hy
  exact ⟨z, hz, htrans hxy hyz⟩

/-- The same of a row that may be deleted, while it is there. -/
theorem History.stays (h : History A V) (hrefl : ∀ x, R x x) (htrans : ∀ {x y z}, R x y → R y z → R x z)
    (hstep : ∀ {t d ls o ws x y}, Deed V t d ls o ws → f d = some x → f (applyAll ws d) = some y → R x y)
    (hij : i ≤ j) (hu : V[i]? = some u) (hv : V[j]? = some v) (hx : f u.db = some x)
    (hy : f v.db = some y) (hstay : ∀ n w, i ≤ n → n ≤ j → V[n]? = some w → (f w.db).isSome) : R x y := by
  induction j, hij using le_induction generalizing v y with
  | base =>
    cases hu.symm.trans hv
    cases hx.symm.trans hy
    exact hrefl x
  | succ j hij ih =>
    have hlt : j < V.length := lt_of_succ_lt (List.getElem?_eq_some_iff.1 hv).1
    have hw : V[j]? = some V[j] := List.getElem?_eq_getElem hlt
    obtain ⟨z, hz⟩ := Option.isSome_iff_exists.1 (hstay j _ hij (le_succ j) hw)
    obtain ⟨o, ws, -, hdeed, hdb⟩ := h.step hw hv
    exact htrans (ih hw hz fun n w hin hnj => hstay n w hin (le_succ_of_le hnj)) (hstep hdeed hz (hdb ▸ hy))

end rows

theorem Runs.history_of {d : Db} {s : Store} (h : Runs d s) (hA : ∀ σ ∈ s.sessions, A σ.op) :
    History A s.versions := by
  intro j hj
  obtain ⟨σ, hσ, -, x, hc, hd⟩ := h.coherent.maker j (by simpa [Sys.versions, Sys.now] using hj)
  exact ⟨σ.op, x, hA σ hσ, hc, hd⟩

theorem Runs.history {d : Db} {s : Store} (h : Runs d s) : History (fun _ => True) s.versions :=
  h.history_of fun _ _ => trivial

end Imm
