import Imm.Schemes.Phases
import Imm.Store.Operations

/-! The exits of the operations. However its statements and commands end, an operation leaves its
    connection without an open transaction or drops it, and one that works in a transaction commits by
    COMMIT only (`execute_tidy`). The eight transactional operations have their early ROLLBACKs inside
    the block that catches, so a ROLLBACK that fails drops the connection like any other failure. -/

namespace Imm

open Txn MysqlStore

variable {α : Type} {φ : Phase}

/-- The phase of an exit, whatever the value returned. -/
abbrev Tidily (x : Operating α) : Phase → Prop := Ends Phase.Clean (fun _ ψ => ψ.Tidy) x

variable {Q : α → Phase → Prop} {x : Operating α}

theorem guarded_ends {failed : String → α} (h : Ends Phase.Clean Q x φ)
    (hfailed : ∀ e (ψ : Phase), ψ.Clean → Q (failed e) ψ.abort) : Ends Phase.Clean Q (guarded failed x) φ :=
  h.catching fun e ψ hψ => .bind (.abort (.pure (hfailed e ψ hψ)))

theorem guarded_tidily {failed : String → α} (h : Tidily x φ) :
    Tidily (guarded failed x) φ :=
  guarded_ends h fun _ _ hψ => hψ.tidy_abort

theorem rethrowing_ends {E : Phase → Prop}
    (h : Ends Phase.Clean Q x φ) (hE : ∀ ψ : Phase, ψ.Clean → E ψ.abort) : Ends E Q (rethrowing x) φ :=
  h.catching fun _ ψ hψ => .bind (.abort (.throw (hE ψ hψ)))

theorem rolledBack_tidily {r : α} : Tidily (do Sql.rollback; pure r) .inside :=
  .bind (.rollback (.pure Phase.tidy_rollback))

theorem committed_tidily {r : α} : Tidily (do Sql.commit; pure r) .inside :=
  .bind (.commit (.pure Phase.tidy_commit))

/-! ### In transactions -/

theorem insertFriend_tidily (f c a b : ℤ) (time : String) : Tidily (insertFriend f c a b time) .outside := by
  refine .bind (.start (rethrowing_ends ?_ fun _ h => h))
  refine .bind (.exec fun _ => .bind (.exec fun _ => .bind (.exec fun _ => ?_)))
  exact committed_tidily

theorem createGroup_tidily (g : ℤ) (gi : GroupInfo) : Tidily (createGroup g gi) .outside := by
  refine .bind (.start (guarded_tidily (.bind (.exec fun _ => ?_))))
  refine .bind (.exec fun _ => .bind (.exec fun _ => .bind (.exec fun _ => ?_)))
  exact committed_tidily

theorem requestGroupJoin_tidily (g u : ℤ) (message now : String) :
    Tidily (requestGroupJoin g u message now) .outside := by
  refine .bind (.start (guarded_tidily (.bind (.exec fun group => ?_))))
  cases group with
  | none => exact rolledBack_tidily
  | some group =>
    refine guarded_tidily (.bind (.select fun member => ?_))
    split
    · exact rolledBack_tidily
    · exact .bind (.exec fun _ => guarded_tidily committed_tidily)

theorem finish_tidily (r : GroupOperationResult) : Tidily (replyGroupJoin.finish r) .inside :=
  guarded_tidily committed_tidily

theorem replyGroupJoin_tidily (g a u : ℤ) (accept : Bool) (now : String) :
    Tidily (replyGroupJoin g a u accept now) .outside := by
  refine .bind (.start (guarded_tidily (.bind (.exec fun group => ?_))))
  cases group with
  | none => exact rolledBack_tidily
  | some group =>
    refine guarded_tidily ?_
    split
    · exact rolledBack_tidily
    refine .bind (.exec fun waiting => ?_)
    split
    · exact rolledBack_tidily
    refine .bind (.exec fun _ => ?_)
    split
    · refine .bind (.exec fun _ => .bind (.exec fun _ => guarded_tidily ?_))
      exact .bind (.select fun _ => finish_tidily _)
    · exact finish_tidily _

theorem removeGroupMember_tidily (g a u : ℤ) (dissolve : Bool) :
    Tidily (removeGroupMember g a u dissolve) .outside := by
  refine .bind (.start (guarded_tidily (.bind (.exec fun group => ?_))))
  cases group with
  | none => exact rolledBack_tidily
  | some group =>
    have hdelete : ∀ {Q : Unit → Phase → Prop} {c : ℤ} {all : Bool}, Q () .inside →
        Ends Phase.Clean Q (removeGroupMember.deleteRows g u c all) .inside := fun h => by
      unfold removeGroupMember.deleteRows
      split
      · exact .bind (.exec fun _ => .bind (.exec fun _ => .bind (.exec fun _ =>
          .exec fun _ => h)))
      · exact .bind (.exec fun _ => .exec fun _ => h)
    refine guarded_tidily ?_
    split
    · exact rolledBack_tidily
    split
    · exact rolledBack_tidily
    refine .bind (.exec fun member => ?_)
    split
    · exact rolledBack_tidily
    exact .bind (.select fun _ => guarded_tidily (.bind (hdelete committed_tidily)))

theorem recipients_tidily (op : AcceptGroupMessage) (r : GroupMessageAcceptResult) :
    Tidily (acceptGroupMessage.recipients op r) .inside :=
  guarded_tidily (.bind (.select fun _ => guarded_tidily committed_tidily))

variable [Collation]

theorem acceptDirectText_tidily (op : AcceptDirectText) : Tidily (acceptDirectText op) .outside := by
  refine .bind (.start (guarded_tidily (.bind (.select fun friendRow => ?_))))
  cases friendRow with
  | none => exact rolledBack_tidily
  | some conversationId =>
    refine guarded_tidily (.bind (.exec fun _ => .bind (.exec fun latestSeq => ?_)))
    cases latestSeq with
    | none => exact rolledBack_tidily
    | some latestSeq =>
      refine .bind (.select fun duplicate => ?_)
      cases duplicate with
      | none =>
        refine guarded_tidily (.bind (.exec fun _ => .bind (.exec fun _ => ?_)))
        exact guarded_tidily committed_tidily
      | some row =>
        dsimp only
        split
        · exact guarded_tidily committed_tidily
        · exact rolledBack_tidily

theorem acceptGroupMessage_tidily (op : AcceptGroupMessage) : Tidily (acceptGroupMessage op) .outside := by
  refine .bind (.start (guarded_tidily (.bind (.exec fun member => ?_))))
  cases member with
  | none => exact rolledBack_tidily
  | some conversationId =>
    have hready : ∀ {Q : Bool → Phase → Prop}, (∀ b, Q b .inside) →
        Ends Phase.Clean Q (acceptGroupMessage.fileReady op) .inside := fun h => by
      unfold acceptGroupMessage.fileReady
      split
      · exact .exec h
      · exact .pure (h true)
    refine guarded_tidily (.bind (hready fun ready => ?_))
    split
    · exact rolledBack_tidily
    refine .bind (.exec fun latestSeq => ?_)
    cases latestSeq with
    | none => exact rolledBack_tidily
    | some latestSeq =>
      refine .bind (.select fun duplicate => ?_)
      cases duplicate with
      | none =>
        refine guarded_tidily (.bind (.exec fun _ => .bind (.exec fun _ => ?_)))
        exact recipients_tidily op _
      | some row =>
        dsimp only
        split
        · exact recipients_tidily op _
        · exact rolledBack_tidily

/-- The answer of a receipt tells whether its transaction was committed. -/
theorem acknowledge_ends (op : AcknowledgeConversationMessage) :
    Ends Phase.Clean (fun r ψ => ψ.Tidy ∧ (r.updated = 0 → ψ.touched = false))
      (acknowledgeConversationMessage op) .outside := by
  unfold acknowledgeConversationMessage
  split
  · exact .pure ⟨⟨.inr rfl, by rintro ⟨⟩⟩, fun _ => rfl⟩
  refine .bind (.start (rethrowing_ends (.bind (.exec fun found => ?_)) fun _ h => h))
  cases found with
  | none => exact .bind (.rollback (.pure ⟨Phase.tidy_rollback, fun _ => rfl⟩))
  | some row =>
    have hmark : ∀ {Q : Unit → Phase → Prop} {direct : Bool}, Q () .inside →
        Ends Phase.Clean Q (acknowledgeConversationMessage.markReceived op direct) .inside := fun h => by
      unfold acknowledgeConversationMessage.markReceived
      split
      · exact .exec fun _ => h
      · exact .pure h
    refine .bind (hmark (.bind (.exec fun _ => .bind (.exec fun _ => ?_))))
    exact .bind (.commit (.pure ⟨Phase.tidy_commit, fun h => absurd h Int.one_ne_zero⟩))

/-! ### Outside transactions -/

omit [Collation] in
theorem plain_tidy (h : (φ.opened, φ.started) = (false, false)) : φ.Tidy :=
  ⟨.inr (congrArg Prod.fst h), fun hs => absurd (hs.symm.trans (congrArg Prod.snd h)) (by decide)⟩

omit [Collation] in
theorem select_tidily {q : Db → α} : Tidily (Sql.select q) .outside :=
  .select_auto rfl (fun _ => plain_tidy rfl) (plain_tidy rfl).clean (plain_tidy rfl).clean

omit [Collation] in
theorem selected_tidily {β : Type} {q : Db → β} {f : β → α} :
    Tidily (do let r ← Sql.select q; pure (f r)) .outside :=
  .bind (.select_auto rfl (fun _ => .pure (plain_tidy rfl)) (plain_tidy rfl).clean (plain_tidy rfl).clean)

omit [Collation] in
theorem exec_tidily {β : Type} {s : Stmt Db Key Write β} {f : β → Operating α}
    (hφ : (φ.aborted, φ.opened, φ.started) = (false, false, false)) (h : ∀ b, Tidily (f b) φ.write) :
    Tidily (do let b ← Sql.exec s; f b) φ :=
  have hplain := congrArg Prod.snd hφ
  .bind (.exec_auto (congrArg Prod.fst hφ) h (plain_tidy hplain).clean (plain_tidy (φ := φ.write) hplain).clean
    (plain_tidy (φ := φ.close) (congrArg (fun p : Bool × Bool => (false, p.2)) hplain)).clean)

theorem upsertReadyFile_tidily (file : FileObject) : Tidily (upsertReadyFile file) .outside := by
  refine exec_tidily rfl fun existing => ?_
  split
  · exact .pure (plain_tidy rfl)
  · exact exec_tidily rfl fun _ => .pure (plain_tidy rfl)

theorem syncConversation_tidily (op : SyncConversation) : Tidily (syncConversation op) .outside := by
  unfold syncConversation
  split
  · exact .pure (plain_tidy rfl)
  refine .bind (.select_auto rfl (fun member => ?_) (plain_tidy rfl).clean (plain_tidy rfl).clean)
  cases member with
  | none => exact .pure (plain_tidy rfl)
  | some row => exact selected_tidily

omit [Collation] in
/-- An exception of `pull_group` keeps the connection, on which nothing was started. -/
theorem caught_tidily {E : Phase → Prop} {r : GroupOperationResult} {x : Operating GroupOperationResult}
    (h : Ends (· = .outside) (fun _ ψ => ψ.Tidy) x .outside) :
    Ends E (fun _ ψ => ψ.Tidy) (pullGroup.caught r x) .outside :=
  h.catching fun _ _ hψ => .pure (hψ ▸ plain_tidy rfl)

omit [Collation] in
theorem pullGroup_tidily (g u : ℤ) : Tidily (pullGroup g u) .outside := by
  refine caught_tidily (.bind (.select_auto rfl (fun group => ?_) rfl rfl))
  cases group with
  | none => exact .pure (plain_tidy rfl)
  | some group =>
    refine caught_tidily (.bind (.select_auto rfl (fun member => ?_) rfl rfl))
    split
    · exact .pure (plain_tidy rfl)
    refine .bind (.select_auto rfl (fun _ => caught_tidily ?_) rfl rfl)
    split
    · exact .bind (.select_auto rfl (fun _ => .pure (plain_tidy rfl)) rfl rfl)
    · exact .pure (plain_tidy rfl)

/-! ### All operations -/

/-- A receipt that was not recorded has committed nothing. -/
def Untouched : Operation → Reply → Phase → Prop
  | .acknowledgeConversationMessage _, .acknowledged r, ψ => r.updated = 0 → ψ.touched = false
  | _, _, _ => True

/-- What an answer says of the phase it is given in. -/
structure Exit (o : Operation) (r : Reply) (ψ : Phase) : Prop where
  tidy : ψ.Tidy
  untouched : Untouched o r ψ

omit [Collation] in
theorem replying_leaves {o : Operation} {reply : α → Reply}
    (h : Ends Phase.Clean Q x φ) (hQ : ∀ b ψ, Q b ψ → Exit o (reply b) ψ)
    (hthrown : ∀ e ψ, Untouched o (.thrown e) ψ) : Leaves (Exit o) (replying reply x) φ :=
  Ends.outcome (rethrowing_ends h fun _ hψ => hψ.tidy_abort) hQ fun e ψ hψ => ⟨hψ, hthrown e ψ⟩

omit [Collation] in
theorem replying_tidily {o : Operation} {reply : α → Reply}
    (h : Tidily x φ) (hany : ∀ r ψ, Untouched o r ψ := by intros; trivial) : Leaves (Exit o) (replying reply x) φ :=
  replying_leaves h (fun _ _ hψ => ⟨hψ, hany _ _⟩) fun _ _ => hany _ _

/-- Whatever becomes of its statements and commands, an operation exits in order. -/
theorem execute_exits (o : Operation) : Leaves (Exit o) (execute o) .outside := by
  -- one statement outside a transaction
  have single : ∀ {s : Stmt Db Key Write Unit} {n : ℤ}, Tidily (do Sql.exec s; pure n) .outside :=
    exec_tidily rfl fun _ => .pure (plain_tidy rfl)
  have twice : ∀ {s₁ s₂ : Stmt Db Key Write Unit} {n : ℤ},
      Tidily (do Sql.exec s₁; Sql.exec s₂; pure n) .outside :=
    exec_tidily rfl fun _ => exec_tidily rfl fun _ => .pure (plain_tidy rfl)
  cases o with
  | getUserInfo u => exact replying_tidily select_tidily
  | getFriendList u => exact replying_tidily selected_tidily
  | insertFriendApply a b data => exact replying_tidily twice
  | updateFriendApplyStatus a b data => exact replying_tidily twice
  | insertFriend f c a b time => exact replying_tidily (insertFriend_tidily f c a b time)
  | deleteFriend a b => exact replying_tidily single
  | acceptDirectText op => exact replying_tidily (acceptDirectText_tidily op)
  | acceptGroupMessage op => exact replying_tidily (acceptGroupMessage_tidily op)
  | syncConversation op => exact replying_tidily (syncConversation_tidily op)
  | acknowledgeConversationMessage op =>
    exact replying_leaves (acknowledge_ends op) (fun _ _ h => ⟨h.1, h.2⟩) fun _ _ => trivial
  | upsertReadyFile file => exact replying_tidily (upsertReadyFile_tidily file)
  | saveFileUploadProgress u fileId row => exact replying_tidily single
  | findDownloadableFile fileId u now => exact replying_tidily select_tidily
  | findReadyFile fileId owner now => exact replying_tidily select_tidily
  | getFriendApplyList u => exact replying_tidily selected_tidily
  | createGroup g gi => exact replying_tidily (createGroup_tidily g gi)
  | requestGroupJoin g u message now => exact replying_tidily (requestGroupJoin_tidily g u message now)
  | replyGroupJoin g a u accept now => exact replying_tidily (replyGroupJoin_tidily g a u accept now)
  | removeGroupMember g a u dissolve => exact replying_tidily (removeGroupMember_tidily g a u dissolve)
  | pullGroup g u => exact replying_tidily (pullGroup_tidily g u)
  | updateUserInfoName u name | updateUserInfoAge u age | updateUserInfoSex u sex
  | updateUserInfoHeadImageUrl u url => exact replying_tidily single

end Imm
