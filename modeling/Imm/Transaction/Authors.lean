import Imm.Store.Receipts
import Imm.Transaction.Consent
import Imm.Transaction.Idempotence

/-! Whose commands change what. Every version is the work of one command, and what it changes belongs to the
    actor of the command: nobody writes in the name of somebody else. -/

namespace Imm

open Txn SQL MysqlStore

variable [Collation]

/-- `m` is a message that the command asks for, with its texts as their columns keep them. -/
def Command.Authors (V : Versions) (c : Command) (m : Message) : Prop :=
  c.actorUid = m.senderId ∧ ∃ k content, m.clientMessageId = some (varchar 128 k) ∧ m.content = text content ∧
    Sends V c.request k m.receiverId m.type content ∧ (m.type = .FILE → OwnsFile V c.actorUid content)

/-- What a commit of the command `c` changes. -/
structure Attributed (V : Versions) (c : Command) (d d' : Db) : Prop where
  message : ∀ k, d'.messages.get k ≠ d.messages.get k → ∃ m', d'.messages.get k = some m' ∧
    (d.messages.get k = none ∧ c.Authors V m' ∨
      ∃ m, d.messages.get k = some m ∧ m.Same m' ∧ m.receiverId = c.actorUid)
  position : ∀ k st', d'.conversationUserStates.get k = some st' →
    d.conversationUserStates.get k = some st' ∨
    d.conversationUserStates.get k = none ∧ st'.deliveredSeq = 0 ∧ st'.readSeq = 0 ∨ k.2 = c.actorUid
  application : ∀ k, d'.friendApplys.get k ≠ d.friendApplys.get k → k.1 = c.actorUid ∨ k.2 = c.actorUid
  friend : ∀ f, d'.friends.get f ≠ d.friends.get f → d.friends.get f = none ∧
    ∃ row, d'.friends.get f = some row ∧ (row.uidA = c.actorUid ∨ row.uidB = c.actorUid)

section deeds

variable {V : Versions} {t : ℕ} {d : Db} {ls : List (Lock Key)} {o : Operation} {ws : List Write}
  {c : Command}

omit [Collation] in
theorem changed_row {κ ρ : Type} [DecidableEq κ] {T T' : Table κ ρ} {k k' : κ} {r : Option ρ}
    (hset : T' = T.set k r) (h : T'.get k' ≠ T.get k') : k' = k := by
  by_contra hne
  exact h (hset ▸ Table.get_set_ne _ _ hne)

theorem Issues.authors (h : Issues V t c o) {m : Message} (hsends : o.Sends m) : c.Authors V m := by
  cases h with
  | direct hasks howns | group hasks howns =>
    obtain ⟨_, _, rfl⟩ := hsends
    exact ⟨rfl, _, _, rfl, rfl, hasks, howns⟩
  | _ => exact hsends.elim

theorem Issues.receipt_uid {op : AcknowledgeConversationMessage}
    (h : Issues V t c (.acknowledgeConversationMessage op)) : op.uid = c.actorUid := by
  cases h with
  | receipt huid => exact huid

theorem Deed.attributed (h : Deed V t d ls o ws) (hissues : Issues V t c o) :
    Attributed V c d (applyAll ws d) where
  message k hk := by
    rcases h.messages_cases with hsame | ⟨k', m, hnone, hsends, -, hset⟩ | ⟨op, m, rfl, hrec, hset⟩
    · exact absurd (by rw [hsame]) hk
    · obtain rfl := changed_row hset hk
      exact ⟨m, by rw [hset, Table.get_set_self], .inl ⟨hnone, hissues.authors hsends⟩⟩
    obtain rfl := changed_row hset hk
    refine ⟨_, by rw [hset, Table.get_set_self], .inr ⟨m, hrec.message, m.same_receive _ _, ?_⟩⟩
    exact hrec.recipient.trans hissues.receipt_uid
  position k st' hst' := by
    rcases h.states_cases hst' with hold | hnew | ⟨op, m, st, rfl, -, rfl, -⟩
    · exact .inl hold
    · exact .inr (.inl hnew)
    · exact .inr (.inr hissues.receipt_uid)
  application k hk := by
    rcases h.applications with hsame | ⟨a, b, data, k', rfl, hk', -, hset⟩ | ⟨a, b, data, k', rfl, hk', -, hset⟩
    · exact absurd (by rw [hsame]) hk
    all_goals
      obtain rfl := changed_row hset hk
      cases hissues <;> rcases hk' with rfl | rfl <;> simp
  friend f hf := by
    rcases h.friends hissues.keeps with hsame | ⟨f', _, a, b, time, rfl, hnone, -, hset⟩
    · exact absurd (by rw [hsame]) hf
    obtain rfl := changed_row hset hf
    refine ⟨hnone, _, by rw [hset, Table.get_set_self], ?_⟩
    cases hissues
    rcases le_total c.actorUid b with hle | hle <;> simp [hle]

end deeds

variable {d : Db} {s : ServiceStore}

/-- Every version of a run changes only what belongs to the actor of the command that made it. -/
theorem changes_attributed (hrun : Serves d s) {t : ℕ} {u v : Version Db Key}
    (hu : s.versions[t]? = some u) (hv : s.versions[t + 1]? = some v) :
    ∃ σ ∈ s.sessions, σ.began ≤ t ∧ Attributed s.versions σ.op u.db v.db := by
  obtain ⟨σ, hσ, hbegan, o, ws, hissues, hdeed, hdb, -⟩ := hrun.maker hu hv
  exact ⟨σ, hσ, hbegan, hdb ▸ hdeed.attributed hissues⟩

/-- A message of a run was there from the start, or its sender asked for it. -/
theorem messages_authored (hrun : Serves d s) {j : ℕ} {v : Version Db Key} (hv : s.versions[j]? = some v)
    {k : ℤ} {m : Message} (hm : v.db.messages.get k = some m) :
    (∃ m₀, d.messages.get k = some m₀ ∧ m₀.Same m) ∨ ∃ σ ∈ s.sessions, σ.op.Authors s.versions m := by
  induction j generalizing v m with
  | zero =>
    cases hrun.first.symm.trans hv
    exact .inl ⟨m, hm, .refl m⟩
  | succ j ih =>
    have hlt : j < s.versions.length := Nat.lt_of_succ_lt (List.getElem?_eq_some_iff.1 hv).1
    have hu : s.versions[j]? = some s.versions[j] := List.getElem?_eq_getElem hlt
    obtain ⟨σ, hσ, -, o, ws, hissues, hdeed, hdb, -⟩ := hrun.maker hu hv
    rw [hdb] at hm
    rcases hdeed.message_origin hm with ⟨m₁, hm₁, hsame⟩ | ⟨hsends, -⟩
    · refine (ih hu hm₁).imp (fun h => ?_) fun h => ?_
      · obtain ⟨m₀, hm₀, hsame₀⟩ := h
        exact ⟨m₀, hm₀, hsame₀.trans hsame⟩
      · rw [← hsame]
        exact h
    · exact .inr ⟨σ, hσ, hissues.authors hsends⟩

omit [Collation]

set_option maxRecDepth 4000 in
theorem greeted : ∃ (s : ServiceStore) (u v : Version Db Key) (m : Message),
    @Serves .binary friendsStore s ∧ s.versions[0]? = some u ∧ s.versions[1]? = some v ∧
      v.db.messages.get 1 = some m :=
  ⟨_, _, _, _, ⟨[.begin greeting, .act 0 1, .act 0 0, .act 0 0, .act 0 0, .act 0 0, .act 0 0, .act 0 0,
    .act 0 0, .act 0 1, .act 0 0], rfl⟩, rfl, rfl, rfl⟩

theorem changes_attributed_greeting : ∃ (s : ServiceStore) (u v : Version Db Key),
    @Serves .binary friendsStore s ∧ (v.db.messages.get 1).isSome ∧
      ∃ σ ∈ s.sessions, σ.began ≤ 0 ∧ @Attributed .binary s.versions σ.op u.db v.db := by
  obtain ⟨s, u, v, m, hrun, hu, hv, hm⟩ := greeted
  exact ⟨s, u, v, hrun, by simp [hm], @changes_attributed .binary _ s hrun 0 u v hu hv⟩

theorem messages_authored_greeting : ∃ (s : ServiceStore) (m : Message),
    @Serves .binary friendsStore s ∧
      ((∃ m₀, friendsStore.messages.get 1 = some m₀ ∧ m₀.Same m) ∨
        ∃ σ ∈ s.sessions, @Command.Authors .binary s.versions σ.op m) := by
  obtain ⟨s, u, v, m, hrun, hu, hv, hm⟩ := greeted
  exact ⟨s, m, hrun, @messages_authored .binary _ s hrun 1 v hv 1 m hm⟩

end Imm
