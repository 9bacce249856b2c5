import Imm.Schemes.Logs
import Imm.Store.Runs

/-! Conversation sequences. The conversations and their messages are numbered logs: `latestSeq` is the
    head, `conversationSeq` the number of a message. Every deed is a step of the logs, so the numbers
    of a conversation are always 1, …, latestSeq. -/

namespace Imm

open Txn SQL MysqlStore Table

/-- For each row of `conversations`, the `conversationSeq` values of its messages are exactly
    1, …, latestSeq, each used once. -/
def Db.Gapless (d : Db) : Prop :=
  ∀ c conv, d.conversations.get c = some conv →
    (∀ m row, d.messages.get m = some row → row.conversationId = c →
      1 ≤ row.conversationSeq ∧ row.conversationSeq ≤ conv.latestSeq) ∧
    ∀ q, 1 ≤ q → q ≤ conv.latestSeq →
      ∃! m, ∃ row, d.messages.get m = some row ∧ row.conversationId = c ∧ row.conversationSeq = q

/-- Every message belongs to a row of `conversations`. -/
def Db.Attached (d : Db) : Prop :=
  ∀ m row, d.messages.get m = some row → (d.conversations.get row.conversationId).isSome

def Db.logs (d : Db) : Logs ℤ ℤ where
  head c := (d.conversations.get c).map Conversation.latestSeq
  entry m := (d.messages.get m).map fun row => (row.conversationId, row.conversationSeq)

theorem Db.logs_entry {d : Db} {m c : ℤ} {q : ℕ} : d.logs.entry m = some (c, q) ↔
    ∃ row, d.messages.get m = some row ∧ row.conversationId = c ∧ row.conversationSeq = q := by
  simp [logs]

theorem Db.gapless_iff {d : Db} : d.Gapless ↔ d.logs.Gapless := by
  simp only [Gapless, Logs.Gapless, logs_entry]
  constructor
  · intro h c n hn
    obtain ⟨conv, hconv, rfl⟩ := Option.map_eq_some_iff.1 hn
    refine ⟨?_, (h c conv hconv).2⟩
    rintro m q ⟨row, hm, hc, rfl⟩
    exact (h c conv hconv).1 m row hm hc
  · intro h c conv hconv
    obtain ⟨hin, hall⟩ := h c conv.latestSeq (by simp [logs, hconv])
    exact ⟨fun m row hm hc => hin m _ ⟨row, hm, hc, rfl⟩, hall⟩

theorem Db.attached_iff {d : Db} : d.Attached ↔ d.logs.Attached := by
  simp only [Attached, Logs.Attached, logs_entry]
  constructor
  · rintro h m c q ⟨row, hm, rfl, rfl⟩
    simpa [logs] using h m row hm
  · intro h m row hm
    simpa [logs] using h m row.conversationId _ ⟨row, hm, rfl, rfl⟩

/-! ### Deeds are log steps -/

section steps

variable {d d' : Db}

theorem logs_congr (hc : d'.conversations = d.conversations) (hm : d'.messages = d.messages) :
    d'.logs = d.logs := by
  simp only [Db.logs, hc, hm]

theorem logs_opened {c : ℤ} {conv : Conversation} (hnew : d.conversations.get c = none)
    (hseq : conv.latestSeq = 0) (hc : d'.conversations = d.conversations.set c (some conv))
    (hm : d'.messages = d.messages) : d.logs.Step d'.logs := by
  have heq : d'.logs = { d.logs with head := Function.update d.logs.head c (some 0) } := by
    simp only [Db.logs, hc, hm, Logs.mk.injEq, and_true]
    funext c'
    by_cases hcc : c' = c <;> simp [get_set, hcc, hseq]
  rw [heq]
  exact .opened (by simp [Db.logs, hnew])

theorem logs_appended {c m : ℤ} {conv : Conversation} {row : Message}
    (hconv : d.conversations.get c = some conv) (hid : d.messages.get m = none)
    (hc : d'.conversations = d.conversations.set c (some { conv with latestSeq := conv.latestSeq + 1 }))
    (hm : d'.messages = d.messages.set m (some row)) (hrow : row.conversationId = c)
    (hseq : row.conversationSeq = conv.latestSeq + 1) : d.logs.Step d'.logs := by
  have heq : d'.logs = ⟨Function.update d.logs.head c (some (conv.latestSeq + 1)),
      Function.update d.logs.entry m (some (c, conv.latestSeq + 1))⟩ := by
    simp only [Db.logs, hc, hm, Logs.mk.injEq]
    constructor
    · funext c'
      by_cases hcc : c' = c <;> simp [get_set, hcc]
    · funext m'
      by_cases hmm : m' = m <;> simp [get_set, hmm, hrow, hseq]
  rw [heq]
  exact .appended (by simp [Db.logs, hconv]) (by simp [Db.logs, hid])

theorem logs_received {m : ℤ} {row row' : Message} (hget : d.messages.get m = some row)
    (hc : d'.conversations = d.conversations) (hm : d'.messages = d.messages.set m (some row'))
    (hconv : row'.conversationId = row.conversationId)
    (hseq : row'.conversationSeq = row.conversationSeq) : d'.logs = d.logs := by
  simp only [Db.logs, hc, hm, Logs.mk.injEq, true_and]
  funext m'
  by_cases hmm : m' = m <;> simp [get_set, hmm, hget, hconv, hseq]

end steps

variable [Collation]

theorem Joins.untouched {d d' : Db} {c : ℤ} {ws : List Write} (h : Joins d c ws) {β : Type} (f : Db → β)
    (hf : (fun u d => f ((joinedAtOne c u).apply d)) = fun _ => f) : f (applyAll ws d') = f d' :=
  applyAll_untouched f fun w hw d => by
    obtain ⟨u, rfl, -⟩ := h w hw
    exact congrFun (congrFun hf u) d

theorem Joins.rest {d d' : Db} {c : ℤ} {ws : List Write} (h : Joins d c ws) :
    (applyAll ws d').conversations = d'.conversations ∧ (applyAll ws d').messages = d'.messages :=
  ⟨h.untouched Db.conversations rfl, h.untouched Db.messages rfl⟩

section dissolved

variable {d : Db} {g : ℤ} {ss as ms : List (ℤ × ℤ)}

theorem dissolved_rest {β : Type} (f : Db → β)
    (hs : (fun k d => f ((Write.conversationUserStates k none).apply d)) = fun _ => f)
    (ha : (fun k d => f ((Write.groupApplys k none).apply d)) = fun _ => f)
    (hm : (fun k d => f ((Write.groupMembers k none).apply d)) = fun _ => f)
    (hg : (fun d => f ((Write.groupInfo g none).apply d)) = f) :
    f (applyAll (dissolved g ss as ms) d) = f d := by
  simp only [dissolved, applyAll_append, applyAll_cons, applyAll_nil]
  exact (congrFun hg _).trans ((applyAll_map f _ _ hm).trans
    ((applyAll_map f _ _ ha).trans (applyAll_map f _ _ hs)))

theorem deleted {ρ : Type} (f : Db → Table (ℤ × ℤ) ρ) {w : ℤ × ℤ → Write}
    (hw : ∀ k d, f ((w k).apply d) = (f d).set k none) (ks : List (ℤ × ℤ)) (k : ℤ × ℤ) : ∀ d : Db,
    (f (applyAll (ks.map w) d)).get k = if k ∈ ks then none else (f d).get k := by
  induction ks with
  | nil => exact fun _ => rfl
  | cons k' ks ih =>
    intro d
    rw [List.map_cons, applyAll_cons, ih, rows_apply, hw, get_set]
    by_cases hk : k = k' <;> by_cases hks : k ∈ ks <;> simp [hk, hks]

theorem dissolved_userStates (k : ℤ × ℤ) :
    (applyAll (dissolved g ss as ms) d).conversationUserStates.get k =
      if k ∈ ss then none else d.conversationUserStates.get k := by
  simp only [dissolved, applyAll_append, applyAll_cons, applyAll_nil]
  refine (congrArg (Table.get · k) ((applyAll_map Db.conversationUserStates ms _ rfl).trans
      (applyAll_map Db.conversationUserStates as _ rfl))).trans ?_
  exact deleted Db.conversationUserStates (fun _ _ => rfl) ss k d

theorem dissolved_groupApplys (k : ℤ × ℤ) :
    (applyAll (dissolved g ss as ms) d).groupApplys.get k =
      if k ∈ as then none else d.groupApplys.get k := by
  simp only [dissolved, applyAll_append, applyAll_cons, applyAll_nil]
  refine (congrArg (Table.get · k) (applyAll_map Db.groupApplys ms _ rfl)).trans ?_
  rw [deleted Db.groupApplys (fun _ _ => rfl) as k]
  rw [applyAll_map Db.groupApplys ss _ rfl]

theorem dissolved_groupMembers (k : ℤ × ℤ) :
    (applyAll (dissolved g ss as ms) d).groupMembers.get k =
      if k ∈ ms then none else d.groupMembers.get k := by
  simp only [dissolved, applyAll_append, applyAll_cons, applyAll_nil]
  refine (deleted Db.groupMembers (fun _ _ => rfl) ms k _).trans ?_
  rw [applyAll_map Db.groupMembers as _ rfl, applyAll_map Db.groupMembers ss _ rfl]

theorem dissolved_groupInfo :
    (applyAll (dissolved g ss as ms) d).groupInfo = d.groupInfo.set g none := by
  simp only [dissolved, applyAll_append, applyAll_cons, applyAll_nil]
  exact congrArg (Table.set · g none) ((applyAll_map Db.groupInfo ms _ rfl).trans
    ((applyAll_map Db.groupInfo as _ rfl).trans (applyAll_map Db.groupInfo ss _ rfl)))

end dissolved

theorem Deed.logs_step {V : Versions} {t : ℕ} {d : Db} {ls : List (Lock Key)} {o : Operation}
    {ws : List Write} (h : Deed V t d ls o ws) : d.logs.Step (applyAll ws d).logs := by
  have same : ∀ {d' : Db}, d'.logs = d.logs → d.logs.Step d'.logs := fun h => h ▸ .same
  cases h with
  | idle | apply _ _ | answer _ _ | upload | reupload | progress | profile | requestJoin | reject | welcome
  | welcomeBare =>
    exact same (logs_congr rfl rfl)
  | befriend _ hconv _ _ => exact logs_opened hconv rfl rfl rfl
  | found _ _ hconv _ _ _ => exact logs_opened hconv rfl rfl rfl
  | unfriend =>
    exact same (logs_congr (applyAll_map Db.conversations _ _ rfl) (applyAll_map Db.messages _ _ rfl))
  | @sendDirect op c m conv joins _ _ _ hjoins hconv hid _ =>
    have hseq : (op.stored c (conv.latestSeq + 1)).conversationSeq = conv.latestSeq + 1 := rfl
    refine logs_appended hconv hid ?_ ?_ rfl hseq
    · simp [applyAll_append, hjoins.rest.1]
    · simp [applyAll_append, hjoins.rest.2]
  | joinDirect _ _ hjoins => exact same (logs_congr hjoins.rest.1 hjoins.rest.2)
  | sendGroup _ _ _ hconv hid _ => exact logs_appended hconv hid rfl rfl rfl rfl
  | receive hmessage _ hreceipt _ =>
    rcases hreceipt with rfl | rfl
    · exact same (logs_congr rfl rfl)
    · exact same (logs_received hmessage rfl rfl rfl rfl)
  | leave _ _ _ _ _ _ hstates =>
    rcases hstates with rfl | ⟨rfl, -⟩ <;> exact same (logs_congr rfl rfl)
  | dissolve =>
    exact same (logs_congr (dissolved_rest Db.conversations rfl rfl rfl rfl)
      (dissolved_rest Db.messages rfl rfl rfl rfl))

theorem History.gapless {A : Operation → Prop} {V : Versions} (h : History A V)
    (hinit : ∀ v, V[0]? = some v → v.db.Gapless ∧ v.db.Attached) {j : ℕ} {v : Version Db Key}
    (hv : V[j]? = some v) : v.db.Gapless ∧ v.db.Attached := by
  refine h.invariant (P := fun d => d.Gapless ∧ d.Attached) hinit ?_ j v hv
  intro j u u' o ws hu hu' hpast _ hdeed
  obtain ⟨hg, ha⟩ := hpast j u (Nat.le_refl j) hu
  rw [Db.gapless_iff, Db.attached_iff] at *
  exact ⟨hdeed.logs_step.gapless ha hg, hdeed.logs_step.attached ha⟩

theorem Runs.gapless {d : Db} {s : Store} (hrun : Runs d s) (hgapless : d.Gapless)
    (hattached : d.Attached) {j : ℕ} {v : Version Db Key} (hv : s.versions[j]? = some v) :
    v.db.Gapless ∧ v.db.Attached := by
  refine hrun.history.gapless (fun u hu => ?_) hv
  cases hrun.first.symm.trans hu
  exact ⟨hgapless, hattached⟩

/-- Every version of a run from a gapless store without stray messages is gapless. -/
theorem gapless_of_runs {d : Db} {s : Store} (hrun : Runs d s) (hgapless : d.Gapless)
    (hattached : d.Attached) {v : Version Db Key} (hv : v ∈ s.versions) :
    v.db.Gapless ∧ v.db.Attached := by
  obtain ⟨j, hj⟩ := List.getElem?_of_mem hv
  exact hrun.gapless hgapless hattached hj

omit [Collation]

/-- Two friends with an open conversation. -/
def friendsStore : Db where
  friends := .ofList [(7, { uidA := 1, uidB := 2, createTime := "" })]
  conversations := .ofList [(5, { type := .direct, businessId := 7, latestSeq := 0, createTime := "" })]
  conversationUserStates := .ofList [((5, 1), { joinedSeq := 1 }), ((5, 2), { joinedSeq := 1 })]

/-- A first message in an open conversation. -/
theorem gapless_of_first_message : ∃ s : Store, @Runs Collation.binary friendsStore s ∧
    s.cur.db.conversations.get 5 = some ⟨.direct, 7, 1, ""⟩ ∧ s.cur.db.Gapless := by
  let op : AcceptDirectText := {
    senderId := 1, receiverId := 2, clientMessageId := "a", content := "hi", sendDateTime := "" }
  let evs : List (Event Operation) := [.begin (.acceptDirectText op), .act 0 0, .act 0 0, .act 0 0,
    .act 0 0, .act 0 0, .act 0 0, .act 0 1, .act 0 0]
  have hrun : let _ := Collation.binary
      ∃ s : Store, (Sys.init friendsStore).run execute evs = some s ∧
        s.cur.db.conversations.get 5 = some ⟨.direct, 7, 1, ""⟩ := by
    refine Option.map_eq_some_iff.1 (show Option.map (fun s : Store => s.cur.db.conversations.get 5) _ = _ from ?_)
    decide +kernel
  obtain ⟨s, hrun, hconv⟩ := hrun
  have hrun : @Runs .binary friendsStore s := ⟨evs, hrun⟩
  have hmessage : ∀ m, friendsStore.messages.get m = none := fun _ => rfl
  refine ⟨s, hrun, hconv, (@gapless_of_runs .binary friendsStore s hrun ?_ ?_ s.cur ?_).1⟩
  · intro c conv h
    obtain ⟨rfl, rfl⟩ : c = 5 ∧ ⟨.direct, 7, 0, ""⟩ = conv := by
      simpa [friendsStore, Table.ofList, get_set] using h
    exact ⟨by simp [hmessage], fun q h1 h0 => absurd h1 (by simpa using h0)⟩
  · simp [Db.Attached, hmessage]
  · simp [Sys.versions]

/-- A message of a conversation that is not there. -/
def strayMessage : Db where
  messages := .ofList [(1, {
    senderId := 1, receiverId := 2, conversationId := 5, conversationSeq := 1, clientMessageId := none,
    type := .TEXT, content := "", status := .WAIT, sendDateTime := "", readDateTime := "" })]

/-- Gaplessness alone is not kept: a new conversation may get the id that a stray message names. -/
theorem gapless_not_kept : strayMessage.Gapless ∧
    ∃ s : Store, @Runs .binary strayMessage s ∧ ¬ s.cur.db.Gapless := by
  refine ⟨fun c conv h => (by cases h), _, ⟨[.begin (.insertFriend 7 5 1 2 ""), .act 0 0, .act 0 0,
    .act 0 0, .act 0 0, .act 0 0], rfl⟩, fun h => ?_⟩
  have := ((h 5 ⟨.direct, 7, 0, ""⟩ rfl).1 1 _ rfl rfl).2
  exact absurd this (by decide)

end Imm
