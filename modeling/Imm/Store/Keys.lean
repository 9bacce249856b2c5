import Imm.Schemes.Paths
import Imm.Store.Lasting

/-! Idempotency keys. The duplicate lookup and the unique key compare client ids with the collation of
    the schema, so two ids that differ as texts can name one key: then the second command is answered
    with the first one's message, and its own is never stored. As long as no sender uses two ids of
    one weight, the lookup finds only what the very same id has stored. -/

namespace Imm

open Txn SQL MysqlStore

/-- The sender and the client id of a send. -/
def Operation.sendKey : Operation → Option (ℤ × String)
  | .acceptDirectText op => some (op.senderId, op.clientMessageId)
  | .acceptGroupMessage op => some (op.senderId, op.clientMessageId)
  | _ => none

/-- The sender and the client id of a stored message, letter by letter. -/
def Message.sendKey (m : Message) : Option (ℤ × String) := m.clientMessageId.map (m.senderId, ·)

/-- The answer to a send of `u` with the client id `c`. -/
inductive AnsweredAs (σ : Session Db Key Write Reply Operation) : ℤ → String → MessageAcceptResult → Prop
  | direct {op : AcceptDirectText} {r : MessageAcceptResult} (hop : σ.op = .acceptDirectText op)
      (hret : σ.prog = .ret (.accepted r)) : AnsweredAs σ op.senderId op.clientMessageId r
  | group {op : AcceptGroupMessage} {r : GroupMessageAcceptResult} (hop : σ.op = .acceptGroupMessage op)
      (hret : σ.prog = .ret (.groupAccepted r)) :
      AnsweredAs σ op.senderId op.clientMessageId r.toMessageAcceptResult

variable {u : ℤ} {c : String} {m : Message}

theorem AnsweredAs.sendKey {σ : Session Db Key Write Reply Operation}
    {r : MessageAcceptResult} (h : AnsweredAs σ u c r) : σ.op.sendKey = some (u, c) := by
  cases h with
  | direct hop | group hop => rw [hop]; rfl

theorem Message.Same.sendKey {m' : Message} (h : m.Same m') : m'.sendKey = m.sendKey := by
  rw [← h]
  rfl

theorem Operation.Sends.sendKey {o : Operation} (h : o.Sends m) :
    m.sendKey = o.sendKey.map fun key => (key.1, varchar 128 key.2) := by
  cases o with
  | acceptDirectText op | acceptGroupMessage op =>
    obtain ⟨c, seq, rfl⟩ := h
    rfl
  | _ => exact h.elim

/-- The keys in use: of the commands that were begun, and of the messages `d` stores. -/
def Store.usedKeys (d : Db) (s : Store) : List (ℤ × String) :=
  s.sessions.filterMap (·.op.sendKey) ++ d.messages.rows.filterMap (·.2.sendKey)

theorem Store.mem_usedKeys {d : Db} {s : Store} {key : ℤ × String} :
    key ∈ Store.usedKeys d s ↔ (∃ σ ∈ s.sessions, σ.op.sendKey = some key) ∨
      ∃ k m, d.messages.get k = some m ∧ m.sendKey = some key := by
  simp only [Store.usedKeys, List.mem_append, List.mem_filterMap, Prod.exists, Table.mem_rows]

variable [Collation]

theorem Message.clientKey_eq :
    m.clientKey = m.sendKey.map fun key => (key.1, weight key.2) := by
  cases h : m.clientMessageId <;> simp [Message.clientKey, Message.sendKey, h]

/-- Two keys that are one for the database are one. -/
def Apart (key key' : ℤ × String) : Prop :=
  key.1 = key'.1 → weight key.2 = weight key'.2 → key = key'

instance (key key' : ℤ × String) : Decidable (Apart key key') :=
  inferInstanceAs (Decidable (_ → _ → _))

theorem Apart.symm {key key' : ℤ × String} (h : Apart key key') : Apart key' key :=
  fun hu hw => (h hu.symm hw.symm).symm

/-- A new command brings no client id that the collation confuses with another id of its sender. -/
def Separated (s : Store) : Event Operation → Prop
  | .begin o => ∀ key ∈ o.sendKey, ∀ used ∈ Store.usedKeys s.cur.db s, Apart key used
  | _ => True

instance (s : Store) : DecidablePred (Separated s)
  | .begin o => inferInstanceAs (Decidable (∀ key ∈ o.sendKey, _))
  | .act _ _ | .fault _ _ | .orphan _ _ _ => .isTrue trivial

/-- The message has the sender and the client id of a send, letter by letter or, where the id is longer
    than its column, without the spaces the column cuts off. -/
def Message.Carries (m : Message) (u : ℤ) (c : String) : Prop :=
  m.sendKey = some (u, c) ∨ m.sendKey = some (u, varchar 128 c)

theorem Message.Carries.clientKey (h : m.Carries u c) :
    m.clientKey = some (u, weight c) := by
  rw [Message.clientKey_eq]
  rcases h with h | h <;> simp [h]

/-- No command is taken for another: what the database finds under the key of a send was sent with
    exactly this id; an answer that refers to an earlier command refers to one with this id; and two
    accepted commands with different ids are two stored messages. -/
structure KeysApart (s : Store) : Prop where
  found : ∀ σ ∈ s.sessions, ∀ u c, σ.op.sendKey = some (u, c) → ∀ v ∈ s.versions, ∀ k m,
    v.db.messages.get k = some m → m.clientKey = some (u, weight c) → m.Carries u c
  refers : ∀ σ ∈ s.sessions, ∀ u c r, AnsweredAs σ u c r →
    r.duplicate = true ∨ r.error = .IdempotencyConflict → ∃ v ∈ s.versions, ∃ k m,
      v.db.messages.get k = some m ∧ m.Carries u c ∧ (r.duplicate = true → r.messageId = k)
  stored : ∀ σ ∈ s.sessions, ∀ τ ∈ s.sessions, ∀ u c c' r r', AnsweredAs σ u c r → AnsweredAs τ u c' r' →
    c ≠ c' → r.error = .Success → r'.error = .Success → r.messageId ≠ r'.messageId ∧ ∃ m m',
      s.cur.db.messages.get r.messageId = some m ∧ m.Carries u c ∧
      s.cur.db.messages.get r'.messageId = some m' ∧ m'.Carries u c'

section runs

variable {d : Db} {s : Store}

/-- A message of any version was there at the start, or it was sent by one of the commands and its id is
    the command's as the column keeps it. -/
theorem Runs.sendKey_used (hrun : Runs d s) {v : Version Db Key} (hv : v ∈ s.versions) {k : ℤ} {m : Message}
    (hm : v.db.messages.get k = some m) {key : ℤ × String} (hkey : m.sendKey = some key) :
    ∃ used ∈ Store.usedKeys d s, key = used ∨ key = (used.1, varchar 128 used.2) := by
  have hhist := hrun.history_of (A := fun o => ∃ σ ∈ s.sessions, σ.op = o) fun σ hσ => ⟨σ, hσ, rfl⟩
  obtain ⟨j, hj⟩ := List.getElem?_of_mem hv
  refine hhist.invariant (P := fun db => ∀ k m key, db.messages.get k = some m → m.sendKey = some key →
    ∃ used ∈ Store.usedKeys d s, key = used ∨ key = (used.1, varchar 128 used.2)) ?_ ?_ j v hj k m key hm hkey
  · intro v hv k m key hm hkey
    cases hrun.first.symm.trans hv
    exact ⟨key, Store.mem_usedKeys.2 (.inr ⟨k, m, hm, hkey⟩), .inl rfl⟩
  · rintro j v v' o ws hv - hpast ⟨σ, hσ, rfl⟩ hdeed k m key hm hkey
    rcases hdeed.message_origin hm with ⟨m₀, hm₀, hsame⟩ | ⟨hsends, -⟩
    · exact hpast j v (Nat.le_refl j) hv k m₀ key hm₀ (hsame.sendKey ▸ hkey)
    obtain ⟨used, hused, rfl⟩ := Option.map_eq_some_iff.1 (hsends.sendKey.symm.trans hkey)
    exact ⟨used, Store.mem_usedKeys.2 (.inl ⟨σ, hσ, hused⟩), .inr rfl⟩

theorem Runs.answered (hrun : Runs d s) {σ : Session Db Key Write Reply Operation} (hσ : σ ∈ s.sessions)
    {u : ℤ} {c : String} {r : MessageAcceptResult} (h : AnsweredAs σ u c r) : Refers s.versions u c r ∧
      (r.error = .Success → ∃ (j : ℕ) (v : Version Db Key) (m : Message), s.versions[j]? = some v ∧
        v.db.messages.get r.messageId = some m ∧ m.clientKey = some (u, weight c)) := by
  cases h with
  | direct hop hret =>
    have hans := hrun.coherent.answer hσ hret
    rw [hop] at hans
    refine ⟨hans.2, fun hok => ?_⟩
    obtain ⟨j, v, m, hv, hm, hkey, -⟩ := hans.1 hok
    exact ⟨j, v, m, hv, hm, hkey⟩
  | group hop hret =>
    have hans := hrun.coherent.answer hσ hret
    rw [hop] at hans
    refine ⟨hans.2, fun hok => ?_⟩
    obtain ⟨⟨j, v, m, hv, hm, hkey, -⟩, -⟩ := hans.1 hok
    exact ⟨j, v, m, hv, hm, hkey⟩

/-- The keys of the commands are apart from all keys in use. -/
def Unmixed (d : Db) (s : Store) : Prop :=
  ∀ σ ∈ s.sessions, ∀ key, σ.op.sendKey = some key → ∀ used ∈ Store.usedKeys d s, Apart key used

theorem Unmixed.step (hrun : Runs d s) (h : Unmixed d s) {ev : Event Operation} (hok : Separated s ev)
    {s' : Store} (hstep : s.step execute ev = some s') : Unmixed d s' := by
  have hops := (Sys.sessions_step hstep).1
  -- a key in use after the step is one from before, or the key of the new command
  have hused : ∀ {used}, used ∈ Store.usedKeys d s' → used ∈ Store.usedKeys d s ∨
      ∃ o, ev = .begin o ∧ o.sendKey = some used := by
    intro used hmem
    rcases Store.mem_usedKeys.1 hmem with ⟨τ, hτ, hkey⟩ | hstored
    · rcases hops τ hτ with ⟨ρ, hρ, hop, -⟩ | ⟨rfl, -⟩
      · exact .inl (Store.mem_usedKeys.2 (.inl ⟨ρ, hρ, hop ▸ hkey⟩))
      · exact .inr ⟨_, rfl, hkey⟩
    · exact .inl (Store.mem_usedKeys.2 (.inr hstored))
  -- the guard looks at the current rows, where every message of the first version still is
  have hnow : ∀ {used}, used ∈ Store.usedKeys d s → used ∈ Store.usedKeys s.cur.db s := by
    intro used hmem
    rcases Store.mem_usedKeys.1 hmem with hbegun | ⟨k, m, hm, hkey⟩
    · exact Store.mem_usedKeys.2 (.inl hbegun)
    obtain ⟨m', hm', hsame⟩ := hrun.history.message (Nat.zero_le s.now) hrun.first
      (show s.versions[s.now]? = some s.cur by simp [Sys.versions, Sys.now]) hm
    exact Store.mem_usedKeys.2 (.inr ⟨k, m', hm', hsame.sendKey.trans hkey⟩)
  intro σ hσ key hkey used hmem
  rcases hops σ hσ with ⟨ρ, hρ, hop, -⟩ | ⟨rfl, -⟩
  · rw [hop] at hkey
    rcases hused hmem with hold | ⟨o, rfl, hnew⟩
    · exact h ρ hρ key hkey used hold
    · exact (hok used hnew key (hnow (Store.mem_usedKeys.2 (.inl ⟨ρ, hρ, hkey⟩)))).symm
  · rcases hused hmem with hold | ⟨o, ho, hnew⟩
    · exact hok key hkey used (hnow hold)
    obtain rfl := Event.begin.inj ho
    exact fun _ _ => Option.some.inj (hkey.symm.trans hnew)

theorem Unmixed.keysApart (hrun : Runs d s) (h : Unmixed d s) : KeysApart s := by
  have hfound : ∀ σ ∈ s.sessions, ∀ u c, σ.op.sendKey = some (u, c) → ∀ v ∈ s.versions, ∀ k m,
      v.db.messages.get k = some m → m.clientKey = some (u, weight c) → m.Carries u c := by
    intro σ hσ u c hsend v hv k m hm hkey
    obtain ⟨key, hsent, hweight⟩ := Option.map_eq_some_iff.1 (Message.clientKey_eq.symm.trans hkey)
    obtain ⟨hu, hc⟩ := Prod.mk.inj hweight
    obtain ⟨used, hused, rfl | rfl⟩ := hrun.sendKey_used hv hm hsent
    · exact .inl (hsent.trans (h σ hσ (u, c) hsend _ hused hu.symm hc.symm ▸ rfl))
    obtain rfl := h σ hσ (u, c) hsend used hused hu.symm (by simpa using hc.symm)
    exact .inr hsent
  -- an accepted command's message, as it is now
  have hnow : ∀ σ ∈ s.sessions, ∀ u c r, AnsweredAs σ u c r → r.error = .Success →
      ∃ m, s.cur.db.messages.get r.messageId = some m ∧ m.Carries u c := by
    intro σ hσ u c r hans hok
    obtain ⟨j, v, m, hv, hm, hkey⟩ := (hrun.answered hσ hans).2 hok
    have hlast : j ≤ s.now := Nat.le_of_lt_succ (by
      simpa [Sys.versions, Sys.now] using (List.getElem?_eq_some_iff.1 hv).1)
    obtain ⟨m', hm', hsame⟩ := hrun.history.message hlast hv
      (show s.versions[s.now]? = some s.cur by simp [Sys.versions, Sys.now]) hm
    refine ⟨m', hm', ?_⟩
    rw [Message.Carries, hsame.sendKey]
    exact hfound σ hσ u c hans.sendKey v (List.mem_of_getElem? hv) _ m hm hkey
  refine ⟨hfound, fun σ hσ u c r hans hrefers => ?_, fun σ hσ τ hτ u c c' r r' hans hans' hne hok hok' => ?_⟩
  · obtain ⟨v, hv, k, m, hm, hkey, hid⟩ := (hrun.answered hσ hans).1 hrefers
    exact ⟨v, hv, k, m, hm, hfound σ hσ u c hans.sendKey v hv k m hm hkey, hid⟩
  · obtain ⟨m, hm, hsend⟩ := hnow σ hσ u c r hans hok
    obtain ⟨m', hm', hsend'⟩ := hnow τ hτ u c' r' hans' hok'
    refine ⟨fun hid => hne ?_, m, m', hm, hsend, hm', hsend'⟩
    rw [hid, hm', Option.some.injEq] at hm
    subst hm
    -- one message would carry two ids of one weight
    have hweight := hsend.clientKey.symm.trans hsend'.clientKey
    have hused : (u, c') ∈ Store.usedKeys d s := Store.mem_usedKeys.2 (.inl ⟨τ, hτ, hans'.sendKey⟩)
    exact congrArg Prod.snd (h σ hσ (u, c) hans.sendKey (u, c') hused rfl (by simpa using hweight))

end runs

/-- While every sender's client ids are told apart by the collation, no command is taken for another. -/
theorem keys_apart {d : Db} {s : Store} (h : Steps.Path (Sys.step execute) Separated (Sys.init d) s) :
    KeysApart s := by
  have hunmixed : Unmixed d s := by
    refine h.invariant (fun σ hσ => by cases hσ) fun s ev s' hpath hs hok hstep => ?_
    exact hs.step hpath.events hok hstep
  exact hunmixed.keysApart h.events

omit [Collation]

def sayHello (clientMessageId : String) : AcceptDirectText := {
  senderId := 1, receiverId := 2, clientMessageId, content := "hello", sendDateTime := "" }

/-- One friend says hello twice, the second time once the first message is stored. -/
def helloTwice (c c' : String) : List (Event Operation) :=
  [.begin (.acceptDirectText (sayHello c)), .act 0 0, .act 0 0, .act 0 0, .act 0 0, .act 0 0, .act 0 0,
    .act 0 1, .act 0 0, .begin (.acceptDirectText (sayHello c')), .act 1 0, .act 1 0, .act 1 0, .act 1 0,
    .act 1 0, .act 1 0, .act 1 2, .act 1 0]

/-- The answer of a direct send, with its key. -/
def sendAnswer (σ : Session Db Key Write Reply Operation) : Option (ℤ × String × MessageAcceptResult) :=
  match σ.op, σ.prog with
  | .acceptDirectText op, .ret (.accepted r) => some (op.senderId, op.clientMessageId, r)
  | _, _ => none

theorem sendAnswer_eq_some {σ : Session Db Key Write Reply Operation}
    {r : MessageAcceptResult} (h : sendAnswer σ = some (u, c, r)) : AnsweredAs σ u c r := by
  unfold sendAnswer at h
  split at h
  · rename_i op r' hop hret
    cases h
    exact .direct hop hret
  · cases h

def acceptedAs (messageId : ℤ) (seq : ℕ) (duplicate : Bool) : MessageAcceptResult := {
  error := .Success, duplicate, messageId, conversationId := 5, conversationSeq := seq }

/-- The ids "a" and "b" are two messages. -/
theorem keys_apart_hello_twice :
    let _ := Collation.ascii
    ∃ s : Store, Steps.Path (Sys.step execute) Separated (Sys.init friendsStore) s ∧
      s.sessions.map sendAnswer = [some (1, "a", acceptedAs 1 1 false), some (1, "b", acceptedAs 2 2 false)] ∧
      KeysApart s := by
  let _ := Collation.ascii
  have heval : ((helloTwice "a" "b").foldlM
      (fun s ev => if decide (Separated s ev) then s.step execute ev else none)
      (Sys.init friendsStore : Store)).map (fun s => s.sessions.map sendAnswer) =
      some [some (1, "a", acceptedAs 1 1 false), some (1, "b", acceptedAs 2 2 false)] := by
    decide +kernel
  obtain ⟨s, hrun, hanswers⟩ := Option.map_eq_some_iff.1 heval
  have hpath : Steps.Path (Sys.step execute) Separated (Sys.init friendsStore) s :=
    Steps.Path.here.checked (fun _ _ h => of_decide_eq_true h) hrun
  exact ⟨s, hpath, hanswers, keys_apart hpath⟩

/-- The ids "a" and "A " are one key: the second hello is accepted and never stored. -/
theorem keys_merged :
    let _ := Collation.ascii
    ∃ s : Store, Runs friendsStore s ∧ s.sessions.map sendAnswer =
        [some (1, "a", acceptedAs 1 1 false), some (1, "A ", acceptedAs 1 1 true)] ∧
      s.cur.db.messages.rows.length = 1 ∧ ¬ KeysApart s := by
  let _ := Collation.ascii
  have heval : ((Sys.init friendsStore).run execute ((helloTwice "a" "A ").take 16)).map (fun s : Store =>
      (s.sessions.map sendAnswer, s.cur.db.messages.rows.length)) =
      some ([some (1, "a", acceptedAs 1 1 false), some (1, "A ", acceptedAs 1 1 true)], 1) := by
    decide +kernel
  obtain ⟨s, hrun, hfacts⟩ := Option.map_eq_some_iff.1 heval
  obtain ⟨hanswers, hrows⟩ := Prod.mk.inj hfacts
  refine ⟨s, ⟨_, hrun⟩, hanswers, hrows, fun h => ?_⟩
  obtain ⟨σ, τ, hsessions, hσ, hτ⟩ : ∃ σ τ, s.sessions = [σ, τ] ∧
      sendAnswer σ = some (1, "a", acceptedAs 1 1 false) ∧
      sendAnswer τ = some (1, "A ", acceptedAs 1 1 true) := by
    simpa [List.map_eq_cons_iff] using hanswers
  exact (h.stored σ (by simp [hsessions]) τ (by simp [hsessions]) 1 "a" "A " _ _ (sendAnswer_eq_some hσ)
    (sendAnswer_eq_some hτ) (by decide) rfl rfl).1 rfl

end Imm
