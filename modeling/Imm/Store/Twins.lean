import Imm.Schemes.Brief
import Imm.Store.Alone
import Imm.Store.Keys

/-! One message sent twice at the same time.

    The second of two identical sends should find the message of the first. A group send locks the group
    before its first plain read, so one of the two reads after the other has committed. A direct send
    reads first: its snapshot may be older than the commit of the other, whose message it then does not
    see, and its INSERT fails on the unique key. As long as no direct send takes its snapshot while the
    other one holds one, the two run one after the other, and both are answered with the one message. -/

namespace Imm

open Txn SQL MysqlStore Steps List Option Table

variable [Collation]

/-! ### Twins -/

/-- What makes two direct sends the same; the time may differ. -/
def AcceptDirectText.command (op : AcceptDirectText) : ℤ × ℤ × String × MessageType × String :=
  (op.senderId, op.receiverId, op.clientMessageId, op.messageType, op.content)

def AcceptGroupMessage.command (op : AcceptGroupMessage) : ℤ × ℤ × String × MessageType × String :=
  (op.senderId, op.groupId, op.clientMessageId, op.messageType, op.content)

inductive Twins : Operation → Operation → Prop
  | direct {op op' : AcceptDirectText} (hsame : op.command = op'.command) :
      Twins (.acceptDirectText op) (.acceptDirectText op')
  | group {op op' : AcceptGroupMessage} (hsame : op.command = op'.command) :
      Twins (.acceptGroupMessage op) (.acceptGroupMessage op')

omit [Collation] in
theorem Twins.symm {o o' : Operation} (h : Twins o o') : Twins o' o := by
  cases h with
  | direct hsame => exact .direct hsame.symm
  | group hsame => exact .group hsame.symm

omit [Collation] in
theorem Twins.refl {o o' : Operation} (h : Twins o o') : Twins o o := by
  cases h with
  | direct => exact .direct rfl
  | group => exact .group rfl

/-- The ids are in range and the texts fit their columns. -/
structure Message.Fits (m : Message) : Prop where
  sender : 0 ≤ m.senderId
  receiver : 0 ≤ m.receiverId
  client : (m.clientMessageId.getD "").length ≤ 128
  content : m.content.utf8ByteSize ≤ 65535

omit [Collation] in
theorem Message.Fits.textsFit {m : Message} {key : String} (h : m.Fits) (hkey : m.clientMessageId = some key) :
    TextsFit key m.content := by
  have hclient : key.length ≤ 128 := by simpa [hkey] using h.client
  rw [TextsFit, text_fits h.content, varchar_fits hclient]
  exact ⟨hclient, h.content⟩

/-- The send is accepted as a new message of the rows `d`. -/
inductive Accepting (d : Db) : Operation → Prop
  | direct {op : AcceptDirectText} {c : ℤ} (hfits : ∀ c seq, (op.message c seq).Fits)
      (hfriends : friendConversation (min op.senderId op.receiverId) (max op.senderId op.receiverId) d = some c)
      (hnew : duplicateMessage op.senderId op.clientMessageId d = none) : Accepting d (.acceptDirectText op)
  | group {op : AcceptGroupMessage} {c : ℤ} (hfits : ∀ c seq, (op.message c seq).Fits) (hopen : op.Open d c)
      (hnew : duplicateMessage op.senderId op.clientMessageId d = none) : Accepting d (.acceptGroupMessage op)

/-- The keys of `conversations` are kept, its ids and numbers are in order, and every group has its
    conversation. -/
structure Db.Regular (d : Db) : Prop extends d.Numbered where
  unique : ∀ c c' r r', d.conversations.get c = some r → d.conversations.get c' = some r' →
    r.type = r'.type → r.businessId = r'.businessId → c = c'
  rooms : ∀ g gi, d.groupInfo.get g = some gi → (d.conversations.get gi.conversationId).isSome

/-! ### What the first one leaves -/

/-- `d` with the message `m` under the id `n`, as the next one of its conversation. -/
structure Db.Extended (d d' : Db) (c : ℤ) (conv : Conversation) (n : ℕ) (m : Message) : Prop where
  conversation : d.conversations.get c = some conv
  number : m.conversationId = c ∧ m.conversationSeq = conv.latestSeq + 1
  conversations : d'.conversations = d.conversations.set c (some { conv with latestSeq := conv.latestSeq + 1 })
  messages : d'.messages = d.messages.set n (some m)
  friends : d'.friends = d.friends
  groupInfo : d'.groupInfo = d.groupInfo
  groupMembers : d'.groupMembers = d.groupMembers
  fileObjects : d'.fileObjects = d.fileObjects

section extended

variable {d d' : Db} {c : ℤ} {conv : Conversation} {n : ℕ} {m : Message}

omit [Collation] in
theorem Db.Extended.get (h : d.Extended d' c conv n m) {k : ℤ} {r' : Conversation}
    (hr' : d'.conversations.get k = some r') : ∃ r, d.conversations.get k = some r ∧ r.type = r'.type ∧
      r.businessId = r'.businessId ∧ r.latestSeq ≤ r'.latestSeq ∧
      (k = c → r'.latestSeq = conv.latestSeq + 1) := by
  rw [h.conversations, get_set] at hr'
  split at hr'
  · rename_i hk
    cases hr'
    exact ⟨conv, hk ▸ h.conversation, rfl, rfl, Nat.le_succ _, fun _ => rfl⟩
  rename_i hk
  exact ⟨r', hr', rfl, rfl, Nat.le_refl _, fun e => absurd e hk⟩

omit [Collation] in
theorem Db.Extended.isSome (h : d.Extended d' c conv n m) (k : ℤ) :
    (d'.conversations.get k).isSome = (d.conversations.get k).isSome := by
  rw [h.conversations, get_set]
  split
  · rename_i hk
    simp [hk, h.conversation]
  · rfl

omit [Collation] in
theorem Db.Extended.regular (h : d.Extended d' c conv n m) (hd : d.Regular) : d'.Regular where
  conversation k r' hr' := by
    obtain ⟨r, hr, -⟩ := h.get hr'
    exact hd.conversation k r hr
  latest k r' mid row hr' hrow hk := by
    obtain ⟨r, hr, -, -, hle, hc⟩ := h.get hr'
    rw [h.messages, get_set] at hrow
    split at hrow
    · cases hrow
      rw [hc (hk.symm.trans h.number.1), h.number.2]
    · exact (hd.latest k r mid row hr hrow hk).trans hle
  unique k k' r' r'' hr' hr'' htype hbusiness := by
    obtain ⟨r, hr, ht, hb, -⟩ := h.get hr'
    obtain ⟨r₂, hr₂, ht₂, hb₂, -⟩ := h.get hr''
    exact hd.unique k k' r r₂ hr hr₂ (ht.trans (htype.trans ht₂.symm)) (hb.trans (hbusiness.trans hb₂.symm))
  rooms g gi hgi := by
    rw [h.isSome]
    exact hd.rooms g gi (h.groupInfo ▸ hgi)

theorem Db.Extended.stored (h : d.Extended d' c conv n m) {u : ℤ} {k : String} (hu : m.senderId = u)
    (hk : m.clientMessageId = some k) : duplicateMessage u k d' = some ((n : ℤ), m) := by
  rw [duplicateMessage, h.messages, Table.first, rows_set_some]
  exact find?_cons_of_pos (by simp [clientKey_eq hu hk])

omit [Collation] in
theorem Db.Extended.friendConversation (h : d.Extended d' c conv n m) (hd : d.Regular) (a b : ℤ) :
    friendConversation a b d' = friendConversation a b d := by
  have hfirst : ∀ f : ℤ,
      (d'.conversations.first fun _ r => decide (r.type = .direct ∧ r.businessId = f)).map Prod.fst =
        (d.conversations.first fun _ r => decide (r.type = .direct ∧ r.businessId = f)).map Prod.fst := by
    refine fun f => first_key (fun k => ?_) fun k k' r r' hr hp hr' hp' => ?_
    · simp only [decide_eq_true_eq]
      constructor
      · rintro ⟨r', hr', ht, hb⟩
        obtain ⟨r, hr, ht', hb', -⟩ := h.get hr'
        exact ⟨r, hr, ht'.trans ht, hb'.trans hb⟩
      · rintro ⟨r, hr, ht, hb⟩
        obtain ⟨r', hr'⟩ := isSome_iff_exists.1 ((h.isSome k).trans (by rw [hr]; rfl))
        obtain ⟨r₂, hr₂, ht', hb', -⟩ := h.get hr'
        cases hr.symm.trans hr₂
        exact ⟨r', hr', ht'.symm.trans ht, hb'.symm.trans hb⟩
    · simp only [decide_eq_true_eq] at hp hp'
      exact hd.unique k k' r r' hr hr' (hp.1.trans hp'.1.symm) (hp.2.trans hp'.2.symm)
  simp only [SQL.friendConversation, h.friends, map_findSome?]
  congr 1
  funext e
  simp only [Function.comp_apply]
  split
  · exact hfirst e.1
  · rfl

end extended

/-- The message as the store of an accepted send has it, in the conversation the send is for. -/
def Bears (d : Db) (o : Operation) (c : ℤ) (m : Message) : Prop :=
  match o with
  | .acceptDirectText op =>
    friendConversation (min op.senderId op.receiverId) (max op.senderId op.receiverId) d = some c ∧
      ∃ seq time, m = { op.stored c seq with sendDateTime := time }
  | .acceptGroupMessage op =>
    (∃ gi, d.groupInfo.get op.groupId = some gi ∧ gi.conversationId = c) ∧
      ∃ seq time, m = { op.stored c seq with sendDateTime := time }
  | _ => False

/-- The answer of a send that runs alone on `d`, and the rows it leaves. -/
def Yields (d : Db) : Operation → Reply → Db → Prop
  | .acceptDirectText op, .accepted r, d' => SendsDirect op d r d'
  | .acceptGroupMessage op, .groupAccepted r, d' => SendsGroup op d r d'
  | _, _, _ => False

/-- What the answer of a send says of the message. -/
def Reply.message : Reply → Option MessageAcceptResult
  | .accepted r => some r
  | .groupAccepted r => some r.toMessageAcceptResult
  | _ => none

omit [Collation] in
theorem Twins.bears {d : Db} {o o' : Operation} {c : ℤ} {m : Message} (h : Twins o o')
    (hm : Bears d o c m) : Bears d o' c m := by
  cases h with
  | @direct op op' hsame =>
    obtain ⟨u', v', k', text', time', type'⟩ := op'
    obtain ⟨rfl, rfl, rfl, rfl, rfl⟩ := hsame
    exact hm
  | @group op op' hsame =>
    obtain ⟨u', v', k', text', type', time', ready'⟩ := op'
    obtain ⟨rfl, rfl, rfl, rfl, rfl⟩ := hsame
    exact hm

section answers

variable {d D D' : Db} {o : Operation} {a : Reply}

/-- A send that is accepted alone on `d` stores its message. -/
theorem Accepting.first (ho : Accepting d o) (h : Yields d o a D') :
    ∃ c conv n m, d.Extended D' c conv n m ∧ Bears d o c m ∧
      a.message = some (.stored c n m.conversationSeq false) := by
  cases ho with
  | @direct op c hfits hfriends hnew =>
    obtain ⟨r, rfl⟩ : ∃ r, a = .accepted r := by
      cases a <;> first | exact h.elim | exact ⟨_, rfl⟩
    cases (show SendsDirect op d r D' from h) with
    | strangers hnone => cases hfriends.symm.trans hnone
    | conflict hfriends' hstored hother => cases hnew.symm.trans hstored
    | duplicate us hfriends' hstored hsame => cases hnew.symm.trans hstored
    | unfit _ hunfit => exact absurd ((hfits 0 0).textsFit rfl) hunfit.texts
    | @fresh c conv n us hfriends hconv hnew hn =>
      refine ⟨c, conv, n, op.stored c (conv.latestSeq + 1), ?_, ⟨hfriends, _, _, rfl⟩, rfl⟩
      rw [applyAll_append]
      exact {
        conversation := hconv, number := ⟨rfl, rfl⟩
        conversations := by simp [joins_conversations]
        messages := by simp [joins_messages]
        friends := applyAll_map (·.friends) us d rfl
        groupInfo := applyAll_map (·.groupInfo) us d rfl
        groupMembers := applyAll_map (·.groupMembers) us d rfl
        fileObjects := applyAll_map (·.fileObjects) us d rfl }
  | @group op c hfits hopen hnew =>
    obtain ⟨r, rfl⟩ : ∃ r, a = .groupAccepted r := by
      cases a <;> first | exact h.elim | exact ⟨_, rfl⟩
    cases (show SendsGroup op d r D' from h) with
    | refused herror hclosed => exact absurd hopen (hclosed c)
    | conflict herror hopen' hstored hother => cases hnew.symm.trans hstored
    | duplicate uids hopen hstored hsame => cases hnew.symm.trans hstored
    | unfit _ hunfit => exact absurd ((hfits 0 0).textsFit rfl) hunfit.texts
    | @fresh c conv n uids hopen hconv hnew hn =>
      exact ⟨c, conv, n, op.stored c (conv.latestSeq + 1), ⟨hconv, ⟨rfl, rfl⟩, rfl, rfl, rfl, rfl, rfl, rfl⟩,
        ⟨hopen.group, _, _, rfl⟩, rfl⟩

/-- Once the message is there, the send finds it. -/
theorem Accepting.again (ho : Accepting d o) (hd : d.Regular) {c : ℤ} {conv : Conversation} {n : ℕ}
    {m : Message} (hext : d.Extended D c conv n m) (hm : Bears d o c m) (h : Yields D o a D') :
    a.message = some (.stored c n m.conversationSeq true) ∧ d.Extended D' c conv n m := by
  cases ho with
  | @direct op c' hfits hfriends hnew =>
    obtain ⟨hc, seq, time, rfl⟩ := hm
    obtain ⟨r, rfl⟩ : ∃ r, a = .accepted r := by
      cases a <;> first | exact h.elim | exact ⟨_, rfl⟩
    have hroom := (hext.friendConversation hd _ _).trans hc
    have hfound := hext.stored rfl (congrArg some (varchar_fits (hfits 0 0).client))
    cases (show SendsDirect op D r D' from h) with
    | strangers hnone => cases hroom.symm.trans hnone
    | conflict hfriends' hstored hother =>
      cases hroom.symm.trans hfriends'
      cases hfound.symm.trans hstored
      exact absurd ⟨rfl, rfl, rfl, text_fits (hfits 0 0).content⟩ (of_decide_eq_false hother)
    | @duplicate c₂ stored us hfriends' hstored hsame =>
      cases hroom.symm.trans hfriends'
      cases hfound.symm.trans hstored
      refine ⟨rfl, hext.conversation, hext.number, joins_conversations.trans hext.conversations,
        joins_messages.trans hext.messages, ?_, ?_, ?_, ?_⟩
      · exact (applyAll_map (w := joinedAtOne c) (·.friends) us D rfl).trans hext.friends
      · exact (applyAll_map (w := joinedAtOne c) (·.groupInfo) us D rfl).trans hext.groupInfo
      · exact (applyAll_map (w := joinedAtOne c) (·.groupMembers) us D rfl).trans hext.groupMembers
      · exact (applyAll_map (w := joinedAtOne c) (·.fileObjects) us D rfl).trans hext.fileObjects
    | unfit _ hunfit => cases hfound.symm.trans hunfit.fresh
    | fresh us hfriends' hconv hnew' hn => cases hfound.symm.trans hnew'
  | @group op c' hfits hopen hnew =>
    obtain ⟨⟨gi, hgi, hc⟩, seq, time, rfl⟩ := hm
    obtain ⟨r, rfl⟩ : ∃ r, a = .groupAccepted r := by
      cases a <;> first | exact h.elim | exact ⟨_, rfl⟩
    have hroom : ∀ c', op.Open D c' → c' = c := by
      rintro _ ⟨⟨gi', hgi', rfl⟩, -⟩
      rw [hext.groupInfo, hgi] at hgi'
      cases hgi'
      exact hc
    have hfound := hext.stored rfl (congrArg some (varchar_fits (hfits 0 0).client))
    cases (show SendsGroup op D r D' from h) with
    | refused herror hclosed =>
      refine absurd ⟨⟨gi, by rw [hext.groupInfo, hgi], hc⟩, ?_, ?_⟩ (hclosed c)
      · exact hext.groupMembers ▸ hopen.member
      · intro hrequired
        have := hopen.ready hrequired
        simpa [readyFile, hext.fileObjects] using this
    | conflict herror hopen' hstored hother =>
      cases hroom _ hopen'
      cases hfound.symm.trans hstored
      exact absurd ⟨rfl, rfl, rfl, text_fits (hfits 0 0).content⟩ (of_decide_eq_false hother)
    | duplicate uids hopen' hstored hsame =>
      cases hroom _ hopen'
      cases hfound.symm.trans hstored
      exact ⟨rfl, hext⟩
    | unfit _ hunfit => cases hfound.symm.trans hunfit.fresh
    | fresh uids hopen' hconv hnew' hn => cases hfound.symm.trans hnew'

end answers

/-! ### Sends side by side -/

/-- Sessions that are about to run the operations. -/
def begun (d : Db) (os : List Operation) : Store where
  cur := ⟨d, []⟩
  sessions := os.map fun op => { op, began := 0, seen := 0, prog := execute op }

/-- A number the server may give to a new message. -/
def NewMessage (n : ℕ) (d : Db) : Prop := d.messages.get n = none

/-- No action fails. -/
def Undisturbed (s : Store) : Event Operation → Prop
  | .act _ n => NewMessage n s.cur.db
  | _ => False

abbrev Sending := Session Db Key Write Reply Operation

/-- The session reads from a snapshot. -/
def sees (σ : Sending) : Bool := (σ.tx.bind Tx.view).isSome

/-- The next action of a direct send takes its snapshot. -/
def snapshots (σ : Sending) : Bool :=
  match σ.op, σ.prog with
  | .acceptDirectText _, .query _ _ => !sees σ
  | _, _ => false

/-- No action fails, and no direct send takes its snapshot while another session reads from one. -/
def OneReads (s : Store) : Event Operation → Prop
  | .act i n => NewMessage n s.cur.db ∧ (s.sessions[i]?.any snapshots = true →
      ∀ (j : ℕ) τ, j ≠ i → s.sessions[j]? = some τ → sees τ = false)
  | _ => False

/-- The first action of a send after START. -/
inductive Enters : Operation → Prog Db Key Write Reply → Prop
  | direct {op : AcceptDirectText} {q : Db → Option ℤ} {k : Except String (Option ℤ) → Prog Db Key Write Reply} :
      Enters (.acceptDirectText op) (.query q k)
  | group {op : AcceptGroupMessage} {k : Except String (Option ℤ) → Prog Db Key Write Reply} :
      Enters (.acceptGroupMessage op) (.stmt (lockGroupMember op.groupId op.senderId) k)

open Prog.Closing in
theorem acceptDirectText_enters (op : AcceptDirectText) :
    ∃ k, execute (.acceptDirectText op) = .start k ∧ (k (.ok ())).Brief ∧
      Enters (.acceptDirectText op) (k (.ok ())) := by
  refine ⟨_, rfl, brief (catching (select fun c => ?_)), .direct⟩
  cases c with
  | none => exact rollback
  | some c =>
    refine catching (exec fun _ => exec fun seq => ?_)
    cases seq with
    | none => exact rollback
    | some seq =>
      refine select fun stored => ?_
      cases stored with
      | none => exact catching (exec fun _ => exec fun _ => catching commit)
      | some stored =>
        dsimp only
        split
        · exact catching commit
        · exact rollback

theorem fileReady_closing {op : AcceptGroupMessage} {f : Bool → Operating GroupMessageAcceptResult}
    (h : ∀ ready, Prog.Closing (f ready)) :
    Prog.Closing (acceptGroupMessage.fileReady op >>= f : Operating GroupMessageAcceptResult) := by
  unfold acceptGroupMessage.fileReady
  split
  · exact .exec h
  · exact h true

open Prog.Closing in
theorem acceptGroupMessage_enters (op : AcceptGroupMessage) :
    ∃ k, execute (.acceptGroupMessage op) = .start k ∧ (k (.ok ())).Brief ∧
      Enters (.acceptGroupMessage op) (k (.ok ())) := by
  refine ⟨_, rfl, brief (catching (exec fun c => ?_)), .group⟩
  cases c with
  | none => exact rollback
  | some c =>
    refine catching (fileReady_closing fun ready => ?_)
    cases ready with
    | false => exact rollback
    | true =>
      refine exec fun seq => ?_
      cases seq with
      | none => exact rollback
      | some seq =>
        refine select fun stored => ?_
        cases stored with
        | none => exact catching (exec fun _ => exec fun _ => catching (select fun _ => catching commit))
        | some stored =>
          dsimp only
          split
          · exact catching (select fun _ => catching commit)
          · exact rollback

/-! ### Phases of a send -/

/-- The send has not read anything. -/
def Waits (σ : Sending) : Prop :=
  ∃ k, execute σ.op = .start k ∧ (k (.ok ())).Brief ∧ Enters σ.op (k (.ok ())) ∧
    (σ.prog = .start k ∧ σ.tx = none ∨ σ.prog = k (.ok ()) ∧ σ.tx = some {})

/-- What shows that the send has read: the snapshot of a direct send, the lock of a group send. -/
def Marked (σ : Sending) : Prop :=
  ∃ x, σ.tx = some x ∧ match σ.op with
    | .acceptGroupMessage op => exclusive (.group op.groupId) ∈ x.locks
    | _ => x.view.isSome = true

/-- The send works on the rows as they are. -/
structure Inside (s : Store) (σ : Sending) : Prop where
  marked : Marked σ
  brief : σ.prog.Brief
  follows : (Setting.alone NewMessage).Follows
    (fun a d ws _ => ws = none ∧ Yields s.cur.db σ.op a d) s σ

def Ended (σ : Sending) : Prop := σ.tx = none ∧ ∃ a, σ.prog = .ret a

theorem Waits.unmarked {σ : Sending} (h : Waits σ) : ¬ Marked σ := by
  obtain ⟨k, -, -, -, ⟨-, htx⟩ | ⟨-, htx⟩⟩ := h
  · rintro ⟨x, hx, -⟩
    cases htx.symm.trans hx
  rintro ⟨x, hx, hmark⟩
  cases htx.symm.trans hx
  split at hmark <;> cases hmark

omit [Collation] in
theorem Ended.unmarked {σ : Sending} (h : Ended σ) : ¬ Marked σ := by
  rintro ⟨x, hx, -⟩
  cases h.1.symm.trans hx

theorem Accepting.waits {d : Db} {o : Operation} (ho : Accepting d o) :
    Waits { op := o, began := 0, seen := 0, prog := execute o } := by
  cases ho with
  | @direct op =>
    obtain ⟨k, hk, hbrief, henters⟩ := acceptDirectText_enters op
    exact ⟨k, hk, hbrief, henters, .inl ⟨hk, rfl⟩⟩
  | @group op =>
    obtain ⟨k, hk, hbrief, henters⟩ := acceptGroupMessage_enters op
    exact ⟨k, hk, hbrief, henters, .inl ⟨hk, rfl⟩⟩

theorem execute_course {d D : Db} {o : Operation} (ho : Accepting d o) (hD : D.Regular) (b : Bool) :
    (Setting.alone NewMessage).Course (fun a d' ws _ => ws = none ∧ Yields D o a d') (execute o) D none b := by
  cases ho with
  | direct hfits =>
    exact Setting.Leads.outcome (Safe.rethrowing (acceptDirectText_safe (fun _ _ h => h)
      hD.toNumbered (hfits 0 0).sender (hfits 0 0).receiver) b) (fun _ _ _ _ h => h) fun _ _ _ _ => False.elim
  | group hfits =>
    exact Setting.Leads.outcome (Safe.rethrowing (acceptGroupMessage_safe (fun _ _ h => h)
      hD.toNumbered (hfits 0 0).sender (hfits 0 0).receiver hD.rooms) b) (fun _ _ _ _ h => h)
      fun _ _ _ _ => False.elim

section phases

variable {d : Db} {o : Operation} {s s' : Store} {σ : Sending} {i n m : ℕ}

theorem Waits.follows (h : Waits σ) (ho : Accepting d σ.op) (hcur : s.cur.db.Regular) :
    (Setting.alone NewMessage).Follows (fun a d ws _ => ws = none ∧ Yields s.cur.db σ.op a d) s σ := by
  have hc := execute_course ho hcur σ.done.isSome
  obtain ⟨k, hk, -, -, ⟨hprog, htx⟩ | ⟨hprog, htx⟩⟩ := h
  · refine ⟨?_, fun x j hx => by cases htx.symm.trans hx⟩
    rw [hprog, htx, ← hk]
    exact hc
  refine ⟨?_, fun x j hx hj => ?_⟩
  · rw [hk] at hc
    rw [hprog, htx]
    exact (hc _ rfl).1
  · cases htx.symm.trans hx
    cases hj

/-- The sends that have answered: none, or one that stored the message and others that found it. -/
inductive Landed (d : Db) (s : Store) : Prop
  | nothing (hdb : s.cur.db = d) (hnone : ∀ (i : ℕ) σ a, s.sessions[i]? = some σ → σ.prog ≠ .ret a)
  | stored {c : ℤ} {conv : Conversation} {n : ℕ} {m : Message} (f : ℕ)
      (hext : d.Extended s.cur.db c conv n m)
      (hbears : ∀ (i : ℕ) σ, s.sessions[i]? = some σ → Bears d σ.op c m)
      (hended : ∃ σ a, s.sessions[f]? = some σ ∧ σ.prog = .ret a)
      (hanswers : ∀ (i : ℕ) σ a, s.sessions[i]? = some σ → σ.prog = .ret a →
        a.message = some (.stored c n m.conversationSeq (decide (i ≠ f))))

omit [Collation] in
theorem Landed.regular (h : Landed d s) (hd : d.Regular) : s.cur.db.Regular := by
  cases h with
  | nothing hdb => exact hdb ▸ hd
  | stored f hext => exact hext.regular hd

omit [Collation] in
theorem Landed.groups (h : Landed d s) :
    s.cur.db.groupInfo = d.groupInfo ∧ s.cur.db.groupMembers = d.groupMembers := by
  cases h with
  | nothing hdb => simp [hdb]
  | stored f hext => exact ⟨hext.groupInfo, hext.groupMembers⟩

/-- `m` sends of one message, of which at most one has begun to read and not yet answered. -/
structure Turns (d : Db) (o : Operation) (m : ℕ) (s : Store) : Prop where
  count : s.sessions.length = m
  sends : ∀ (i : ℕ) σ, s.sessions[i]? = some σ → Twins o σ.op ∧ Accepting d σ.op
  phases : ∀ (i : ℕ) σ, s.sessions[i]? = some σ → Waits σ ∨ Inside s σ ∨ Ended σ
  one : ∀ (i j : ℕ) σ τ, s.sessions[i]? = some σ → s.sessions[j]? = some τ → Marked σ → Marked τ → i = j
  landed : Landed d s

theorem Inside.open (h : Inside s σ) (a : Reply) : σ.prog ≠ .ret a := by
  intro ha
  obtain ⟨x, hx, -⟩ := h.marked
  have := (h.follows.answer ha).1
  rw [hx] at this
  cases this

theorem Inside.keep (h : Inside s σ) (hcur : s'.cur = s.cur) (hpast : s'.past = s.past) : Inside s' σ := by
  obtain ⟨past, cur, sessions⟩ := s
  obtain ⟨past', cur', sessions'⟩ := s'
  obtain rfl := hcur
  obtain rfl := hpast
  exact ⟨h.marked, h.brief, h.follows.course, h.follows.view⟩

theorem Turns.put (h : Turns d o m s) (hi : s.sessions[i]? = some σ) {σ' : Sending} (hop : σ'.op = σ.op)
    (hsessions : s'.sessions = s.sessions.set i σ') (hcur : s'.cur = s.cur) (hpast : s'.past = s.past)
    (hphase : Waits σ' ∨ Inside s' σ') (hopen : ∀ a, σ.prog ≠ .ret a) (hopen' : ∀ a, σ'.prog ≠ .ret a)
    (hone : Marked σ' → ∀ (j : ℕ) τ, j ≠ i → s.sessions[j]? = some τ → ¬ Marked τ) : Turns d o m s' := by
  have of_set : ∀ {j : ℕ} {τ}, s'.sessions[j]? = some τ →
      (j = i ∧ τ = σ') ∨ (j ≠ i ∧ s.sessions[j]? = some τ) := fun hj => Sys.of_put (by rwa [hsessions] at hj)
  refine ⟨by rw [hsessions, length_set, h.count], fun j τ hj => ?_, fun j τ hj => ?_,
    fun j k τ υ hj hk hτ hυ => ?_, ?_⟩
  · obtain ⟨-, rfl⟩ | ⟨-, hj⟩ := of_set hj
    · exact hop ▸ h.sends i σ hi
    · exact h.sends j τ hj
  · obtain ⟨-, rfl⟩ | ⟨-, hj⟩ := of_set hj
    · exact hphase.imp id .inl
    · exact (h.phases j τ hj).imp id (Or.imp (·.keep hcur hpast) id)
  · obtain ⟨rfl, rfl⟩ | ⟨hji, hj⟩ := of_set hj <;> obtain ⟨rfl, rfl⟩ | ⟨hki, hk⟩ := of_set hk
    · rfl
    · exact absurd hυ (hone hτ k υ hki hk)
    · exact absurd hτ (hone hυ j τ hji hj)
    · exact h.one j k τ υ hj hk hτ hυ
  · cases h.landed with
    | nothing hdb hnone =>
      refine .nothing (by rw [hcur, hdb]) fun j τ a hj => ?_
      obtain ⟨-, rfl⟩ | ⟨-, hj⟩ := of_set hj
      · exact hopen' a
      · exact hnone j τ a hj
    | stored f hext hbears hended hanswers =>
      refine .stored f (by rwa [hcur]) (fun j τ hj => ?_) ?_ fun j τ a hj ha => ?_
      · obtain ⟨-, rfl⟩ | ⟨-, hj⟩ := of_set hj
        · exact hop ▸ hbears i σ hi
        · exact hbears j τ hj
      · obtain ⟨τ, a, hf, ha⟩ := hended
        have hfi : i ≠ f := fun e => hopen a (by rwa [Option.some.inj (hi.symm.trans (e ▸ hf))])
        exact ⟨τ, a, by rw [hsessions, getElem?_set_ne hfi, hf], ha⟩
      · obtain ⟨-, rfl⟩ | ⟨-, hj⟩ := of_set hj
        · exact absurd ha (hopen' a)
        · exact hanswers j τ a hj ha

theorem Turns.answered (h : Turns d o m s) (hd : d.Regular) (hi : s.sessions[i]? = some σ)
    (hinside : Inside s σ) {σ' : Sending} (hop : σ'.op = σ.op) (hsessions : s'.sessions = s.sessions.set i σ')
    (htx : σ'.tx = none) {a : Reply} (ha : σ'.prog = .ret a)
    (hyields : Yields s.cur.db σ.op a s'.cur.db) : Turns d o m s' := by
  have of_set : ∀ {j : ℕ} {τ}, s'.sessions[j]? = some τ →
      (j = i ∧ τ = σ') ∨ (j ≠ i ∧ s.sessions[j]? = some τ) := fun hj => Sys.of_put (by rwa [hsessions] at hj)
  have hi' : s'.sessions[i]? = some σ' := by
    rw [hsessions, List.getElem?_set_self (List.getElem?_eq_some_iff.1 hi).1]
  have hended : Ended σ' := ⟨htx, a, ha⟩
  have hsends : ∀ (j : ℕ) τ, s'.sessions[j]? = some τ → Twins o τ.op ∧ Accepting d τ.op := fun j τ hj => by
    obtain ⟨-, rfl⟩ | ⟨-, hj⟩ := of_set hj
    · exact hop ▸ h.sends i σ hi
    · exact h.sends j τ hj
  obtain ⟨htwin, haccepting⟩ := h.sends i σ hi
  refine ⟨by rw [hsessions, length_set, h.count], hsends, fun j τ hj => ?_, fun j k τ υ hj hk hτ hυ => ?_, ?_⟩
  · obtain ⟨-, rfl⟩ | ⟨hji, hj⟩ := of_set hj
    · exact .inr (.inr hended)
    obtain hw | hin | he := h.phases j τ hj
    · exact .inl hw
    · exact absurd (h.one j i τ σ hj hi hin.marked hinside.marked) hji
    · exact .inr (.inr he)
  · obtain ⟨-, rfl⟩ | ⟨-, hj⟩ := of_set hj
    · exact absurd hτ hended.unmarked
    obtain ⟨-, rfl⟩ | ⟨-, hk⟩ := of_set hk
    · exact absurd hυ hended.unmarked
    · exact h.one j k τ υ hj hk hτ hυ
  · cases h.landed with
    | nothing hdb hnone =>
      obtain ⟨c, conv, n, m, hext, hm, hmessage⟩ := haccepting.first (hdb ▸ hyields)
      refine .stored i hext (fun j τ hj => ?_) ⟨σ', a, hi', ha⟩ fun j τ a' hj ha' => ?_
      · exact (hsends j τ hj).1.bears (htwin.symm.bears hm)
      · obtain ⟨rfl, rfl⟩ | ⟨-, hj⟩ := of_set hj
        · cases ha.symm.trans ha'
          simpa using hmessage
        · exact absurd ha' (hnone j τ a' hj)
    | stored f hext hbears hfirst hanswers =>
      obtain ⟨τ, b, hf, hb⟩ := hfirst
      have hfi : i ≠ f := fun e => hinside.open b (by rwa [Option.some.inj (hi.symm.trans (e ▸ hf))])
      obtain ⟨hmessage, hext'⟩ := haccepting.again hd hext (hbears i σ hi) hyields
      refine .stored f hext' (fun j υ hj => ?_) ⟨τ, b, by rw [hsessions, getElem?_set_ne hfi, hf], hb⟩
        fun j υ a' hj ha' => ?_
      · obtain ⟨-, rfl⟩ | ⟨-, hj⟩ := of_set hj
        · exact hop ▸ hbears i σ hi
        · exact hbears j υ hj
      · obtain ⟨rfl, rfl⟩ | ⟨-, hj⟩ := of_set hj
        · cases ha.symm.trans ha'
          simpa [hfi] using hmessage
        · exact hanswers j υ a' hj ha'

/-- The first reading of a send: nobody else has read. -/
theorem Turns.enter (h : Turns d o m s) (hi : s.sessions[i]? = some σ) (henters : Enters σ.op σ.prog)
    (htx : σ.tx = some {}) (hok : OneReads s (.act i n)) (hs : s.perform i σ n = some s') :
    ∃ σ', s' = s.put i σ' ∧ σ'.op = σ.op ∧ Marked σ' ∧
      ∀ (j : ℕ) τ, j ≠ i → s.sessions[j]? = some τ → ¬ Marked τ := by
  obtain ⟨htwin, haccepting⟩ := h.sends i σ hi
  obtain ⟨op, began, seen, prog, tx, dn⟩ := σ
  obtain rfl := htx
  cases henters with
  | @direct op q k =>
    cases hs
    refine ⟨_, rfl, rfl, ⟨_, rfl, rfl⟩, fun j τ hji hj hmark => ?_⟩
    have hblind := hok.2 (by rw [hi]; rfl) j τ hji hj
    obtain ⟨x, hx, hmark⟩ := hmark
    have hop : ∃ op', τ.op = .acceptDirectText op' := by
      have := (h.sends j τ hj).1
      cases htwin
      generalize τ.op = o' at this
      cases this
      exact ⟨_, rfl⟩
    obtain ⟨op', hop⟩ := hop
    simp only [hop] at hmark
    simp [sees, hx, hmark] at hblind
  | @group op k =>
    obtain ⟨gi, time, hgi, hmember⟩ : ∃ gi time, s.cur.db.groupInfo.get op.groupId = some gi ∧
        s.cur.db.groupMembers.get (op.groupId, op.senderId) = some time := by
      cases haccepting with
      | group hfits hopen hnew =>
        obtain ⟨⟨gi, hgi, -⟩, hmember, -⟩ := hopen
        obtain ⟨time, hmember⟩ := isSome_iff_exists.1 hmember
        exact ⟨gi, time, by rw [h.landed.groups.1, hgi], by rw [h.landed.groups.2, hmember]⟩
    simp only [Sys.perform, applyAll_nil, lockGroupMember, hgi, hmember] at hs
    split at hs
    · rename_i hfree
      cases hs
      refine ⟨_, rfl, rfl, ⟨_, rfl, ?_⟩, fun j τ hji hj hmark => ?_⟩
      · rw [Tx.locks_add]
        simp [Effect.locks]
      · obtain ⟨x, hx, hmark⟩ := hmark
        have hop : ∃ op' : AcceptGroupMessage, τ.op = .acceptGroupMessage op' ∧ op'.groupId = op.groupId := by
          have := (h.sends j τ hj).1
          cases htwin with
          | group hsame =>
            generalize τ.op = o' at this
            cases this with
            | group hsame' => exact ⟨_, rfl, congrArg (·.2.1) (hsame'.symm.trans hsame)⟩
        obtain ⟨op', hop, hg⟩ := hop
        simp only [hop, hg] at hmark
        -- the lock of the other session is in the way of this one
        have := Sys.apart_of_free hfree hji hj (exclusive (.group op.groupId)) (by simp [Effect.locks])
          (exclusive (.group op.groupId)) (by simpa [Session.locks, hx] using hmark)
        simp [Lock.conflicts] at this
    · cases hs

omit [Collation] in
theorem Enters.open {p : Prog Db Key Write Reply} (h : Enters o p) (a : Reply) : p ≠ .ret a := by
  rintro rfl
  cases h

/-- An action inside the transaction of a send: its transaction stays open, or it answers. -/
theorem perform_inside {x : Tx Key Write} (hi : s.sessions[i]? = some σ) (hx : σ.tx = some x)
    (hbrief : σ.prog.Brief) (hn : NewMessage n s.cur.db)
    (hfollows : (Setting.alone NewMessage).Follows (fun a d ws _ => ws = none ∧ Yields s.cur.db σ.op a d) s σ)
    (hs : s.perform i σ n = some s') : ∃ σ', s'.sessions = s.sessions.set i σ' ∧ σ'.op = σ.op ∧
      ((∃ a, σ'.tx = none ∧ σ'.prog = .ret a ∧ Yields s.cur.db σ.op a s'.cur.db) ∨
        ∃ y, σ'.tx = some y ∧ x.Grows y ∧ s'.cur = s.cur ∧ s'.past = s.past ∧
          (Marked σ' → Inside s' σ')) := by
  obtain ⟨σ', hset, hop, -, hfollows⟩ := hfollows.perform hn hs
  obtain ⟨σ₁, hset₁, hbrief⟩ := hbrief.perform hx hs
  obtain rfl : σ' = σ₁ := by
    have hlt := (List.getElem?_eq_some_iff.1 hi).1
    have := congrArg (·[i]?) (hset.symm.trans hset₁)
    simpa [hlt] using this
  refine ⟨σ', hset, hop, hbrief.imp ?_ ?_⟩
  · rintro ⟨a, ha⟩
    obtain ⟨htx, hyields⟩ := hfollows.answer ha
    exact ⟨a, map_eq_none_iff.1 htx, ha, hyields⟩
  · rintro ⟨y, hy, hgrows, hbrief, hcur, hpast⟩
    refine ⟨y, hy, hgrows, hcur, hpast, fun hmarked => ⟨hmarked, hbrief, ?_⟩⟩
    rw [hop, hcur]
    exact hfollows

theorem Turns.step (h : Turns d o m s) (hd : d.Regular) {ev : Event Operation} (hok : OneReads s ev)
    (hstep : s.step execute ev = some s') : Turns d o m s' := by
  cases ev with
  | begin | fault | orphan => exact hok.elim
  | act i n =>
    obtain ⟨σ, hi, hs⟩ := bind_eq_some_iff.1 hstep
    obtain hwaits | hinside | hended := h.phases i σ hi
    · have hfollows := hwaits.follows (h.sends i σ hi).2 (h.landed.regular hd)
      obtain ⟨k, hk, hbrief, henters, ⟨hprog, htx⟩ | ⟨hprog, htx⟩⟩ := hwaits
      · simp only [Sys.perform, hprog, htx, Option.some.injEq] at hs
        subst hs
        have hwaits' : Waits { σ with prog := k (.ok ()), tx := some {} } :=
          ⟨k, hk, hbrief, henters, .inr ⟨rfl, rfl⟩⟩
        have hop : ({ σ with prog := k (.ok ()), tx := some {} } : Sending).op = σ.op := rfl
        exact h.put hi hop rfl rfl rfl (.inl hwaits') (by simp [hprog]) henters.open
          fun hmark => absurd hmark hwaits'.unmarked
      · rw [← hprog] at hbrief henters
        obtain ⟨σ', rfl, hop, hmark, hone⟩ := h.enter hi henters htx hok hs
        obtain ⟨σ₁, hset, hop₁, hend⟩ := perform_inside hi htx hbrief hok.1 hfollows hs
        obtain rfl : σ' = σ₁ := by
          have := congrArg (·[i]?) (show s.sessions.set i σ' = _ from hset)
          simpa [(List.getElem?_eq_some_iff.1 hi).1] using this
        obtain ⟨a, htx', -⟩ | ⟨y, -, -, -, -, hinside⟩ := hend
        · obtain ⟨x, hx, -⟩ := hmark
          cases htx'.symm.trans hx
        · exact h.put hi hop rfl rfl rfl (.inr (hinside hmark)) henters.open (hinside hmark).open fun _ => hone
    · obtain ⟨x, hx, hmark⟩ := hinside.marked
      obtain ⟨σ', hset, hop, hend⟩ := perform_inside hi hx hinside.brief hok.1 hinside.follows hs
      obtain ⟨a, htx', ha, hyields⟩ | ⟨y, hy, hgrows, hcur, hpast, hinside'⟩ := hend
      · exact h.answered hd hi hinside hop hset htx' ha hyields
      have hmarked : Marked σ' := by
        refine ⟨y, hy, ?_⟩
        rw [hop]
        split at hmark
        · exact hgrows.locks _ hmark
        · exact hgrows.view hmark
      refine h.put hi hop hset hcur hpast (.inr (hinside' hmarked)) hinside.open (hinside' hmarked).open
        fun _ j τ hji hj hτ => hji (h.one j i τ σ hj hi hτ hinside.marked)
    · obtain ⟨-, a, ha⟩ := hended
      simp [Sys.perform, ha] at hs

theorem Turns.path (h : Turns d o m s) (hd : d.Regular) (hpath : Path (Sys.step execute) OneReads s s') :
    Turns d o m s' :=
  hpath.invariant h fun _ _ _ _ h hok hstep => h.step hd hok hstep

theorem Turns.begun {os : List Operation} (hos : ∀ p ∈ os, Twins o p ∧ Accepting d p) :
    Turns d o os.length (begun d os) := by
  have hget : ∀ {i : ℕ} {σ}, (Imm.begun d os).sessions[i]? = some σ →
      ∃ p ∈ os, σ = { op := p, began := 0, seen := 0, prog := execute p } := fun hi => by
    obtain ⟨p, hp, rfl⟩ := mem_map.1 (mem_of_getElem? hi)
    exact ⟨p, hp, rfl⟩
  have hwaits : ∀ {i : ℕ} {σ}, (Imm.begun d os).sessions[i]? = some σ → Waits σ := fun hi => by
    obtain ⟨p, hp, rfl⟩ := hget hi
    exact (hos p hp).2.waits
  refine ⟨by simp [Imm.begun], fun i σ hi => ?_, fun i σ hi => .inl (hwaits hi), fun i j σ τ hi _ hσ => ?_,
    .nothing rfl fun i σ a hi ha => ?_⟩
  · obtain ⟨p, hp, rfl⟩ := hget hi
    exact hos p hp
  · exact absurd hσ (hwaits hi).unmarked
  · obtain ⟨k, hk, -⟩ := hwaits hi
    obtain ⟨p, hp, rfl⟩ := hget hi
    cases hk.symm.trans ha

/-! ### Both come to their end -/

/-- A session that has not read anything, or has answered, is in nobody's way. -/
theorem Turns.idle (h : Turns d o m s) (hi : s.sessions[i]? = some σ) (hσ : ¬ Marked σ) :
    σ.locks = [] ∧ sees σ = false := by
  obtain ⟨k, -, -, -, ⟨-, htx⟩ | ⟨-, htx⟩⟩ | hinside | ⟨htx, -⟩ := h.phases i σ hi
  · simp [Session.locks, sees, htx]
  · simp [Session.locks, sees, htx, Tx.locks]
  · exact absurd hinside.marked hσ
  · simp [Session.locks, sees, htx]

/-- While the others have not read anything, or have answered, a send comes to its end. -/
theorem Turns.settles (h : Turns d o m s) (hd : d.Regular) (hi : s.sessions[i]? = some σ)
    (hothers : ∀ (j : ℕ) τ, j ≠ i → s.sessions[j]? = some τ → ¬ Marked τ) :
    ∃ s' σ', Path (Sys.step execute) OneReads s s' ∧ s'.sessions = s.sessions.set i σ' ∧ Ended σ' := by
  have hfollows : Ended σ ∨ (Setting.alone NewMessage).Follows
      (fun a d ws _ => ws = none ∧ Yields s.cur.db σ.op a d) s σ := by
    obtain hwaits | hinside | hended := h.phases i σ hi
    · exact .inr (hwaits.follows (h.sends i σ hi).2 (h.landed.regular hd))
    · exact .inr hinside.follows
    · exact .inl hended
  obtain hended | hfollows := hfollows
  · obtain ⟨hlt, hget⟩ := List.getElem?_eq_some_iff.1 hi
    exact ⟨s, σ, .here, by rw [← hget, set_getElem_self], hended⟩
  obtain ⟨s', σ', a, hpath, hset, -, ha, hend⟩ := hfollows.finishes
    (fun d => (exists_unused d).imp fun n hn => hn.message) execute
    (fun j τ hji hj => (h.idle hj (hothers j τ hji hj)).1) hi
  refine ⟨s', σ', ?_, hset, map_eq_none_iff.1 (hend.answer ha).1, a, ha⟩
  refine hpath.invariant .here ?_
  rintro t _ u ht hpath ⟨n, rfl, hn⟩ hstep
  refine Path.next (e := .act i n) hpath ⟨hn, fun _ j τ hji hj => ?_⟩ hstep
  obtain ⟨υ, hset, -⟩ := hfollows.path hi ht
  rw [hset, getElem?_set_ne (Ne.symm hji)] at hj
  exact (h.idle hj (hothers j τ hji hj)).2

/-- One after the other the sends come to their end. -/
theorem Turns.finish (h : Turns d o m s) (hd : d.Regular) (k : ℕ) :
    ∃ s', Path (Sys.step execute) OneReads s s' ∧
      (∀ (j : ℕ) τ, s'.sessions[j]? = some τ → ¬ Marked τ ∧ (j < k → Ended τ)) := by
  induction k with
  | zero =>
    by_cases hmarked : ∃ i : ℕ, ∃ σ, s.sessions[i]? = some σ ∧ Marked σ
    · obtain ⟨i, σ, hi, hσ⟩ := hmarked
      have hothers : ∀ (j : ℕ) τ, j ≠ i → s.sessions[j]? = some τ → ¬ Marked τ :=
        fun j τ hji hj hτ => hji (h.one j i τ σ hj hi hτ hσ)
      obtain ⟨s', σ', hpath, hset, hended⟩ := h.settles hd hi hothers
      refine ⟨s', hpath, fun j τ hj => ⟨?_, fun hlt => absurd hlt (Nat.not_lt_zero j)⟩⟩
      obtain ⟨-, rfl⟩ | ⟨hji, hj⟩ := Sys.of_put (by rwa [hset] at hj)
      · exact hended.unmarked
      · exact hothers j τ hji hj
    · refine ⟨s, .here, fun j τ hj => ⟨fun hτ => hmarked ⟨j, τ, hj, hτ⟩, fun hlt => ?_⟩⟩
      exact absurd hlt (Nat.not_lt_zero j)
  | succ k ih =>
    obtain ⟨s', hpath, hs'⟩ := ih
    cases hk : s'.sessions[k]? with
    | none =>
      refine ⟨s', hpath, fun j τ hj => ⟨(hs' j τ hj).1, fun hlt => ?_⟩⟩
      refine (hs' j τ hj).2 (lt_of_le_of_ne (Nat.le_of_lt_succ hlt) ?_)
      rintro rfl
      cases hk.symm.trans hj
    | some σ =>
      obtain ⟨s'', σ', hpath', hset, hended⟩ := (h.path hd hpath).settles hd hk fun j τ _ hj => (hs' j τ hj).1
      refine ⟨s'', hpath.trans hpath', fun j τ hj => ?_⟩
      obtain ⟨-, rfl⟩ | ⟨hjk, hj⟩ := Sys.of_put (by rwa [hset] at hj)
      · exact ⟨hended.unmarked, fun _ => hended⟩
      · exact ⟨(hs' j τ hj).1, fun hlt => (hs' j τ hj).2 (lt_of_le_of_ne (Nat.le_of_lt_succ hlt) hjk)⟩

end phases

/-- The two sessions have answered. -/
def BothAnswered (s : Store) (a a' : Reply) : Prop :=
  ∃ σ σ', s.sessions = [σ, σ'] ∧ σ.prog = .ret a ∧ σ'.prog = .ret a'

/-- Both answers name one message, and one of them says that it is new. -/
def OneNew (a a' : Reply) : Prop :=
  ∃ r r', a.message = some r ∧ a'.message = some r' ∧ r.error = .Success ∧ r'.error = .Success ∧
    r.messageId = r'.messageId ∧ r.conversationSeq = r'.conversationSeq ∧ r'.duplicate = !r.duplicate

omit [Collation]

/-- The same hello, sent by two connections. -/
def hello : Operation := .acceptDirectText (sayHello "a")

theorem friendsStore_regular : friendsStore.Regular := by
  have hrow : ∀ {c r}, friendsStore.conversations.get c = some r → c = 5 := fun h => by
    simp only [friendsStore, Table.ofList, foldr_cons, foldr_nil, get_set] at h
    split at h
    · assumption
    · cases h
  refine { conversation := fun c r h => ?_, latest := fun _ _ m _ _ h => ?_, unique := fun c c' _ _ h h' _ _ => ?_,
           rooms := fun g _ h => ?_ }
  · rw [hrow h]
    decide
  · cases show none = some _ from h
  · rw [hrow h, hrow h']
  · cases show none = some _ from h

/-- Both connections look the friendship up before one of them stores the message. -/
def hellosAtOnce : List (Event Operation) :=
  [.act 0 1, .act 1 1, .act 0 1, .act 1 1, .act 0 1, .act 0 1, .act 0 1, .act 0 1, .act 0 1, .act 0 1,
    .act 1 2, .act 1 2, .act 1 2, .act 1 2, .act 1 2, .act 1 2]

def sendResult (σ : Sending) : Option MessageAcceptResult :=
  match σ.prog with
  | .ret a => a.message
  | _ => none

theorem sendResult_eq_some {σ : Sending} {r : MessageAcceptResult} (h : sendResult σ = some r) :
    ∃ a, σ.prog = .ret a ∧ a.message = some r := by
  unfold sendResult at h
  split at h
  · rename_i a ha
    exact ⟨a, ha, h⟩
  · cases h

def undisturbed (s : Store) : Event Operation → Bool
  | .act _ n => (s.cur.db.messages.get n).isNone
  | _ => false

end Imm
