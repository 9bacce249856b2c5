import Imm.Store.Files
import Imm.Transaction.Undisturbed

/-! Sending a message again. The unique key of sender and client message id makes a message command
    idempotent: however often it is repeated, on however many shards, one row is stored, all successful
    responses name it, and only the command that stored it stages deliveries. The row has the receiver, the
    type and the content of every command that succeeds, with one exception: spaces at the end of a new
    message that are too many for the column are cut off without an error. -/

namespace Imm

open Txn SQL MysqlStore List

variable [Collation]

/-- UNIQUE KEY (senderId, clientMessageId) -/
def Db.UniqueClientMessages (d : Db) : Prop :=
  ∀ m m' row row' key, d.messages.get m = some row → d.messages.get m' = some row' →
    row.clientKey = some key → row'.clientKey = some key → m = m'

theorem Message.Same.clientKey {row row' : Message} (h : row.Same row') :
    row'.clientKey = row.clientKey := by
  rw [← h]
  rfl

section history

variable {A : Operation → Prop} {V : Versions} (h : History A V)

include h

theorem History.uniqueClientMessages (hinit : ∀ v, V[0]? = some v → v.db.UniqueClientMessages) {j : ℕ}
    {v : Version Db Key} (hv : V[j]? = some v) : v.db.UniqueClientMessages := by
  refine h.invariant hinit ?_ j v hv
  intro j v v' o ws hv _ hpast _ hdeed m m' row row' key hrow hrow' hkey hkey'
  -- the key of an old row is old, and the key of a new row was free
  have old : ∀ {m row}, (applyAll ws v.db).messages.get m = some row → row.clientKey = some key →
      ∀ r, v.db.messages.get m = some r → r.clientKey = some key := by
    intro m row hrow hkey r hr
    obtain ⟨row₁, hrow₁, hsame⟩ := hdeed.message hr
    cases hrow₁.symm.trans hrow
    rw [← hsame.clientKey, hkey]
  have new : ∀ {m row}, (applyAll ws v.db).messages.get m = some row → row.clientKey = some key →
      v.db.messages.get m = none → v.db.NoClientMessage key ∧
        ∀ k' ≠ m, (applyAll ws v.db).messages.get k' = v.db.messages.get k' := by
    intro m row hrow hkey hnone
    obtain ⟨⟨key₁, hkey₁, hfree⟩, hrest, -⟩ := hdeed.new_message hnone hrow
    cases hkey₁.symm.trans hkey
    exact ⟨hfree, hrest⟩
  cases hm : v.db.messages.get m with
  | none =>
    obtain ⟨hfree, hrest⟩ := new hrow hkey hm
    by_contra hne
    rw [hrest m' (Ne.symm hne)] at hrow'
    exact hfree m' row' hrow' hkey'
  | some r =>
    cases hm' : v.db.messages.get m' with
    | none => exact absurd (old hrow hkey r hm) ((new hrow' hkey' hm').1 m r hm)
    | some r' =>
      exact hpast j v (Nat.le_refl j) hv m m' r r' key hm hm' (old hrow hkey r hm) (old hrow' hkey' r' hm')

theorem History.same_message (hinit : ∀ v, V[0]? = some v → v.db.UniqueClientMessages) {i j : ℕ}
    {u v : Version Db Key} (hu : V[i]? = some u) (hv : V[j]? = some v) {m m' : ℤ} {row row' : Message}
    {key : ℤ × String} (hrow : u.db.messages.get m = some row) (hrow' : v.db.messages.get m' = some row')
    (hkey : row.clientKey = some key) (hkey' : row'.clientKey = some key) :
    m = m' ∧ (row.Same row' ∨ row'.Same row) := by
  -- the earlier row is still there at the later version, with its key
  have later : ∀ {i j : ℕ} {u v : Version Db Key} {m m' : ℤ} {row row' : Message}, i ≤ j →
      V[i]? = some u → V[j]? = some v → u.db.messages.get m = some row →
      v.db.messages.get m' = some row' → row.clientKey = some key → row'.clientKey = some key →
      m = m' ∧ row.Same row' := by
    intro i j u v m m' row row' hij hu hv hrow hrow' hkey hkey'
    obtain ⟨row₁, hrow₁, hsame⟩ := h.message hij hu hv hrow
    obtain rfl := h.uniqueClientMessages hinit hv m m' row₁ row' key hrow₁ hrow'
      (hsame.clientKey.trans hkey) hkey'
    cases hrow₁.symm.trans hrow'
    exact ⟨rfl, hsame⟩
  rcases Nat.le_total i j with hij | hji
  · obtain ⟨rfl, hsame⟩ := later hij hu hv hrow hrow' hkey hkey'
    exact ⟨rfl, .inl hsame⟩
  obtain ⟨rfl, hsame⟩ := later hji hv hu hrow' hrow hkey' hkey
  exact ⟨rfl, .inr hsame⟩

end history

/-! ### Commands -/

/-- The key under which a message command is stored. -/
def Command.clientKey (c : Command) : Option (ℤ × String) :=
  c.request.clientMessageId.map fun k => (c.actorUid, weight k)

/-- Session `i` has handled the command `c` with the outcome `o`, a success. -/
def Succeeds (s : ServiceStore) (i : ℕ) (c : Command) (o : Outcome) : Prop :=
  ∃ σ, s.sessions[i]? = some σ ∧ σ.op = c ∧ σ.prog = .ret o ∧ o.response.error = .Success

/-- Behind every success there is a row: the response names it, it is what the command asks for, up to what
    the column cuts off a new message, and deliveries are staged by the session that stored it, which found the
    key free. -/
theorem Serves.accepted {d : Db} {s : ServiceStore} (hrun : Serves d s) {i : ℕ} {c : Command}
    {o : Outcome} (h : Succeeds s i c o) {key : ℤ × String} (hc : c.clientKey = some key) :
    ∃ j v m row k content, s.versions[j]? = some v ∧ v.db.messages.get m = some row ∧ row.clientKey = some key ∧
      Sends s.versions c.request k row.receiverId row.type content ∧
      row.content = (if o.deliveries = [] then content else text content) ∧
      o.response.payload = .sendMessage m row.conversationId row.conversationSeq ∧
      (o.deliveries ≠ [] → (∃ σ, s.sessions[i]? = some σ ∧ σ.done = some j) ∧
        ∃ t u, j = t + 1 ∧ s.versions[t]? = some u ∧ u.db.NoClientMessage key) := by
  obtain ⟨σ, hi, rfl, hprog, hok⟩ := h
  obtain ⟨k, hk, rfl⟩ := Option.map_eq_some_iff.1 hc
  obtain ⟨receiver, type, content, hsends, r, haccepted, hpayload, hstaged⟩ :=
    (hrun.coherent.answer (mem_of_getElem? hi) hprog).sent k hk hok
  obtain ⟨j, v, row, hv, hrow, hkey, hsame, hseq, hfresh⟩ := haccepted
  obtain ⟨hconv, rfl, rfl, hcontent⟩ : row.conversationId = r.conversationId ∧ row.receiverId = receiver ∧
      row.type = type ∧ row.content = if r.duplicate then content else text content := by
    simpa [sameCommand] using hsame
  refine ⟨j, v, r.messageId, row, k, content, hv, hrow, hkey, hsends, ?_, by rw [hconv, hseq, hpayload],
    fun hne => ?_⟩
  · by_cases hnone : o.deliveries = []
    · rw [if_pos hnone, hcontent, if_pos (by simpa [hnone] using hstaged)]
    · rw [if_neg hnone, hcontent, if_neg (by simp [hstaged.1 hnone])]
  · obtain ⟨hdone, hfree⟩ := hfresh (hstaged.1 hne)
    exact ⟨⟨σ, hi, hdone⟩, hfree⟩

theorem History.fileId_eq {A : Operation → Prop} {V : Versions} (h : History A V) {u v : Version Db Key}
    (hu : u ∈ V) (hv : v ∈ V) {k : String} {f f' : FileObject} (hf : u.db.fileObjects.get k = some f)
    (hf' : v.db.fileObjects.get k = some f') : f.fileId = f'.fileId := by
  obtain ⟨i, hi⟩ := getElem?_of_mem hu
  obtain ⟨j, hj⟩ := getElem?_of_mem hv
  rcases Nat.le_total i j with hij | hji
  · obtain ⟨f₁, hf₁, hid, -⟩ := h.file hij hi hj hf
    cases hf₁.symm.trans hf'
    exact hid.symm
  obtain ⟨f₁, hf₁, hid, -⟩ := h.file hji hj hi hf'
  cases hf₁.symm.trans hf
  exact hid

theorem Sends.content_text {V : Versions} {toUid receiver : ℤ} {content content' k k' : String} {type : MessageType}
    (h : Sends V (.sendText toUid content k) k' receiver type content') : content' = content := by
  cases h
  rfl

theorem Serves.content_eq {d : Db} {s : ServiceStore} (hrun : Serves d s) {q : Request} {k k' : String}
    {receiver receiver' : ℤ} {type type' : MessageType} {content content' : String}
    (h : Sends s.versions q k receiver type content) (h' : Sends s.versions q k' receiver' type' content') :
    content = content' := by
  cases h with
  | text | groupText =>
    cases h'
    rfl
  | file _ _ hfile =>
    obtain ⟨u, hu, hf⟩ := hfile
    cases h' with
    | file _ _ hfile' =>
      obtain ⟨v, hv, hf'⟩ := hfile'
      exact hrun.history.fileId_eq hu hv hf hf'
  | groupFile _ _ hfile =>
    obtain ⟨u, hu, hf⟩ := hfile
    cases h' with
    | groupFile _ _ hfile' =>
      obtain ⟨v, hv, hf'⟩ := hfile'
      exact hrun.history.fileId_eq hu hv hf hf'

/-- Every command under the key that succeeds asks for the very row that is stored under the key. -/
def AsAsked (s : ServiceStore) (key : ℤ × String) : Prop :=
  ∀ i c o, Succeeds s i c o → c.clientKey = some key → ∀ v ∈ s.versions, ∀ m row,
    v.db.messages.get m = some row → row.clientKey = some key →
    (∃ k, Sends s.versions c.request k row.receiverId row.type row.content) ∧
      o.response.payload = .sendMessage m row.conversationId row.conversationSeq

/-- Nothing was cut off the content of the command that stored the message under the key. -/
def Uncut (s : ServiceStore) (key : ℤ × String) : Prop :=
  ∀ i c o, Succeeds s i c o → c.clientKey = some key → o.deliveries ≠ [] →
    ∀ k receiver type content, Sends s.versions c.request k receiver type content → text content = content

section rows

variable {d : Db} {s : ServiceStore} {key : ℤ × String}

theorem Serves.unique_first (hrun : Serves d s) (hd : d.UniqueClientMessages) (v : Version Db Key)
    (hv : s.versions[0]? = some v) : v.db.UniqueClientMessages := by
  cases hrun.first.symm.trans hv
  exact hd

/-- A command under the key that succeeds asks for the row, up to what the column of its content has cut. -/
theorem Serves.row_asked (hrun : Serves d s) (hd : d.UniqueClientMessages)
    {i : ℕ} {c : Command} {o : Outcome} (hs : Succeeds s i c o) (hc : c.clientKey = some key)
    {v : Version Db Key} (hv : v ∈ s.versions) {m : ℤ} {row : Message} (hrow : v.db.messages.get m = some row)
    (hkey : row.clientKey = some key) :
    (∃ k content, Sends s.versions c.request k row.receiverId row.type content ∧
      row.content = if o.deliveries = [] then content else text content) ∧
      o.response.payload = .sendMessage m row.conversationId row.conversationSeq := by
  obtain ⟨n, v', m', row', k, content, hv', hrow', hkey', hsends, hcontent, hpayload, -⟩ := hrun.accepted hs hc
  obtain ⟨j, hj⟩ := getElem?_of_mem hv
  obtain ⟨rfl, hsame⟩ := hrun.history.same_message (hrun.unique_first hd) hj hv' hrow hrow' hkey hkey'
  rcases hsame with hsame | hsame
  · rw [← hsame] at hsends hcontent hpayload
    exact ⟨⟨k, content, hsends, hcontent⟩, hpayload⟩
  rw [← hsame]
  exact ⟨⟨k, content, hsends, hcontent⟩, hpayload⟩

theorem Serves.asAsked_iff (hrun : Serves d s) (hd : d.UniqueClientMessages) : AsAsked s key ↔ Uncut s key := by
  constructor
  · intro hasked i c o hs hc hne k receiver type content hsends
    obtain ⟨n, v, m, row, k', content', hv, hget, hkey, hsends', hcontent, -⟩ := hrun.accepted hs hc
    obtain ⟨⟨k'', hsends''⟩, -⟩ := hasked i c o hs hc v (mem_of_getElem? hv) m row hget hkey
    rw [if_neg hne] at hcontent
    rw [hrun.content_eq hsends hsends', ← hcontent]
    exact hrun.content_eq hsends'' hsends'
  · intro huncut i c o hs hc v hv m row hget hkey
    obtain ⟨⟨k, content, hsends, hcontent⟩, hpayload⟩ := hrun.row_asked hd hs hc hv hget hkey
    refine ⟨⟨k, ?_⟩, hpayload⟩
    split at hcontent
    · rwa [hcontent]
    rename_i hne
    rwa [hcontent, huncut i c o hs hc hne k _ _ content hsends]

end rows

/-- Message commands are idempotent, and what is stored is what was asked for as long as no content is cut. -/
theorem accepted_once {d : Db} {s : ServiceStore} (hrun : Serves d s) (hd : d.UniqueClientMessages)
    (key : ℤ × String) :
    (∀ v ∈ s.versions, ∀ m m' row row', v.db.messages.get m = some row →
      v.db.messages.get m' = some row' → row.clientKey = some key → row'.clientKey = some key →
      m = m') ∧
    (∀ i j c c' o o', Succeeds s i c o → Succeeds s j c' o' → c.clientKey = some key →
      c'.clientKey = some key → o.response.payload = o'.response.payload ∧
        (o.deliveries ≠ [] → o'.deliveries ≠ [] → i = j)) ∧
    (∀ i c o, Succeeds s i c o → c.clientKey = some key → ∀ v ∈ s.versions, ∀ m row,
      v.db.messages.get m = some row → row.clientKey = some key →
      (∃ k content, Sends s.versions c.request k row.receiverId row.type content ∧
        row.content = if o.deliveries = [] then content else text content) ∧
        o.response.payload = .sendMessage m row.conversationId row.conversationSeq) ∧
    (AsAsked s key ↔ Uncut s key) := by
  have hinit := hrun.unique_first hd
  have hhist := hrun.history
  refine ⟨fun v hv m m' row row' hrow hrow' => ?_, fun i j c c' o o' hs hs' hc hc' => ?_,
    fun i c o hs hc v hv m row => hrun.row_asked hd hs hc hv, hrun.asAsked_iff hd⟩
  · obtain ⟨j, hj⟩ := getElem?_of_mem hv
    exact hhist.uniqueClientMessages hinit hj m m' row row' key hrow hrow'
  · obtain ⟨n, v, m, row, k, -, hv, hrow, hkey, -, -, hpayload, hfresh⟩ := hrun.accepted hs hc
    obtain ⟨n', v', m', row', k', -, hv', hrow', hkey', -, -, hpayload', hfresh'⟩ := hrun.accepted hs' hc'
    obtain ⟨rfl, hsame⟩ := hhist.same_message hinit hv hv' hrow hrow' hkey hkey'
    refine ⟨?_, fun hne hne' => ?_⟩
    · rw [hpayload, hpayload']
      rcases hsame with hsame | hsame <;> rw [← hsame]
    · -- the key was free just before the message was stored, so both stored it at the same version
      obtain ⟨⟨σ, hi, hdone⟩, t, u, rfl, hu, hfree⟩ := hfresh hne
      obtain ⟨⟨τ, hj, hdone'⟩, t', u', rfl, hu', hfree'⟩ := hfresh' hne'
      have after : ∀ {t t' : ℕ} {u v : Version Db Key} {m : ℤ} {row : Message},
          s.versions[t + 1]? = some v → v.db.messages.get m = some row → row.clientKey = some key →
          s.versions[t']? = some u → u.db.NoClientMessage key → t' ≤ t := by
        intro t t' u v m row hv hrow hkey hu hfree
        by_contra hlt
        obtain ⟨row₁, hrow₁, hsame⟩ := hhist.message (by omega) hv hu hrow
        exact hfree m row₁ hrow₁ (hsame.clientKey.trans hkey)
      obtain rfl : t = t' :=
        Nat.le_antisymm (after hv' hrow' hkey' hu hfree) (after hv hrow hkey hu' hfree')
      exact hrun.coherent.done_inj i j σ τ (t + 1) hi hj hdone hdone'

omit [Collation]

/-- A text from one friend to the other. -/
def greeting : Command where
  actorUid := 1
  actorDeviceId := "phone"
  request := .sendText 2 "hi" "a"

set_option maxRecDepth 4000 in
/-- A text sent twice is one message, delivered once, with the content that was sent. -/
theorem accepted_once_on_retry : ∃ (s : ServiceStore) (o o' : Outcome),
    @Serves .binary friendsStore s ∧ Succeeds s 0 greeting o ∧ Succeeds s 1 greeting o' ∧
      o.deliveries ≠ [] ∧ o.response.payload = o'.response.payload ∧ o'.deliveries = [] ∧
      @AsAsked .binary s (1, "a") := by
  have hrun : ∃ (s : ServiceStore) (o o' : Outcome) (σ σ' : Handling), @Serves .binary friendsStore s ∧
      Succeeds s 0 greeting o ∧ Succeeds s 1 greeting o' ∧ o.deliveries ≠ [] ∧ s.sessions = [σ, σ'] ∧
      σ.op = greeting ∧ σ'.op = greeting :=
    ⟨_, _, _, _, _, ⟨[.begin greeting, .act 0 1, .act 0 0, .act 0 0, .act 0 0, .act 0 0, .act 0 0, .act 0 0,
      .act 0 0, .act 0 1, .act 0 0, .begin greeting, .act 1 1, .act 1 0, .act 1 0, .act 1 0, .act 1 0,
      .act 1 0, .act 1 0, .act 1 0], rfl⟩, ⟨_, rfl, rfl, rfl, rfl⟩, ⟨_, rfl, rfl, rfl, rfl⟩, by rintro ⟨⟩, rfl, rfl,
      rfl⟩
  obtain ⟨s, o, o', σ, σ', hrun, hs, hs', hstaged, hsessions, hσ, hσ'⟩ := hrun
  have hmessage : ∀ m, friendsStore.messages.get m = none := fun _ => rfl
  obtain ⟨-, hsame, -, hasked⟩ := @accepted_once Collation.binary friendsStore s hrun
    (by simp [Db.UniqueClientMessages, hmessage]) (1, "a")
  obtain ⟨hpayload, hstage⟩ := hsame 0 1 greeting greeting o o' hs hs' rfl rfl
  refine ⟨s, o, o', hrun, hs, hs', hstaged, hpayload, ?_, hasked.2 ?_⟩
  · by_contra hagain
    exact absurd (hstage hstaged hagain) (by decide)
  · rintro i c _ ⟨τ, hi, rfl, -⟩ - - k receiver type content hsends
    have hτ : τ.op = greeting := by
      have hmem := mem_of_getElem? hi
      rw [hsessions, mem_pair] at hmem
      rcases hmem with rfl | rfl
      · exact hσ
      · exact hσ'
    rw [hτ] at hsends
    cases hsends
    exact text_fits (by decide)

/-- Letters and one space at the end. -/
def spaced (n : ℕ) : String := String.ofList (List.replicate n 'a' ++ [' '])

theorem utf8ByteSize_letters (n : ℕ) : (String.ofList (List.replicate n 'a')).utf8ByteSize = n := by
  induction n with
  | zero => rfl
  | succ n ih =>
    have hpush : String.ofList (List.replicate (n + 1) 'a') = (String.ofList (List.replicate n 'a')).push 'a' :=
      String.toList_inj.1 (by simp [replicate_succ'])
    rw [hpush, String.utf8ByteSize_push, ih]
    rfl

theorem utf8ByteSize_spaced (n : ℕ) : (spaced n).utf8ByteSize = n + 1 := by
  have hpush : spaced n = (String.ofList (List.replicate n 'a')).push ' ' :=
    String.toList_inj.1 (by simp [spaced])
  rw [hpush, String.utf8ByteSize_push, utf8ByteSize_letters]
  rfl

/-- The space is one too many for a column that keeps the letters. -/
theorem cut_spaced (n : ℕ) : cut n (n + 1) (spaced n) = String.ofList (List.replicate n 'a') := by
  have hlength : (spaced n).length - (n + 1 - n) = n := by
    rw [spaced, String.length_ofList, length_append, length_replicate, length_singleton]
    omega
  rw [cut, if_neg (by omega), hlength]
  simp [spaced]

theorem text_spaced : text (spaced 65535) = String.ofList (List.replicate 65535 'a') := by
  rw [text, utf8ByteSize_spaced, cut_spaced]

theorem text_spaced_ne : text (spaced 65535) ≠ spaced 65535 := by
  intro h
  have := congrArg String.utf8ByteSize h
  rw [text_spaced, utf8ByteSize_letters, utf8ByteSize_spaced] at this
  omega

/-- A text of the first friend. -/
def tells (content : String) : Command := { greeting with request := .sendText 2 content "a" }

/-- Handled alone, a text that fits once it has been cut is answered with success, and stored as it was cut. -/
theorem tells_course {content : String} (hne : content ≠ "") (hfits : TextsFit "a" content) :
    let _ := Collation.binary
    (Setting.alone Unused).Course (fun o d' _ _ => o.response.error = .Success ∧
      ∃ (m : ℤ) (row : Message), d'.messages.get m = some row ∧ row.clientKey = some (1, "a") ∧
        row.content = text content) (Service.process (tells content)) friendsStore none false := by
  intro _
  refine process_safe (R := fun o d' _ => o.response.error = .Success ∧ ∃ (m : ℤ) (row : Message),
    d'.messages.get m = some row ∧ row.clientKey = some (1, "a") ∧ row.content = text content) ?_
  refine .bind (.imp (acceptText_safe friendsStore_numbered 2 content "a") ?_)
  rintro a d' ws ⟨rfl, hsends⟩
  rw [if_neg (by simp [tells, greeting, hne])] at hsends
  obtain ⟨r, message, push, hsends, rfl⟩ := hsends
  have hfriends : friendConversation 1 2 friendsStore = some 5 := by decide
  refine .pure ?_
  cases hsends with
  | strangers hnone => cases hfriends.symm.trans hnone
  | conflict _ hstored | duplicate _ _ hstored => cases hstored
  | unfit _ hunfit => exact absurd hfits hunfit.texts
  | @fresh cid conv n us hfriends hconv hnew hn =>
    refine ⟨rfl, n, (textOperation (tells content) 2 content "a").stored cid (conv.latestSeq + 1), ?_,
      (Message.clientKey_stored _).trans ((clientKey_eq (s := 1) (c := "a") rfl rfl).trans (by decide)), rfl⟩
    rw [applyAll_append]
    exact Table.get_set_self _ _ _

/-- A text that is longer than the column of its content, by one space, is answered with success, and the row has
    other bytes. -/
theorem accepted_otherwise : let _ := Collation.binary
    ∃ (s : ServiceStore) (o : Outcome) (m : ℤ) (row : Message), Serves friendsStore s ∧
      Succeeds s 0 (tells (spaced 65535)) o ∧ s.cur.db.messages.get m = some row ∧ row.clientKey = some (1, "a") ∧
      row.content ≠ spaced 65535 ∧ ¬ AsAsked s (1, "a") := by
  intro _
  have hne : spaced 65535 ≠ "" := fun h => by
    have := utf8ByteSize_spaced 65535
    rw [h] at this
    cases this
  have hfits : TextsFit "a" (spaced 65535) := by
    rw [TextsFit, text_spaced, utf8ByteSize_letters]
    exact ⟨by decide, le_rfl⟩
  have hcourse := tells_course hne hfits
  obtain ⟨s, o, halone⟩ := exists_handledAlone (s := Sys.init friendsStore) hcourse (by simp [Sys.init])
  obtain ⟨σ, hs, hop, ho, hok, m, row, hrow, hkey, hcontent⟩ := halone.answer hcourse
  have hother : row.content ≠ spaced 65535 := hcontent ▸ text_spaced_ne
  have hsucceeds : Succeeds s 0 (tells (spaced 65535)) o := ⟨σ, by simp [hs, Sys.init], hop, ho, hok⟩
  refine ⟨s, o, m, row, halone.serves ⟨[], rfl⟩, hsucceeds, hrow, hkey, hother, fun hasked => ?_⟩
  obtain ⟨⟨k, hsends⟩, -⟩ :=
    hasked 0 _ o hsucceeds rfl s.cur (mem_of_getElem? s.cur_now) m row hrow hkey
  exact hother hsends.content_text

end Imm
