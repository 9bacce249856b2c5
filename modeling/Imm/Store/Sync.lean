import Imm.Store.Lasting

/-! Incremental sync. A page carries consecutive numbers, from the one after the client's position to
    the page's bound or the latest number its first SELECT saw; messages are numbered without gap and
    a number that has been seen never changes hands, so the second SELECT may run on a later version.
    Pages that follow one another then make one gapless list. -/

namespace Imm

open Txn SQL MysqlStore List Table Nat

theorem take_range' (a n k : ℕ) : (List.range' a n).take k = List.range' a (min k n) :=
  ext_getElem (by simp) (by simp)

/-! ### One page -/

section page

variable {rows : List ConversationMessageRecord}

theorem collect_eq (bound : ℕ) : ∀ (rows : List ConversationMessageRecord) (sync : ConversationSyncResult),
    sync.messages.length ≤ bound →
    collect bound rows sync = { sync with
      messages := sync.messages ++ rows.take (bound - sync.messages.length)
      hasMore := sync.hasMore || decide (bound - sync.messages.length < rows.length)
      nextSeq := ((rows.take (bound - sync.messages.length)).getLast?.map
        fun row => (row.message.conversationSeq : ℤ)).getD sync.nextSeq }
  | [], sync, _ => by simp [collect]
  | row :: rows, sync, hle => by
    rw [collect]
    split
    · rename_i hfull
      have : bound - sync.messages.length = 0 := by omega
      simp [this]
    rename_i hfits
    obtain ⟨k, hk⟩ : ∃ k, bound - sync.messages.length = k + 1 :=
      ⟨bound - sync.messages.length - 1, by omega⟩
    have hk' : bound - (sync.messages ++ [row]).length = k := by simp; omega
    rw [collect_eq bound rows _ (by simp; omega), hk']
    simp only [hk, take_succ_cons, append_assoc, singleton_append, length_cons, Nat.add_lt_add_iff_right]
    cases hrows : (rows.take k).getLast? <;> simp [getLast?_cons, hrows]

/-- A page is a bounded part of the rows; one row more sets `hasMore`. -/
theorem syncPage_eq (op : SyncConversation) (c : Conversation) (m : UserState)
    (rows : List ConversationMessageRecord) :
    syncPage op c m rows = {
      error := .Success
      conversationType := some c.type
      latestSeq := c.latestSeq
      messages := rows.take (boundedCount op.pullCount)
      hasMore := decide (boundedCount op.pullCount < rows.length)
      nextSeq := ((rows.take (boundedCount op.pullCount)).getLast?.map
        fun row => (row.message.conversationSeq : ℤ)).getD (max op.afterSeq ((m.joinedSeq : ℤ) - 1)) } := by
  have hcollect := collect_eq (boundedCount op.pullCount) rows
    { latestSeq := c.latestSeq, conversationType := some c.type } (zero_le _)
  simp only [syncPage, hcollect]
  cases hlast : (rows.take (boundedCount op.pullCount)).getLast? with
  | none =>
    have hnil := getLast?_eq_none_iff.1 hlast
    simp [hnil]
  | some row =>
    have hne : rows.take (boundedCount op.pullCount) ≠ [] := by
      rintro hnil
      simp [hnil] at hlast
    simp [hne]

theorem boundedCount_pos (n : ℤ) : 0 < boundedCount n := by
  simp only [boundedCount]
  omega

end page

section history

variable [Collation] {d : Db} {c : ℤ} {conv : Conversation} {now : String} {lo hi limit : ℕ}

theorem mem_historyRows {after upTo : ℤ} {r : ConversationMessageRecord}
    (hr : r ∈ historyRows now c after upTo limit d) :
    d.messages.get r.messageId = some r.message ∧ r.message.conversationId = c := by
  obtain ⟨e, he, rfl⟩ := mem_map.1 hr
  have hmem := (mem_insertionSort _).1 (mem_of_mem_take he)
  obtain ⟨hrow, hcond⟩ := mem_filter.1 hmem
  exact ⟨mem_rows.1 hrow, (of_decide_eq_true hcond).1⟩

/-- Up to the head the numbers are complete, so the rows of the history query are numbered
    consecutively. -/
theorem historyRows_seqs (now : String) (lo limit : ℕ) (hg : d.Gapless) (hconv : d.conversations.get c = some conv)
    (hhi : hi ≤ conv.latestSeq) :
    (historyRows now c lo hi limit d).map (·.message.conversationSeq) =
      (List.range' (lo + 1) (hi - lo)).take limit := by
  obtain ⟨-, hall⟩ := hg c conv hconv
  let rows := d.messages.rows.filter fun e => decide (e.2.conversationId = c ∧
    (lo : ℤ) < e.2.conversationSeq ∧ (e.2.conversationSeq : ℤ) ≤ hi)
  let seq : ℤ × Message → ℕ := fun e => e.2.conversationSeq
  have hmem : ∀ e, e ∈ rows ↔ d.messages.get e.1 = some e.2 ∧ e.2.conversationId = c ∧
      lo < seq e ∧ seq e ≤ hi := by
    intro e
    simp [rows, seq, mem_rows (k := e.1) (r := e.2)]
  have hnodup : (rows.map seq).Nodup := by
    refine .map_on ?_ (d.messages.nodup_rows.filter _)
    intro e he f hf hef
    obtain ⟨hget, hc, hlo, hle⟩ := (hmem e).1 he
    obtain ⟨hget', hc', -, -⟩ := (hmem f).1 hf
    obtain ⟨m, -, huniq⟩ := hall (seq e) (by omega) (by omega)
    have hid : e.1 = f.1 := (huniq e.1 ⟨e.2, hget, hc, rfl⟩).trans
      (huniq f.1 ⟨f.2, hget', hc', hef.symm⟩).symm
    exact Prod.ext hid (Option.some.inj (hget.symm.trans (hid ▸ hget')))
  have hsorted : (rows.insertionSort fun e f => e.2.conversationSeq ≤ f.2.conversationSeq).map seq =
      List.range' (lo + 1) (hi - lo) := by
    refine List.Perm.eq_of_sortedLE ?_ (sortedLE_range' _ _ _) ?_
    · have : Std.Total fun e f : ℤ × Message => e.2.conversationSeq ≤ f.2.conversationSeq :=
        ⟨fun e f => le_total _ _⟩
      have : IsTrans (ℤ × Message) fun e f => e.2.conversationSeq ≤ f.2.conversationSeq :=
        ⟨fun _ _ _ => le_trans⟩
      exact (pairwise_map.2 (pairwise_insertionSort _ rows)).sortedLE
    · refine ((perm_insertionSort _ rows).map seq).trans ?_
      refine (perm_ext_iff_of_nodup hnodup (nodup_range')).2 fun q => ?_
      rw [mem_range'_1]
      constructor
      · intro hq
        obtain ⟨e, he, rfl⟩ := mem_map.1 hq
        obtain ⟨-, -, hlo, hle⟩ := (hmem e).1 he
        omega
      · intro hq
        obtain ⟨m, ⟨row, hget, hc, rfl⟩, -⟩ := hall q (by omega) (by omega)
        exact mem_map.2 ⟨(m, row), (hmem _).2 ⟨hget, hc, by simp [seq]; omega⟩, rfl⟩
  rw [← hsorted, ← map_take, historyRows, map_map]
  rfl

/-- What the page of a client at `first` contains. -/
structure Page (c first : ℤ) (d : Db) (r : ConversationSyncResult) : Prop where
  stored : ∀ e ∈ r.messages, d.messages.get e.messageId = some e.message ∧ e.message.conversationId = c
  increasing : (r.messages.map (·.message.conversationSeq)).Pairwise (· < ·)
  numbers : ∀ q : ℕ, q ∈ r.messages.map (·.message.conversationSeq) ↔ first < q ∧ (q : ℤ) ≤ r.nextSeq
  first_le : first ≤ r.nextSeq
  more : r.hasMore = true ↔ r.nextSeq < r.latestSeq
  nonempty : r.hasMore = true → r.messages ≠ []

theorem syncPage_page (hg : d.Gapless) (hconv : d.conversations.get c = some conv)
    {op : SyncConversation} {c₁ : Conversation} (hlatest : c₁.latestSeq ≤ conv.latestSeq)
    (st : UserState) (hafter : 0 ≤ op.afterSeq) :
    Page c (max op.afterSeq ((st.joinedSeq : ℤ) - 1)) d
      (syncPage op c₁ st (historyRows op.now c (max op.afterSeq ((st.joinedSeq : ℤ) - 1)) c₁.latestSeq
        (boundedCount op.pullCount + 1) d)) := by
  obtain ⟨lo, hlo⟩ : ∃ lo : ℕ, max op.afterSeq ((st.joinedSeq : ℤ) - 1) = lo :=
    ⟨(max op.afterSeq ((st.joinedSeq : ℤ) - 1)).toNat, by omega⟩
  rw [syncPage_eq, hlo]
  have hpos := boundedCount_pos op.pullCount
  have hseqs := historyRows_seqs op.now lo (boundedCount op.pullCount + 1) hg hconv hlatest
  have hsub : ∀ e ∈ historyRows op.now c lo c₁.latestSeq (boundedCount op.pullCount + 1) d,
      d.messages.get e.messageId = some e.message ∧ e.message.conversationId = c :=
    fun e he => mem_historyRows he
  generalize historyRows op.now c lo c₁.latestSeq (boundedCount op.pullCount + 1) d = rows at hseqs hsub
  generalize boundedCount op.pullCount = bound at *
  have hlen : rows.length = min (bound + 1) (c₁.latestSeq - lo) := by
    simpa using congrArg List.length hseqs
  -- the page proper: the bound and the rows that are there, whichever is less
  obtain ⟨k, hk⟩ : ∃ k, k = min bound (c₁.latestSeq - lo) := ⟨_, rfl⟩
  have hpage : (rows.take bound).map (·.message.conversationSeq) = List.range' (lo + 1) k := by
    rw [map_take, hseqs, take_take, take_range', hk, min_eq_left (le_succ bound)]
  have hnext : ((rows.take bound).getLast?.map fun e => (e.message.conversationSeq : ℤ)).getD lo =
      lo + k := by
    have hlast := congrArg List.getLast? hpage
    rw [getLast?_map, getLast?_range'] at hlast
    rw [← Function.comp_def (fun n : ℕ => (n : ℤ)), ← Option.map_map, hlast]
    split
    · rename_i hzero
      simp [hzero]
    simp only [Option.map_some, Option.getD_some]
    omega
  have hmore : bound < rows.length ↔ (lo + k : ℤ) < c₁.latestSeq := by omega
  refine ⟨fun e he => hsub e (mem_of_mem_take he), ?_, fun q => ?_, ?_, ?_, ?_⟩
  · rw [hpage]
    exact pairwise_lt_range'
  · simp only [hpage, hnext, mem_range'_1]
    omega
  · simp only [hnext]
    omega
  · rw [hnext, decide_eq_true_iff]
    exact hmore
  · intro hm hnil
    rw [decide_eq_true_iff] at hm
    have := congrArg List.length hnil
    rw [length_take, length_nil] at this
    omega

end history

/-! ### Pages in a row -/

/-- `Pulls s c u b after pages e next`: in the run that led to `s`, user `u` pulled `pages` of
    conversation `c` one after the other, from version `b` to version `e`. The first call gave
    `after` as its position, each later call the `nextSeq` it had been answered, `next` is the last. -/
inductive Pulls (s : Store) (c u : ℤ) :
    ℕ → ℤ → List ConversationSyncResult → ℕ → ℤ → Prop
  | done (b : ℕ) (after : ℤ) : Pulls s c u b after [] b after
  | page {b e : ℕ} {after next : ℤ} {pages : List ConversationSyncResult}
      {σ : Session Db Key Write Reply Operation} {op : SyncConversation} {r : ConversationSyncResult}
      (hσ : σ ∈ s.sessions) (hop : σ.op = .syncConversation op) (hc : op.conversationId = c)
      (hu : op.uid = u) (hafter : op.afterSeq = after) (hb : b ≤ σ.began)
      (hr : σ.prog = .ret (.synced r)) (hok : r.error = .Success)
      (rest : Pulls s c u σ.seen r.nextSeq pages e next) : Pulls s c u b after (r :: pages) e next

/-- What a client that was at `first` has received when it is at `next`; `d` is the store at the time
    it began. -/
structure Received (s : Store) (c : ℤ) (d : Db) (after first : ℤ)
    (pages : List ConversationSyncResult) (next : ℤ) : Prop where
  increasing : ((pages.flatMap (·.messages)).map (·.message.conversationSeq)).Pairwise (· < ·)
  exact : ∀ m, m ∈ (pages.flatMap (·.messages)).map (·.messageId) ↔
    ∃ row, s.cur.db.messages.get m = some row ∧ row.conversationId = c ∧
      first < row.conversationSeq ∧ (row.conversationSeq : ℤ) ≤ next
  same : ∀ e ∈ pages.flatMap (·.messages),
    ∃ row, s.cur.db.messages.get e.messageId = some row ∧ e.message.Same row
  more : ∀ p ∈ pages, p.hasMore = true ↔ p.nextSeq < p.latestSeq
  nonempty : ∀ p ∈ pages, p.hasMore = true → p.messages ≠ []
  monotone : (after :: pages.map (·.nextSeq)).Pairwise (· ≤ ·)
  next_eq : next = (pages.map (·.nextSeq)).getLastD after
  /-- a page without `hasMore` ends behind everything that was there -/
  complete : ∀ p ∈ pages, p.hasMore = false → ∀ m row, d.messages.get m = some row →
    row.conversationId = c → (row.conversationSeq : ℤ) ≤ p.nextSeq

variable [Collation]

omit [Collation] in
theorem membership_eq_some {c u : ℤ} {d : Db} {conv : Conversation} {st : UserState}
    (h : membership c u d = some (conv, st)) :
    d.conversations.get c = some conv ∧ d.conversationUserStates.get (c, u) = some st := by
  simp only [membership, Option.bind_eq_bind, Option.bind_eq_some_iff] at h
  obtain ⟨conv', hconv, st', hst, h⟩ := h
  split at h
  · cases h
    exact ⟨hconv, hst⟩
  · cases h

variable {s : Store} {r : ConversationSyncResult} {after next first : ℤ}
  {pages : List ConversationSyncResult}

theorem Runs.synced {d : Db} (hrun : Runs d s) {σ : Session Db Key Write Reply Operation}
    {op : SyncConversation} (hσ : σ ∈ s.sessions) (hop : σ.op = .syncConversation op)
    (hr : σ.prog = .ret (.synced r)) (hok : r.error = .Success) : Synced s.versions op r σ.began σ.seen := by
  have hans := hrun.coherent.answer hσ hr
  rw [hop] at hans
  exact hans hok

theorem Pulls.le {d : Db} (hrun : Runs d s) {c u : ℤ} {b e : ℕ} (h : Pulls s c u b after pages e next) : b ≤ e := by
  induction h with
  | done => exact le_refl _
  | page hσ hop _ _ _ hb hr hok _ ih =>
    obtain ⟨t₁, t₂, _, _, _, _, h₁, h₂, h₃, _⟩ := hrun.synced hσ hop hr hok
    omega

theorem Page.received {d : Db} (hrun : Runs d s) (hgapless : s.cur.db.Gapless)
    (hattached : s.cur.db.Attached) {c : ℤ} {t : ℕ} {v : Version Db Key} (hv : s.versions[t]? = some v)
    (hpage : Page c first v.db r) :
    (∀ m, m ∈ r.messages.map (·.messageId) ↔ ∃ row, s.cur.db.messages.get m = some row ∧
      row.conversationId = c ∧ first < row.conversationSeq ∧ (row.conversationSeq : ℤ) ≤ r.nextSeq) ∧
    ∀ e ∈ r.messages, ∃ row, s.cur.db.messages.get e.messageId = some row ∧ e.message.Same row := by
  have hcur := s.cur_now
  have hnow := Sys.le_now hv
  have hsame : ∀ e ∈ r.messages, ∃ row, s.cur.db.messages.get e.messageId = some row ∧ e.message.Same row :=
    fun e he => hrun.history.message hnow hv hcur (hpage.stored e he).1
  refine ⟨fun m => ⟨fun hm => ?_, ?_⟩, hsame⟩
  · obtain ⟨e, he, rfl⟩ := mem_map.1 hm
    obtain ⟨row, hrow, hs⟩ := hsame e he
    have hnum := (hpage.numbers e.message.conversationSeq).1 (mem_map_of_mem he)
    exact ⟨row, hrow, by rw [← hs]; exact (hpage.stored e he).2, by rw [← hs]; exact hnum⟩
  · rintro ⟨row, hrow, hc, hnum⟩
    obtain ⟨e, he, hseq⟩ := mem_map.1 ((hpage.numbers row.conversationSeq).2 hnum)
    obtain ⟨row', hrow', hs⟩ := hsame e he
    obtain ⟨conv, hconv⟩ := Option.isSome_iff_exists.1 (hattached m row hrow)
    obtain ⟨hin, hall⟩ := hgapless c conv (hc ▸ hconv)
    have hle := hin m row hrow hc
    obtain ⟨_, -, huniq⟩ := hall row.conversationSeq hle.1 hle.2
    have hid : m = e.messageId := (huniq m ⟨row, hrow, hc, rfl⟩).trans
      (huniq e.messageId ⟨row', hrow', by rw [← hs]; exact (hpage.stored e he).2, by rw [← hs]; exact hseq⟩).symm
    exact hid ▸ mem_map_of_mem he

omit [Collation] in
theorem Received.le_next {c : ℤ} {d : Db} (h : Received s c d after first pages next) :
    after ≤ next := by
  rw [h.next_eq]
  cases hlast : (pages.map (·.nextSeq)).getLast? with
  | none => simp [getLastD_eq_getLast?, hlast]
  | some q =>
    rw [getLastD_eq_getLast?, hlast]
    exact (pairwise_cons.1 h.monotone).1 q (mem_of_getLast? hlast)

omit [Collation] in
theorem Received.cons {c : ℤ} {d d' d₂ : Db} (hafter : after ≤ first)
    (hpage : Page c first d₂ r)
    (hexact : ∀ m, m ∈ r.messages.map (·.messageId) ↔ ∃ row, s.cur.db.messages.get m = some row ∧
      row.conversationId = c ∧ first < row.conversationSeq ∧ (row.conversationSeq : ℤ) ≤ r.nextSeq)
    (hsame : ∀ e ∈ r.messages,
      ∃ row, s.cur.db.messages.get e.messageId = some row ∧ e.message.Same row)
    (hcomplete : r.hasMore = false → ∀ m row, d.messages.get m = some row → row.conversationId = c →
      (row.conversationSeq : ℤ) ≤ r.nextSeq)
    (hlasts : ∀ m row, d.messages.get m = some row →
      ∃ row', d'.messages.get m = some row' ∧ row.Same row')
    (hrest : Received s c d' r.nextSeq r.nextSeq pages next) :
    Received s c d after first (r :: pages) next := by
  have hle := hrest.le_next
  have hfirst := hpage.first_le
  refine ⟨?_, fun m => ?_, ?_, ?_, ?_, ?_, ?_, ?_⟩
  · rw [flatMap_cons, map_append, pairwise_append]
    refine ⟨hpage.increasing, hrest.increasing, fun p hp q hq => ?_⟩
    obtain ⟨e, he, rfl⟩ := mem_map.1 hq
    obtain ⟨row, hrow, hs⟩ := hrest.same e he
    obtain ⟨row', hrow', -, hlo, -⟩ := (hrest.exact e.messageId).1 (mem_map_of_mem he)
    cases hrow.symm.trans hrow'
    rw [← hs] at hlo
    have hhi := ((hpage.numbers p).1 hp).2
    exact Int.ofNat_lt.1 (lt_of_le_of_lt hhi hlo)
  · rw [flatMap_cons, map_append, mem_append, hexact, hrest.exact]
    constructor
    · rintro (⟨row, hrow, hc, hlo, hhi⟩ | ⟨row, hrow, hc, hlo, hhi⟩)
      · exact ⟨row, hrow, hc, hlo, hhi.trans hle⟩
      · exact ⟨row, hrow, hc, lt_of_le_of_lt hfirst hlo, hhi⟩
    · rintro ⟨row, hrow, hc, hlo, hhi⟩
      rcases le_or_gt (row.conversationSeq : ℤ) r.nextSeq with hin | hout
      · exact .inl ⟨row, hrow, hc, hlo, hin⟩
      · exact .inr ⟨row, hrow, hc, hout, hhi⟩
  · intro e he
    rw [flatMap_cons, mem_append] at he
    exact he.elim (hsame e) (hrest.same e)
  · exact forall_mem_cons.2 ⟨hpage.more, hrest.more⟩
  · exact forall_mem_cons.2 ⟨hpage.nonempty, hrest.nonempty⟩
  · rw [map_cons, pairwise_cons]
    refine ⟨fun q hq => ?_, hrest.monotone⟩
    rcases mem_cons.1 hq with rfl | hq
    · exact hafter.trans hfirst
    · exact (hafter.trans hfirst).trans ((pairwise_cons.1 hrest.monotone).1 q hq)
  · rw [hrest.next_eq, map_cons, getLastD_cons]
  · refine forall_mem_cons.2 ⟨hcomplete, fun p hp hm m row hrow hc => ?_⟩
    obtain ⟨row', hrow', hs⟩ := hlasts m row hrow
    have := hrest.complete p hp hm m row' hrow' (by rw [← hs]; exact hc)
    rwa [← hs] at this

/-- Pulling page by page skips nothing and repeats nothing. -/
theorem received_of_pulls {d : Db} {s : Store} (hrun : Runs d s) (hgapless : d.Gapless)
    (hattached : d.Attached) {c u : ℤ} {b e : ℕ} {after next : ℤ}
    {pages : List ConversationSyncResult} (h : Pulls s c u b after pages e next)
    {v : Version Db Key} {st : UserState} (hv : s.versions[b]? = some v)
    (hst : v.db.conversationUserStates.get (c, u) = some st)
    (hstay : ∀ j w, b ≤ j → j ≤ e → s.versions[j]? = some w →
      (w.db.conversationUserStates.get (c, u)).isSome) :
    Received s c v.db after (max after ((st.joinedSeq : ℤ) - 1)) pages next := by
  have hgood : ∀ (j : ℕ) (w : Version Db Key), s.versions[j]? = some w →
      w.db.Gapless ∧ w.db.Attached := fun _ _ hw => hrun.gapless hgapless hattached hw
  have hcur := hgood s.now s.cur s.cur_now
  induction h generalizing v st with
  | done b after =>
    refine ⟨by simp, fun m => ?_, by simp, by simp, by simp, by simp, rfl, by simp⟩
    simp only [flatMap_nil, map_nil, not_mem_nil, false_iff]
    rintro ⟨row, -, -, hlo, hhi⟩
    omega
  | @page b e after next pages σ op r hσ hop hc hu hafter hb hr hok rest ih =>
    subst hc hu hafter
    obtain ⟨t₁, t₂, v₁, v₂, c₁, st₁, h₁, h₂, h₃, hv₁, hv₂, hpos, hmember, hpage⟩ :=
      hrun.synced hσ hop hr hok
    obtain ⟨hconv₁, hst₁⟩ := membership_eq_some hmember
    have hend := rest.le hrun
    -- the position of the client only depends on the participant row, which stays
    have hjoined₁ : st₁.joinedSeq = st.joinedSeq :=
      hrun.history.joinedSeq (by omega) hv hv₁ hst hst₁ fun n w hn hn' => hstay n w hn (by omega)
    obtain ⟨conv₂, hconv₂, hext⟩ := hrun.history.conversation h₂ hv₁ hv₂ hconv₁
    have hpage₂ := syncPage_page (hgood t₂ v₂ hv₂).1 hconv₂ hext.latestSeq st₁ hpos
    rw [← hpage, hjoined₁] at hpage₂
    obtain ⟨hexact, hsame⟩ := hpage₂.received hrun hcur.1 hcur.2 hv₂
    -- the rest of the pages starts where this one ends
    have hlt : σ.seen < s.versions.length := by
      have := hrun.coherent.seen_le σ hσ
      simp only [Sys.versions, length_append, length_singleton]
      exact lt_succ_of_le this
    obtain ⟨w, hw⟩ : ∃ w, s.versions[σ.seen]? = some w := ⟨_, getElem?_eq_getElem hlt⟩
    obtain ⟨st', hst'⟩ := Option.isSome_iff_exists.1 (hstay σ.seen w (by omega) hend hw)
    have hjoined' : st'.joinedSeq = st.joinedSeq :=
      hrun.history.joinedSeq (by omega) hv hw hst hst' fun n w hn hn' => hstay n w hn (by omega)
    have hrest := ih hw hst' fun j w hj hj' => hstay j w (by omega) hj'
    have hfirst := hpage₂.first_le
    rw [hjoined', max_eq_left (by omega)] at hrest
    refine .cons (le_max_left _ _) hpage₂ hexact hsame (fun hm m row hrow hc => ?_)
      (fun m row hrow => hrun.history.message (by omega) hv hw hrow) hrest
    -- whatever was there at the beginning is not above the latest number this page saw
    obtain ⟨conv, hconv⟩ := Option.isSome_iff_exists.1 ((hgood b v hv).2 m row hrow)
    rw [hc] at hconv
    obtain ⟨conv', hconv', hext'⟩ := hrun.history.conversation (by omega) hv hv₁ hconv
    obtain rfl : conv' = c₁ := Option.some.inj (hconv'.symm.trans hconv₁)
    have hin := ((hgood b v hv).1 op.conversationId conv hconv).1 m row hrow hc
    have hlatest : r.latestSeq = conv'.latestSeq := by rw [hpage, syncPage_eq]
    have hmore := hpage₂.more
    have hext'' := hext'.latestSeq
    simp only [hm, Bool.false_eq_true, false_iff, not_lt] at hmore
    omega

omit [Collation]

/-- The conversation of two friends with two messages in it. -/
def chatStore : Db where
  conversations := .ofList [(5, { type := .direct, businessId := 7, latestSeq := 2, createTime := "" })]
  conversationUserStates := .ofList [((5, 2), { joinedSeq := 1 })]
  messages := .ofList [(1, (⟨1, 2, "a", "hi", "", .TEXT⟩ : AcceptDirectText).message 5 1),
    (2, (⟨1, 2, "b", "hello", "", .TEXT⟩ : AcceptDirectText).message 5 2)]

theorem chatStore_gapless : chatStore.Gapless ∧ chatStore.Attached := by
  have hrows : ∀ m row, chatStore.messages.get m = some row →
      row.conversationId = 5 ∧ (m = 1 ∧ row.conversationSeq = 1 ∨ m = 2 ∧ row.conversationSeq = 2) := by
    intro m row h
    simp only [chatStore, Table.ofList, List.foldr, get_set, get_empty] at h
    split at h
    · cases h
      exact ⟨rfl, .inl ⟨by assumption, rfl⟩⟩
    split at h
    · cases h
      exact ⟨rfl, .inr ⟨by assumption, rfl⟩⟩
    · cases h
  refine ⟨fun c conv hconv => ?_, fun m row h => by rw [(hrows m row h).1]; rfl⟩
  obtain ⟨rfl, rfl⟩ : c = 5 ∧ ⟨.direct, 7, 2, ""⟩ = conv := by
    simpa [chatStore, Table.ofList, get_set] using hconv
  refine ⟨fun m row h _ => ?_, fun q h1 h2 => ?_⟩
  · rcases (hrows m row h).2 with ⟨-, hq⟩ | ⟨-, hq⟩ <;> simp [hq]
  · refine ⟨q, ?_, ?_⟩
    · obtain rfl | rfl : q = 1 ∨ q = 2 := by simp only at h2; omega
      · exact ⟨_, rfl, rfl, rfl⟩
      · exact ⟨_, rfl, rfl, rfl⟩
    · rintro m ⟨row, h, -, hq⟩
      rcases (hrows m row h).2 with ⟨rfl, hq'⟩ | ⟨rfl, hq'⟩ <;> omega

/-- Two messages pulled one by one. -/
theorem received_two_pages : ∃ (s : Store) (pages : List ConversationSyncResult),
    @Runs .binary chatStore s ∧ Pulls s 5 2 0 0 pages 0 2 ∧
      Received s 5 chatStore 0 0 pages 2 := by
  let pull (n : ℤ) : SyncConversation := {
    uid := 2, conversationId := 5, afterSeq := n, pullCount := 1, now := "" }
  let page (n : ℕ) (k content : String) (more : Bool) : ConversationSyncResult := {
    error := .Success, conversationType := some .direct, latestSeq := 2, nextSeq := n, hasMore := more,
    messages := [⟨n, (⟨1, 2, k, content, "", .TEXT⟩ : AcceptDirectText).message 5 n, none⟩] }
  let pages := [page 1 "a" "hi" true, page 2 "b" "hello" false]
  have hrun : ∃ s : Store, @Runs .binary chatStore s ∧ s.versions = [⟨chatStore, []⟩] ∧
      Pulls s 5 2 0 0 pages 0 2 := by
    refine ⟨_, ⟨[.begin (.syncConversation (pull 0)), .act 0 0, .act 0 0,
      .begin (.syncConversation (pull 1)), .act 1 0, .act 1 0], rfl⟩, rfl, ?_⟩
    refine .page (mem_of_getElem? (i := 0) rfl) rfl rfl rfl rfl (le_refl 0) rfl rfl ?_
    refine .page (mem_of_getElem? (i := 1) rfl) rfl rfl rfl rfl (le_refl 0) rfl rfl ?_
    exact .done 0 2
  obtain ⟨s, hrun, hV, hpulls⟩ := hrun
  refine ⟨s, pages, hrun, hpulls, ?_⟩
  refine @received_of_pulls .binary chatStore s hrun chatStore_gapless.1 chatStore_gapless.2
    5 2 0 0 0 2 pages hpulls ⟨chatStore, []⟩ { joinedSeq := 1 } (by rw [hV]; rfl) rfl ?_
  intro j w _ hj hw
  obtain rfl : j = 0 := by omega
  rw [hV] at hw
  cases hw
  rfl

end Imm
