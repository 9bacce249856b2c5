import Imm.Link.Gateway
import Imm.Schemes.Choice

/-! Which link `select_grpc_link` chooses. Its loop runs over the table in whatever order the table has and
    keeps the best of the healthy links so far: by the score of the conversation and the node, or, without
    a conversation, by the number of commands in flight. A choice by scores depends on nothing but the
    nodes that are healthy. -/

namespace Imm

open List

namespace GatewayDriver

variable (d : GatewayDriver) {d' : GatewayDriver} {conversationId : ℤ}

/-- The rows of the table that the loop does not skip. -/
def healthyLinks : List (String × ℕ) := d.messageLinks.filter fun row => (d.links row.2).isHealthy

def score (conversationId : ℤ) (row : String × ℕ) : ℕ :=
  d.options.hash (toString conversationId ++ ":" ++ row.1)

def inflight (row : String × ℕ) : ℕ := (d.links row.2).inflight

/-- No two healthy links have the same score. -/
def DistinctScores (conversationId : ℤ) : Prop :=
  Set.InjOn (d.score conversationId) {row | row ∈ d.healthyLinks}

variable {d}

variable {row : String × ℕ} {l : ℕ}

theorem mem_healthyLinks :
    row ∈ d.healthyLinks ↔ row ∈ d.messageLinks ∧ (d.links row.2).isHealthy = true := by
  simp [healthyLinks]

/-! ### The loop -/

theorem consider_unhealthy (h : (d.links row.2).isHealthy = false) (acc : Option ℕ × ℕ) :
    d.consider conversationId acc row = acc := by
  simp [consider, h]

theorem consider_scored (hid : 0 < conversationId)
    (h : (d.links row.2).isHealthy = true) (selected : Option ℕ) (highest : ℕ) :
    d.consider conversationId (selected, highest) row =
      if selected.isNone ∨ highest < d.score conversationId row then (some row.2, d.score conversationId row)
      else (selected, highest) := by
  simp only [consider, h, Bool.not_true, Bool.false_eq_true, if_false, if_pos hid]
  rfl

/-- After any part of the table: the best link of that part, and its score. -/
theorem foldl_consider_scored (hid : 0 < conversationId) (rows : List (String × ℕ)) :
    let best := (rows.filter fun row => (d.links row.2).isHealthy).argmax (d.score conversationId)
    rows.foldl (d.consider conversationId) (none, 0) =
      (best.map (·.2), (best.map (d.score conversationId)).getD 0) := by
  induction rows using List.reverseRecOn with
  | nil => rfl
  | append_singleton rows row ih =>
    rw [foldl_append, ih, filter_append, foldl_cons, foldl_nil]
    cases hhealthy : (d.links row.2).isHealthy with
    | false => simp [consider_unhealthy hhealthy, hhealthy]
    | true =>
      simp only [consider_scored hid hhealthy, filter_cons, filter_nil, hhealthy, if_true, argmax_concat]
      cases (rows.filter fun row => (d.links row.2).isHealthy).argmax (d.score conversationId) with
      | none => simp
      | some best =>
        by_cases hscore : d.score conversationId best < d.score conversationId row <;> simp [hscore]

theorem foldl_consider_idle (hid : conversationId ≤ 0) (rows : List (String × ℕ)) :
    rows.foldl (d.consider conversationId) (none, 0) =
      (((rows.filter fun row => (d.links row.2).isHealthy).argmin d.inflight).map (·.2), 0) := by
  induction rows using List.reverseRecOn with
  | nil => rfl
  | append_singleton rows row ih =>
    rw [foldl_append, ih, filter_append, foldl_cons, foldl_nil]
    cases hhealthy : (d.links row.2).isHealthy with
    | false => simp [consider_unhealthy hhealthy, hhealthy]
    | true =>
      simp only [filter_cons, filter_nil, hhealthy, if_true, argmin_concat]
      cases (rows.filter fun row => (d.links row.2).isHealthy).argmin d.inflight with
      | none => simp [consider, hhealthy, hid.not_gt]
      | some best =>
        by_cases hless : (d.links row.2).inflight < (d.links best.2).inflight <;>
          simp [consider, inflight, hhealthy, hid.not_gt, hless]

theorem selectGrpcLink_scored (hid : 0 < conversationId) :
    d.selectGrpcLink conversationId = (d.healthyLinks.argmax (d.score conversationId)).map (·.2) := by
  rw [selectGrpcLink, foldl_consider_scored hid]
  rfl

theorem selectGrpcLink_idle (hid : conversationId ≤ 0) :
    d.selectGrpcLink conversationId = (d.healthyLinks.argmin d.inflight).map (·.2) := by
  rw [selectGrpcLink, foldl_consider_idle hid]
  rfl

theorem selectGrpcLink_none :
    d.selectGrpcLink conversationId = none ↔ ∀ row ∈ d.messageLinks, (d.links row.2).isHealthy = false := by
  have hempty : d.healthyLinks = [] ↔ ∀ row ∈ d.messageLinks, (d.links row.2).isHealthy = false := by
    simp [healthyLinks, filter_eq_nil_iff]
  rcases lt_or_ge 0 conversationId with hid | hid
  · rw [selectGrpcLink_scored hid, Option.map_eq_none_iff, argmax_eq_none, hempty]
  · rw [selectGrpcLink_idle hid, Option.map_eq_none_iff, argmin_eq_none, hempty]

theorem selectGrpcLink_minimal (hid : conversationId ≤ 0) (h : d.selectGrpcLink conversationId = some l) :
    (∃ id, (id, l) ∈ d.healthyLinks) ∧ ∀ row ∈ d.healthyLinks, (d.links l).inflight ≤ d.inflight row := by
  rw [selectGrpcLink_idle hid, Option.map_eq_some_iff] at h
  obtain ⟨⟨id, _⟩, hbest, rfl⟩ := h
  exact ⟨⟨id, argmin_mem hbest⟩, fun row hrow => le_of_mem_argmin (f := d.inflight) hrow hbest⟩

/-! ### Choices by scores -/

/-- A healthy link such that every other healthy one scores less. -/
def Favourite (d : GatewayDriver) (conversationId : ℤ) (row : String × ℕ) : Prop :=
  row ∈ d.healthyLinks ∧
    ∀ row' ∈ d.healthyLinks, row' ≠ row → d.score conversationId row' < d.score conversationId row

theorem DistinctScores.favourite (h : d.DistinctScores conversationId) :
    d.healthyLinks.argmax (d.score conversationId) = some row ↔ d.Favourite conversationId row := by
  constructor
  · intro hbest
    have hrow := argmax_mem hbest
    refine ⟨hrow, fun row' hrow' hne => ?_⟩
    refine lt_of_le_of_ne (le_of_mem_argmax hrow' hbest) fun heq => hne (h hrow' hrow heq)
  · rintro ⟨hrow, hless⟩
    refine Choice.argmax_eq_of_forall_le h hrow fun row' hrow' => ?_
    rcases eq_or_ne row' row with rfl | hne
    · exact le_rfl
    · exact (hless row' hrow' hne).le

/-- Two drivers hash alike and find the same links of these rows healthy. -/
structure Agrees (d d' : GatewayDriver) (rows : List (String × ℕ)) : Prop where
  hash : d'.options.hash = d.options.hash
  healthy : ∀ row ∈ rows, (d'.links row.2).isHealthy = (d.links row.2).isHealthy

theorem score_congr (h : d'.options.hash = d.options.hash) :
    d'.score conversationId = d.score conversationId := by
  funext row
  simp [score, h]

/-- Links that were not chosen may leave. -/
theorem selectGrpcLink_stays (hid : 0 < conversationId) (h : d.DistinctScores conversationId)
    (hhash : d'.options.hash = d.options.hash) (hsub : d'.healthyLinks ⊆ d.healthyLinks)
    (hstays : ∀ row ∈ d.healthyLinks, d.selectGrpcLink conversationId = some row.2 → row ∈ d'.healthyLinks) :
    d'.selectGrpcLink conversationId = d.selectGrpcLink conversationId := by
  rw [selectGrpcLink_scored hid] at hstays
  rw [selectGrpcLink_scored hid, selectGrpcLink_scored hid, score_congr hhash]
  congr 1
  refine Choice.argmax_of_stays (h.mono fun _ hrow => hsub hrow) hsub fun row hbest => ?_
  exact hstays row (argmax_mem hbest) (by rw [hbest]; rfl)

theorem selectGrpcLink_reordered (hid : 0 < conversationId) (h : d.DistinctScores conversationId)
    (htable : d'.messageLinks.Perm d.messageLinks) (hagrees : d.Agrees d' d.messageLinks) :
    d'.selectGrpcLink conversationId = d.selectGrpcLink conversationId := by
  have hmem : ∀ row, row ∈ d'.healthyLinks ↔ row ∈ d.healthyLinks := by
    intro row
    rw [mem_healthyLinks, mem_healthyLinks, htable.mem_iff]
    exact and_congr_right fun hrow => by rw [hagrees.healthy row hrow]
  exact selectGrpcLink_stays hid h hagrees.hash (fun row => (hmem row).1) fun row hrow _ => (hmem row).2 hrow

theorem selectGrpcLink_added (hid : 0 < conversationId) (h : d.DistinctScores conversationId)
    (htable : d'.messageLinks.Perm (row :: d.messageLinks))
    (hagrees : d.Agrees d' d.messageLinks) :
    d'.selectGrpcLink conversationId = d.selectGrpcLink conversationId ∨
      d'.selectGrpcLink conversationId = some row.2 := by
  have hsub : d.healthyLinks ⊆ d'.healthyLinks := by
    intro row' hrow'
    obtain ⟨hmem, hhealthy⟩ := mem_healthyLinks.1 hrow'
    exact mem_healthyLinks.2
      ⟨htable.mem_iff.2 (mem_cons_of_mem _ hmem), by rw [hagrees.healthy row' hmem, hhealthy]⟩
  have hnew : ∀ row' ∈ d'.healthyLinks, row' = row ∨ row' ∈ d.healthyLinks := by
    intro row' hrow'
    obtain ⟨hmem, hhealthy⟩ := mem_healthyLinks.1 hrow'
    rcases mem_cons.1 (htable.mem_iff.1 hmem) with hrow | hmem
    · exact .inl hrow
    · exact .inr (mem_healthyLinks.2 ⟨hmem, by rw [← hagrees.healthy row' hmem, hhealthy]⟩)
  rw [selectGrpcLink_scored hid, selectGrpcLink_scored hid, score_congr hagrees.hash]
  rcases Choice.argmax_insert h hsub hnew with hsame | hadded
  · exact .inl (by rw [hsame])
  · exact .inr (by rw [hadded]; rfl)

theorem selectGrpcLink_removed (hid : 0 < conversationId) (h : d.DistinctScores conversationId)
    (htable : d.messageLinks.Perm (row :: d'.messageLinks))
    (hagrees : d.Agrees d' d'.messageLinks) (hother : d.selectGrpcLink conversationId ≠ some row.2) :
    d'.selectGrpcLink conversationId = d.selectGrpcLink conversationId := by
  refine selectGrpcLink_stays hid h hagrees.hash ?_ ?_
  · intro row' hrow'
    obtain ⟨hmem, hhealthy⟩ := mem_healthyLinks.1 hrow'
    exact mem_healthyLinks.2
      ⟨htable.mem_iff.2 (mem_cons_of_mem _ hmem), by rw [← hagrees.healthy row' hmem, hhealthy]⟩
  · intro row' hrow' hchosen
    obtain ⟨hmem, hhealthy⟩ := mem_healthyLinks.1 hrow'
    rcases mem_cons.1 (htable.mem_iff.1 hmem) with rfl | hmem
    · exact absurd hchosen hother
    · exact mem_healthyLinks.2 ⟨hmem, by rw [hagrees.healthy row' hmem, hhealthy]⟩

/-- A link that is no longer healthy, or was not before, is as good as none. -/
theorem selectGrpcLink_disabled (hid : 0 < conversationId) (h : d.DistinctScores conversationId)
    (htable : d'.messageLinks.Perm d.messageLinks) (hagrees : d.Agrees d' (d.messageLinks.filter (·.2 ≠ l)))
    (hdisabled : (d'.links l).isHealthy = false) (hother : d.selectGrpcLink conversationId ≠ some l) :
    d'.selectGrpcLink conversationId = d.selectGrpcLink conversationId := by
  have hsame : ∀ row ∈ d.messageLinks, row.2 ≠ l →
      (d'.links row.2).isHealthy = (d.links row.2).isHealthy := fun row hrow hne =>
    hagrees.healthy row (mem_filter.2 ⟨hrow, by simpa using hne⟩)
  refine selectGrpcLink_stays hid h hagrees.hash ?_ ?_
  · intro row hrow
    obtain ⟨hmem, hhealthy⟩ := mem_healthyLinks.1 hrow
    have hne : row.2 ≠ l := fun heq => by simp [heq, hdisabled] at hhealthy
    have hmem := htable.mem_iff.1 hmem
    exact mem_healthyLinks.2 ⟨hmem, by rw [← hsame row hmem hne, hhealthy]⟩
  · intro row hrow hchosen
    obtain ⟨hmem, hhealthy⟩ := mem_healthyLinks.1 hrow
    have hne : row.2 ≠ l := fun heq => hother (by rw [hchosen, heq])
    exact mem_healthyLinks.2 ⟨htable.mem_iff.2 hmem, by rw [hsame row hmem hne, hhealthy]⟩

/-! ### Two gateways -/

/-- The nodes a gateway can send to. -/
def healthyNodes (d : GatewayDriver) : List String := d.healthyLinks.map (·.1)

/-- The link chosen for the conversation is the one to node `id`. -/
def RoutesTo (d : GatewayDriver) (conversationId : ℤ) (id : String) : Prop :=
  ∃ l, d.Favourite conversationId (id, l) ∧ d.selectGrpcLink conversationId = some l

theorem DistinctScores.select (h : d.DistinctScores conversationId) (hid : 0 < conversationId) :
    d.selectGrpcLink conversationId = some l ↔ ∃ id, d.Favourite conversationId (id, l) := by
  rw [selectGrpcLink_scored hid, Option.map_eq_some_iff]
  constructor
  · rintro ⟨⟨id, _⟩, hbest, rfl⟩
    exact ⟨id, h.favourite.1 hbest⟩
  · rintro ⟨id, hfavourite⟩
    exact ⟨(id, l), h.favourite.2 hfavourite, rfl⟩

theorem mem_healthyNodes {id : String} : id ∈ d.healthyNodes ↔ ∃ l, (id, l) ∈ d.healthyLinks := by
  simp [healthyNodes]

theorem score_node (id : String) (l l' : ℕ) :
    d.score conversationId (id, l) = d.score conversationId (id, l') := rfl

theorem Favourite.transfer {id : String} (hfavourite : d.Favourite conversationId (id, l))
    (h' : d'.DistinctScores conversationId) (hhash : d'.options.hash = d.options.hash)
    (hnodes : ∀ id, id ∈ d'.healthyNodes ↔ id ∈ d.healthyNodes) :
    ∃ l', d'.Favourite conversationId (id, l') := by
  obtain ⟨hrow, hless⟩ := hfavourite
  obtain ⟨l', hrow'⟩ := mem_healthyNodes.1 ((hnodes id).2 (mem_healthyNodes.2 ⟨l, hrow⟩))
  refine ⟨l', hrow', ?_⟩
  rintro ⟨id₂, l₂⟩ hrow₂ hne
  -- two rows of one node would have one score
  have hid₂ : id₂ ≠ id := by
    rintro rfl
    exact hne (h' hrow₂ hrow' (score_node id₂ l₂ l'))
  obtain ⟨m, hm⟩ := mem_healthyNodes.1 ((hnodes id₂).1 (mem_healthyNodes.2 ⟨l₂, hrow₂⟩))
  rw [score_congr hhash]
  exact hless (id₂, m) hm fun heq => hid₂ (congrArg Prod.fst heq)

theorem routesTo_congr (hid : 0 < conversationId) (h : d.DistinctScores conversationId)
    (h' : d'.DistinctScores conversationId) (hhash : d'.options.hash = d.options.hash)
    (hnodes : ∀ id, id ∈ d'.healthyNodes ↔ id ∈ d.healthyNodes) (id : String) :
    d'.RoutesTo conversationId id ↔ d.RoutesTo conversationId id := by
  constructor
  · rintro ⟨l', hfavourite, _⟩
    obtain ⟨l, hl⟩ := hfavourite.transfer h hhash.symm fun id => (hnodes id).symm
    exact ⟨l, hl, (h.select hid).2 ⟨id, hl⟩⟩
  · rintro ⟨l, hfavourite, _⟩
    obtain ⟨l', hl'⟩ := hfavourite.transfer h' hhash hnodes
    exact ⟨l', hl', (h'.select hid).2 ⟨id, hl'⟩⟩

/-- With a conversation the link with the highest score is chosen, whatever the order of the table; other
    links may come, go or fail, and only one that comes can take the conversation over. Gateways that see
    the same nodes choose the same one. Without a conversation the link with the fewest commands in flight
    is chosen. -/
theorem selectGrpcLink_stable (d : GatewayDriver) (conversationId : ℤ) :
    (0 < conversationId → d.DistinctScores conversationId →
      (∀ l, d.selectGrpcLink conversationId = some l ↔ ∃ id, d.Favourite conversationId (id, l)) ∧
      (∀ d' : GatewayDriver, d'.messageLinks.Perm d.messageLinks → d.Agrees d' d.messageLinks →
        d'.selectGrpcLink conversationId = d.selectGrpcLink conversationId) ∧
      (∀ (d' : GatewayDriver) (row : String × ℕ), d'.messageLinks.Perm (row :: d.messageLinks) →
        d.Agrees d' d.messageLinks →
        d'.selectGrpcLink conversationId = d.selectGrpcLink conversationId ∨
          d'.selectGrpcLink conversationId = some row.2) ∧
      (∀ (d' : GatewayDriver) (row : String × ℕ), d.messageLinks.Perm (row :: d'.messageLinks) →
        d.Agrees d' d'.messageLinks → d.selectGrpcLink conversationId ≠ some row.2 →
        d'.selectGrpcLink conversationId = d.selectGrpcLink conversationId) ∧
      (∀ (d' : GatewayDriver) (l : ℕ), d'.messageLinks.Perm d.messageLinks →
        d.Agrees d' (d.messageLinks.filter (·.2 ≠ l)) → (d'.links l).isHealthy = false →
        d.selectGrpcLink conversationId ≠ some l →
        d'.selectGrpcLink conversationId = d.selectGrpcLink conversationId) ∧
      ∀ d' : GatewayDriver, d'.DistinctScores conversationId → d'.options.hash = d.options.hash →
        (∀ id, id ∈ d'.healthyNodes ↔ id ∈ d.healthyNodes) →
        ∀ id, d'.RoutesTo conversationId id ↔ d.RoutesTo conversationId id) ∧
    (conversationId ≤ 0 → ∀ l, d.selectGrpcLink conversationId = some l →
      (∃ id, (id, l) ∈ d.healthyLinks) ∧ ∀ row ∈ d.healthyLinks, (d.links l).inflight ≤ d.inflight row) ∧
    (d.selectGrpcLink conversationId = none ↔ ∀ row ∈ d.messageLinks, (d.links row.2).isHealthy = false) := by
  refine ⟨fun hid h => ?_, fun hid l => selectGrpcLink_minimal hid, selectGrpcLink_none⟩
  refine ⟨fun l => h.select hid, fun d' => selectGrpcLink_reordered hid h, ?_, ?_, ?_, ?_⟩
  · exact fun d' row => selectGrpcLink_added hid h
  · exact fun d' row => selectGrpcLink_removed hid h
  · exact fun d' l => selectGrpcLink_disabled hid h
  · exact fun d' h' => routesTo_congr hid h h'

/-- Healthy links, of which the first is the least busy and the longest name scores highest. -/
def fleet (table : List (String × ℕ)) : GatewayDriver where
  options := {
    gatewayId := "gateway"
    instanceId := "instance"
    shardId := 0
    hash := String.length
    commandSize := fun _ => 1
    frameSize := fun _ => 1 }
  links l := { healthy := true, inflight := l }
  messageLinks := table
  pendingBudget := ⟨1, 1⟩
  writes := ⟨1, 1⟩

theorem selectGrpcLink_stable_fleet :
    (fleet [("a", 0), ("bbb", 1)]).selectGrpcLink 7 = some 1 ∧
      (fleet [("bbb", 1), ("a", 0)]).selectGrpcLink 7 = some 1 ∧
      (fleet [("a", 0), ("cc", 2), ("bbb", 1)]).selectGrpcLink 7 = some 1 ∧
      (fleet [("bbb", 1)]).selectGrpcLink 7 = some 1 ∧
      ((fleet [("a", 0), ("bbb", 1)]).stopLink 0).selectGrpcLink 7 = some 1 ∧
      (fleet [("bbb", 8), ("a", 5)]).RoutesTo 7 "bbb" ∧
      (fleet [("a", 0), ("bbb", 1)]).selectGrpcLink 0 = some 0 := by
  have hscores : ∀ table, (∀ a ∈ (fleet table).healthyLinks, ∀ b ∈ (fleet table).healthyLinks,
      (fleet table).score 7 a = (fleet table).score 7 b → a = b) → (fleet table).DistinctScores 7 :=
    fun table h a ha b hb => h a ha b hb
  have hagrees : ∀ table table' rows, (fleet table).Agrees (fleet table') rows :=
    fun _ _ _ => ⟨rfl, fun _ _ => rfl⟩
  have hdistinct := hscores [("a", 0), ("bbb", 1)] (by decide)
  obtain ⟨⟨hchosen, horder, hadded, hremoved, hdisabled, hroute⟩, -, -⟩ :=
    (selectGrpcLink_stable (fleet [("a", 0), ("bbb", 1)]) 7).imp_left fun h => h (by decide) hdistinct
  have hone : (fleet [("a", 0), ("bbb", 1)]).selectGrpcLink 7 = some 1 :=
    (hchosen 1).2 ⟨"bbb", by decide, by decide⟩
  refine ⟨hone, ?_, ?_, ?_, ?_, ?_, ?_⟩
  · rw [horder (fleet [("bbb", 1), ("a", 0)]) (by decide) (hagrees _ _ _), hone]
  · rcases hadded (fleet [("a", 0), ("cc", 2), ("bbb", 1)]) ("cc", 2) (by decide) (hagrees _ _ _) with h | h
    · rw [h, hone]
    · exact absurd h (by decide)
  · rw [hremoved (fleet [("bbb", 1)]) ("a", 0) (by decide) (hagrees _ _ _) (by rw [hone]; decide), hone]
  · rw [hdisabled ((fleet [("a", 0), ("bbb", 1)]).stopLink 0) 0 (by decide)
      ⟨rfl, by decide⟩ (by decide) (by rw [hone]; decide), hone]
  · exact (hroute (fleet [("bbb", 8), ("a", 5)]) (hscores _ (by decide)) rfl
      (fun id => by simp [healthyNodes, healthyLinks, fleet, MessageLink.isHealthy, or_comm]) "bbb").2
      ⟨1, ⟨by decide, by decide⟩, hone⟩
  · obtain ⟨-, hidle, hthrows⟩ := selectGrpcLink_stable (fleet [("a", 0), ("bbb", 1)]) 0
    cases h : (fleet [("a", 0), ("bbb", 1)]).selectGrpcLink 0 with
    | none => exact absurd (hthrows.1 h) (by decide)
    | some l =>
      have hzero : l ≤ 0 := (hidle (by decide) l h).2 ("a", 0) (by decide)
      rw [Nat.le_zero.1 hzero]

end GatewayDriver

end Imm
