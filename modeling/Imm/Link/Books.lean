import Imm.Link.Links

/-! The books of one driver, whatever the frames it reads. A link counts the commands that wait for its
    results, the budget of pending commands is what is left after each of them took its units, and a
    command waits only for a link that is still in the table and has not ended
    (`GatewayDriver.Balanced`). Most of what a driver does leaves all of this alone
    (`GatewayDriver.Undisturbed`); the rest sends a command, settles some, or opens or erases a link. -/

namespace Imm

open Steps List

/-- What happens at a driver: its own events, and the frames its links read. -/
inductive LinkDriverEvent where
  | own (e : GatewayEvent)
  /-- `OnReadDone(true)`, with any frame -/
  | read (l : ℕ) (frame : MessageToGatewayFrame) (forwarded : Forwarded)

namespace Budget

theorem acquire_release {b b' : Budget} {bytes : ℕ} (h : b.acquire bytes = some b') : b = b'.release bytes := by
  unfold acquire at h
  split at h
  · rename_i hfree
    cases h
    obtain ⟨count, bytes'⟩ := b
    simp only [release, Budget.mk.injEq]
    exact ⟨(Nat.sub_add_cancel hfree.1).symm, (Nat.sub_add_cancel hfree.2).symm⟩
  · cases h

theorem foldl_release {A : Type} (size : A → ℕ) (xs : List A) (b : Budget) :
    xs.foldl (fun b x => b.release (size x)) b = ⟨b.count + xs.length, b.bytes + (xs.map size).sum⟩ := by
  induction xs generalizing b with
  | nil => rfl
  | cons x xs ih =>
    rw [foldl_cons, ih]
    simp only [release, length_cons, map_cons, sum_cons, Budget.mk.injEq]
    omega

end Budget

namespace GatewayDriver

def turn (d : GatewayDriver) : LinkDriverEvent → Option GatewayDriver
  | .own e => d.step e
  | .read l frame forwarded => if (d.links l).reading then some (d.onReadDone l frame forwarded) else none

/-- The connection that sent a pending command. -/
def ownerOf (d : GatewayDriver) (entry : String × PendingCommand) : Option ConnectionId :=
  d.sent[entry.2.ticket]?.map (·.2.connectionId)

/-- The entry holds what its command had when it was admitted. -/
def Admitted (d : GatewayDriver) (entry : String × PendingCommand) : Prop :=
  ∃ command : CommandEnvelope, entry.1 = correlation command.connectionId command.requestId ∧
    entry.2.clientRequestId = command.requestId ∧ entry.2.bytes = d.options.commandSize command ∧
    d.sent[entry.2.ticket]? =
      some (entry.2.link, { command with requestId := entry.1, ticket := entry.2.ticket })

structure Balanced (d : GatewayDriver) (options : GatewayOptions) : Prop where
  configured : d.options = options
  inflight : ∀ l, (d.links l).inflight = d.pending.countP (·.2.link = l)
  count : d.pendingBudget.count + d.pending.length = options.maxPending
  bytes : d.pendingBudget.bytes + (d.pending.map (·.2.bytes)).sum = options.maxPendingBytes
  held : ∀ entry ∈ d.pending, ∃ id, (id, entry.2.link) ∈ d.messageLinks
  admitted : ∀ entry ∈ d.pending, d.Admitted entry
  /-- the table has one link for a node -/
  nodes : (d.messageLinks.map (·.1)).Nodup

variable {options : GatewayOptions} {d d' d'' : GatewayDriver} {l : ℕ}

/-! ### What leaves the books alone -/

structure Undisturbed (d d' : GatewayDriver) : Prop where
  options : d'.options = d.options
  pending : d'.pending = d.pending
  budget : d'.pendingBudget = d.pendingBudget
  inflight : ∀ l, (d'.links l).inflight = (d.links l).inflight
  table : d'.messageLinks = d.messageLinks
  sent : d'.sent = d.sent

theorem Undisturbed.refl (d : GatewayDriver) : d.Undisturbed d := ⟨rfl, rfl, rfl, fun _ => rfl, rfl, rfl⟩

theorem Undisturbed.trans (h : d.Undisturbed d') (h' : d'.Undisturbed d'') : d.Undisturbed d'' where
  options := h'.options.trans h.options
  pending := h'.pending.trans h.pending
  budget := h'.budget.trans h.budget
  inflight l := (h'.inflight l).trans (h.inflight l)
  table := h'.table.trans h.table
  sent := h'.sent.trans h.sent

theorem Undisturbed.balanced (h : d.Undisturbed d') (hd : d.Balanced options) : d'.Balanced options where
  configured := h.options.trans hd.configured
  inflight l := by rw [h.inflight, h.pending, hd.inflight]
  count := by rw [h.budget, h.pending, hd.count]
  bytes := by rw [h.budget, h.pending, hd.bytes]
  held := by rw [h.pending, h.table]; exact hd.held
  admitted := by
    unfold Admitted
    rw [h.pending, h.options, h.sent]
    exact hd.admitted
  nodes := by rw [h.table]; exact hd.nodes

theorem undisturbed_set {x : MessageLink}
    (h : (d'.links, d'.options, d'.pending, d'.pendingBudget, d'.messageLinks, d'.sent) =
      (Function.update d.links l x, d.options, d.pending, d.pendingBudget, d.messageLinks, d.sent))
    (hx : x.inflight = (d.links l).inflight) : d.Undisturbed d' := by
  simp only [Prod.mk.injEq] at h
  obtain ⟨hlinks, hoptions, hpending, hbudget, htable, hsent⟩ := h
  refine ⟨hoptions, hpending, hbudget, fun l' => ?_, htable, hsent⟩
  rw [hlinks]
  by_cases h : l' = l
  · subst h
    rw [Function.update_self, hx]
  · rw [Function.update_of_ne h]

@[simp] theorem inflight_stop (x : MessageLink) : x.stop.inflight = x.inflight := by
  unfold MessageLink.stop
  split <;> rfl

theorem stopLink_undisturbed (d : GatewayDriver) (l : ℕ) : d.Undisturbed (d.stopLink l) :=
  undisturbed_set rfl (inflight_stop _)

theorem startRead_undisturbed (d : GatewayDriver) (l : ℕ) : d.Undisturbed (d.startRead l) := by
  unfold startRead
  split
  · exact .refl d
  · exact undisturbed_set rfl rfl

theorem enqueue_undisturbed {frame : GatewayToMessageFrame} (h : d.enqueue l frame = .ok d') :
    d.Undisturbed d' := by
  obtain ⟨-, writes, rfl⟩ := enqueue_spec h
  exact undisturbed_set rfl rfl

theorem write_undisturbed (h : d.write l = some d') : d.Undisturbed d' := by
  unfold write at h
  dsimp only at h
  split at h
  · cases h
  split at h
  · cases h
    exact undisturbed_set rfl rfl
  split at h
  · cases h
  cases h
  exact undisturbed_set rfl rfl

theorem written_undisturbed {ok : Bool} (h : d.written l ok = some d') : d.Undisturbed d' := by
  unfold written at h
  dsimp only at h
  split at h
  · cases h
  cases h
  refine undisturbed_set rfl ?_
  cases ok
  · simp
  · rfl

/-! ### Commands are settled -/

theorem countP_split {A : Type} (P q : A → Bool) (xs : List A) :
    xs.countP q = (xs.filter P).countP q + (xs.filter fun x => !P x).countP q := by
  rw [← countP_append]
  exact ((filter_append_perm P xs).countP_eq q).symm

theorem Balanced.settle (hd : d.Balanced options) (P : String × PendingCommand → Bool)
    (completion : PendingCommand → Completion) : (d.settle P completion).Balanced options where
  configured := hd.configured
  inflight l := by
    have h := countP_split P (fun entry => decide (entry.2.link = l)) d.pending
    simp only [GatewayDriver.settle, hd.inflight]
    omega
  count := by
    have h := (filter_append_perm P d.pending).length_eq
    rw [length_append] at h
    simp only [GatewayDriver.settle]
    rw [Budget.foldl_release, ← hd.count]
    dsimp only
    omega
  bytes := by
    have h := ((filter_append_perm P d.pending).map (·.2.bytes)).sum_nat
    rw [map_append, sum_append] at h
    simp only [GatewayDriver.settle]
    rw [Budget.foldl_release, ← hd.bytes]
    dsimp only
    omega
  held entry he := hd.held entry (mem_of_mem_filter he)
  admitted entry he := hd.admitted entry (mem_of_mem_filter he)
  nodes := hd.nodes

theorem onGrpcFrame_balanced (hd : d.Balanced options) (frame : MessageToGatewayFrame) (forwarded : Forwarded) :
    (d.onGrpcFrame l frame forwarded).1.Balanced options := by
  unfold onGrpcFrame
  split
  · split
    · exact hd
    split
    · exact hd
    dsimp only
    exact hd.settle _ _
  · rename_i envelope
    have hcancel : (if forwarded.closed then d.cancel envelope.expectedConnectionId else d).Balanced options := by
      split
      · exact hd.settle _ _
      · exact hd
    dsimp only
    split
    · rename_i h
      exact (enqueue_undisturbed h).balanced hcancel
    · exact hcancel
  · exact hd

theorem onReadDone_balanced (hd : d.Balanced options) (frame : MessageToGatewayFrame) (forwarded : Forwarded) :
    (d.onReadDone l frame forwarded).Balanced options := by
  have hread : (d.setLink l { d.links l with reading := false }).Balanced options :=
    Undisturbed.balanced (undisturbed_set rfl rfl) hd
  unfold onReadDone
  dsimp only
  generalize d.setLink l { d.links l with reading := false } = d' at hread
  split
  · exact (stopLink_undisturbed d' l).balanced hread
  · rename_i accepted _ _
    have hhealthy : d'.Undisturbed (d'.setLink l { d'.links l with healthy := accepted }) :=
      undisturbed_set rfl rfl
    split
    · exact (hhealthy.trans (startRead_undisturbed _ l)).balanced hread
    · exact (hhealthy.trans (stopLink_undisturbed _ l)).balanced hread
  · have hframe := onGrpcFrame_balanced (l := l) hread frame forwarded
    split
    · rename_i h
      rw [h] at hframe
      exact (startRead_undisturbed _ l).balanced hframe
    rename_i h
    rw [h] at hframe
    exact (stopLink_undisturbed _ l).balanced hframe

/-! ### Links come and go -/

/-- No command waits for a link that has not been made. -/
theorem Balanced.fresh (hd : d.Balanced options) (hs : d.Sound) : (d.links d.created).inflight = 0 := by
  rw [hd.inflight, countP_eq_zero]
  rintro ⟨k, p⟩ hp hlink
  obtain ⟨c, hc, -⟩ := hs.entries k p hp
  have := hs.sentOn p.link c (mem_of_getElem? hc)
  simp only [decide_eq_true_eq] at hlink
  omega

theorem openLink_balanced (hd : d.Balanced options) (hs : d.Sound) {nodeId : String}
    (hnode : d.messageLinks.any (·.1 = nodeId) = false) (address : Endpoint) (streamEpoch : ℕ) :
    (d.openLink nodeId address streamEpoch).Balanced options := by
  have hlink : d.Undisturbed (d.setLink d.created { nodeId, address, reading := true }) :=
    undisturbed_set rfl (hd.fresh hs).symm
  have hnew : ({ d.setLink d.created { nodeId, address, reading := true } with
      created := d.created + 1
      messageLinks := d.messageLinks ++ [(nodeId, d.created)] } : GatewayDriver).Balanced options := by
    have hb := hlink.balanced hd
    refine ⟨hb.configured, hb.inflight, hb.count, hb.bytes, fun entry he => ?_, hb.admitted, ?_⟩
    · obtain ⟨id, hid⟩ := hd.held entry he
      exact ⟨id, mem_append_left _ hid⟩
    · rw [map_append, nodup_append]
      refine ⟨hd.nodes, by simp, ?_⟩
      rintro id hid id' hid' rfl
      obtain ⟨row, hrow, rfl⟩ := mem_map.1 hid
      simp only [map_cons, map_nil, mem_singleton] at hid'
      have := any_eq_false.1 hnode row hrow
      simp [hid'] at this
  unfold openLink
  dsimp only
  split
  · rename_i h
    exact (enqueue_undisturbed h).balanced hnew
  · exact (stopLink_undisturbed _ _).balanced hnew

/-- Only a link that has ended is erased, and nothing waits for that one. -/
theorem eraseLink_balanced (hd : d.Balanced options) (hs : d.Sound) {nodeId : String}
    (hlookup : d.messageLinks.lookup nodeId = some l) (hfinished : (d.links l).finished = true) :
    ({ d with messageLinks := d.messageLinks.filter (·.1 ≠ nodeId) } : GatewayDriver).Balanced options := by
  refine ⟨hd.configured, hd.inflight, hd.count, hd.bytes, fun entry he => ?_, hd.admitted, ?_⟩
  · obtain ⟨id, hid⟩ := hd.held entry he
    refine ⟨id, mem_filter.2 ⟨hid, ?_⟩⟩
    simp only [ne_eq, decide_not, Bool.not_eq_eq_eq_not, Bool.not_true, decide_eq_false_iff_not]
    rintro rfl
    obtain ⟨before, after, hrows, -⟩ := lookup_eq_some_iff.1 hlookup
    have hmem : (id, l) ∈ d.messageLinks := by simp [hrows]
    have hrow : (id, l) = (id, entry.2.link) := inj_on_of_nodup_map hd.nodes hmem hid rfl
    have hlive := hs.live entry.1 entry.2 he
    rw [← (Prod.mk.inj hrow).2, hfinished] at hlive
    cases hlive
  · exact hd.nodes.sublist (filter_sublist.map _)

theorem rehash_balanced (hd : d.Balanced options) {table : List (String × ℕ)} (h : table.Perm d.messageLinks) :
    ({ d with messageLinks := table } : GatewayDriver).Balanced options := by
  refine ⟨hd.configured, hd.inflight, hd.count, hd.bytes, fun entry he => ?_, hd.admitted, ?_⟩
  · obtain ⟨id, hid⟩ := hd.held entry he
    exact ⟨id, h.mem_iff.2 hid⟩
  · exact (h.map _).nodup_iff.2 hd.nodes

/-! ### A command is sent -/

theorem sendCommand_balanced (hd : d.Balanced options) {command : CommandEnvelope}
    (h : d.sendCommand command = .ok d') : d'.Balanced options := by
  unfold sendCommand at h
  split at h
  · cases h
  split at h
  · cases h
  rename_i l hselect
  split at h
  · cases h
  rename_i budget hbudget
  dsimp only at h
  split at h
  · cases h
  split at h
  · cases h
  rename_i d'' henqueue
  have hq := enqueue_undisturbed henqueue
  have hunits := Budget.acquire_release hbudget
  cases h
  refine ⟨hq.options.trans hd.configured, fun l' => ?_, ?_, ?_, ?_, ?_, hq.table ▸ hd.nodes⟩
  · -- the link that was chosen counts one more
    rw [countP_append, ← hd.inflight l', ← hq.inflight l']
    by_cases hl : l' = l
    · subst hl
      simp
    rw [links_setLink_ne _ hl]
    simp [Ne.symm hl]
  · rw [length_append, ← hd.count, hunits]
    simp only [Budget.release, length_cons, length_nil]
    omega
  · rw [map_append, sum_append, ← hd.bytes, hunits]
    simp only [Budget.release, map_cons, map_nil, sum_cons, sum_nil]
    omega
  · intro entry he
    change ∃ id, (id, entry.2.link) ∈ d''.messageLinks
    rw [hq.table]
    rcases mem_append.1 he with he | he
    · exact hd.held entry he
    rw [mem_singleton.1 he]
    exact (selectGrpcLink_healthy hselect).1
  · intro entry he
    have hsize : d''.options.commandSize = d.options.commandSize := by rw [hq.options]
    rcases mem_append.1 he with he | he
    · obtain ⟨c, hkey, hclient, hbytes, hsent⟩ := hd.admitted entry he
      refine ⟨c, hkey, hclient, hbytes.trans (congrFun hsize c).symm, ?_⟩
      exact (List.getElem?_append_left (List.getElem?_eq_some_iff.1 hsent).1).trans hsent
    rw [mem_singleton.1 he]
    exact ⟨command, rfl, rfl, (congrFun hsize command).symm, by simp [stamp]⟩

/-! ### Whole runs -/

theorem onDone_balanced (hd : d.Balanced options) (h : d.onDone l = some d') : d'.Balanced options := by
  unfold onDone at h
  dsimp only at h
  split at h
  · cases h
    refine Balanced.settle (Undisturbed.balanced ?_ hd) _ _
    exact undisturbed_set rfl rfl
  · cases h

theorem step_balanced (hd : d.Balanced options) (hs : d.Sound) {e : GatewayEvent} (h : d.step e = some d') :
    d'.Balanced options := by
  cases e with
  | openLink nodeId address streamEpoch =>
    simp only [step] at h
    split at h
    · cases h
    rename_i hnode
    cases h
    exact openLink_balanced hd hs (Bool.eq_false_iff.2 hnode) address streamEpoch
  | closeLink nodeId =>
    obtain ⟨l, -, rfl⟩ := Option.map_eq_some_iff.1 h
    exact (stopLink_undisturbed d l).balanced hd
  | eraseLink nodeId =>
    simp only [step] at h
    split at h
    · cases h
    rename_i l hlookup
    split at h
    · rename_i hend
      cases h
      exact eraseLink_balanced hd hs hlookup hend.1
    · cases h
  | rehash table =>
    simp only [step] at h
    split at h
    · rename_i hperm
      cases h
      exact rehash_balanced hd hperm
    · cases h
  | heartbeat nodeId sentAtUnixMs sequence =>
    simp only [step] at h
    split at h
    · cases h
    split at h
    · cases h
    split at h
    · rename_i henqueue
      cases h
      exact (enqueue_undisturbed henqueue).balanced hd
    cases h
    exact hd
  | sockets writes =>
    cases h
    exact Undisturbed.balanced (d := d) ⟨rfl, rfl, rfl, fun _ => rfl, rfl, rfl⟩ hd
  | sendCommand command =>
    simp only [step] at h
    split at h
    · rename_i hsend
      cases h
      exact sendCommand_balanced hd hsend
    cases h
    exact hd
  | cancel connectionId =>
    cases h
    exact hd.settle _ _
  | abort =>
    cases h
    exact Undisturbed.balanced (d := d) ⟨rfl, rfl, rfl, fun l => inflight_stop _, rfl, rfl⟩ hd
  | write l => exact (write_undisturbed h).balanced hd
  | written l ok => exact (written_undisturbed h).balanced hd
  | readFailed l =>
    simp only [step] at h
    split at h
    · cases h
      refine Undisturbed.balanced ?_ hd
      exact undisturbed_set rfl (inflight_stop _)
    · cases h
  | done l => exact onDone_balanced hd h

theorem turn_balanced (hd : d.Balanced options ∧ d.Sound) {e : LinkDriverEvent} (h : d.turn e = some d') :
    d'.Balanced options ∧ d'.Sound := by
  obtain ⟨hd, hs⟩ := hd
  cases e with
  | own e =>
    refine ⟨step_balanced hd hs h, ?_⟩
    rcases step_cases hs h with ⟨command, l, -, hsends⟩ | ⟨hsound, -⟩
    · exact hsends.sound hs
    · exact hsound
  | read l frame forwarded =>
    simp only [turn] at h
    split at h
    · cases h
      exact ⟨onReadDone_balanced hd frame forwarded, (onReadDone_tends hs frame forwarded).sound hs⟩
    · cases h

theorem start_balanced (options : GatewayOptions) : (start options).Balanced options where
  configured := rfl
  inflight _ := rfl
  count := rfl
  bytes := rfl
  held entry he := by cases he
  admitted entry he := by cases he
  nodes := nodup_nil

/-- The commands that `cancel` looks for by their keys are those of the connection. -/
theorem Balanced.ofConnection_iff (hd : d.Balanced options) {entry : String × PendingCommand}
    (he : entry ∈ d.pending) (c : ConnectionId) :
    ofConnection c entry.1 = decide (d.ownerOf entry = some c) := by
  obtain ⟨command, hkey, -, -, hsent⟩ := hd.admitted entry he
  have howner : d.ownerOf entry = some command.connectionId := by
    unfold ownerOf
    rw [hsent]
    rfl
  rw [Bool.eq_iff_iff, hkey, ofConnection_correlation, howner, decide_eq_true_eq, Option.some.injEq]
  exact eq_comm

end GatewayDriver

open GatewayDriver in
/-- The books of a driver balance after every run. A link counts its pending commands, so that it never
    has to take one off when there is none; each of these waits for a link of the table that has not
    ended; the units in use are those of the pending commands; and `cancel` completes the commands of
    one connection. -/
theorem pending_commands_balance (options : GatewayOptions) {events : List LinkDriverEvent} {d : GatewayDriver}
    (h : events.foldlM turn (start options) = some d) :
    (∀ l, (d.links l).inflight = d.pending.countP (·.2.link = l)) ∧
    (∀ entry ∈ d.pending, 0 < (d.links entry.2.link).inflight ∧ d.Admitted entry ∧
      (∃ id, (id, entry.2.link) ∈ d.messageLinks) ∧ (d.links entry.2.link).finished = false) ∧
    options.maxPending = d.pendingBudget.count + d.pending.length ∧
    options.maxPendingBytes = d.pendingBudget.bytes + (d.pending.map (·.2.bytes)).sum ∧
    ∀ c, (d.cancel c).pending = d.pending.filter (fun entry => d.ownerOf entry ≠ some c) ∧
      (d.cancel c).completions = d.completions ++
        (d.pending.filter fun entry => d.ownerOf entry = some c).map fun entry =>
          (entry.2.ticket, .stopped) := by
  obtain ⟨hd, hs⟩ : d.Balanced options ∧ d.Sound :=
    run_invariant (P := fun d => d.Balanced options ∧ d.Sound)
      ⟨start_balanced options, start_sound options⟩ (fun _ _ _ hd hstep => turn_balanced hd hstep) h
  refine ⟨hd.inflight, fun entry he => ⟨?_, hd.admitted entry he, hd.held entry he,
    hs.live entry.1 entry.2 he⟩, hd.count.symm, hd.bytes.symm, fun c => ⟨?_, ?_⟩⟩
  · rw [hd.inflight, countP_pos_iff]
    exact ⟨entry, he, by simp⟩
  · refine filter_congr fun entry he => ?_
    dsimp only
    rw [hd.ofConnection_iff he]
    simp
  · unfold cancel settle
    rw [filter_congr fun entry he => hd.ofConnection_iff he c]

namespace GatewayDriver

def bob : ConnectionId := ⟨"b", by decide⟩

/-- A request that a connection forwards. -/
def requesting (connectionId : ConnectionId) (requestId : String) : LinkDriverEvent :=
  .own (.sendCommand {
    requestId, actorUid := 1, connectionId, connectionGeneration := 1
    operation := .SEND_TEXT, conversationId := 0, packet := [], actorDeviceId := "phone" })

/-- A link registers, three commands go out on it, and a result comes that nobody waits for. -/
def threeCommands : List LinkDriverEvent := [
  .own (.openLink "m" ⟨"host", 7000⟩ 1),
  .read 0 (.registerResult true "m" 1) ⟨.UNSPECIFIED, false⟩,
  requesting alice "1",
  requesting bob "1",
  requesting alice "2",
  .read 0 (.commandResult { requestId := "c:1", error := .Success, retryable := false, packet := {} })
    ⟨.UNSPECIFIED, false⟩]

end GatewayDriver

open GatewayDriver in
theorem pending_commands_balance_three : ∃ d, threeCommands.foldlM turn (start shardOptions) = some d ∧
    (d.links 0).inflight = 3 ∧ d.pendingBudget.bytes + 300 = shardOptions.maxPendingBytes ∧
    (d.cancel alice).pending.map (·.1) = ["b:1"] := by
  obtain ⟨d, hrun, hlinks, hbytes, howners⟩ : ∃ d, threeCommands.foldlM turn (start shardOptions) = some d ∧
      d.pending.map (·.2.link) = [0, 0, 0] ∧ d.pending.map (·.2.bytes) = [100, 100, 100] ∧
      (d.pending.filter (fun entry => d.ownerOf entry ≠ some alice)).map (·.1) = ["b:1"] :=
    ⟨_, rfl, rfl, rfl, by decide +kernel⟩
  obtain ⟨hinflight, -, -, hbudget, hcancel⟩ := pending_commands_balance shardOptions hrun
  refine ⟨d, hrun, ?_, ?_, ?_⟩
  · rw [hinflight, show d.pending.countP (fun entry => decide (entry.2.link = 0)) =
      (d.pending.map (·.2.link)).countP (fun l => decide (l = 0)) by rw [countP_map]; rfl, hlinks]
    rfl
  · rw [hbudget, hbytes]
    rfl
  · rw [(hcancel alice).1, howners]

end Imm
