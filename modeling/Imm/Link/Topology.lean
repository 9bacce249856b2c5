import Imm.Link.Books

/-! One pass of `grpc_control`, from the answer of State to the heartbeats. The pass visits the entries of
    the topology and then sweeps the table of links:

        visiting ──▶ visiting            the entry is invalid, or its link is right, or is opened
           │  └────▶ replacing ──▶ …     its link has ended or has another address; `close` waits
           ▼
        sweeping ──▶ sweeping            the node is retained
              └────▶ closing ──▶ …       it is not; `close` waits

    At every one of these points the other coroutines of the shard may run: links read and write and
    end, commands are sent and completed. The sweep goes over the entries the table has when it starts:
    nobody else inserts into it or erases from it. -/

namespace Imm

open Steps List Option

/-- A node as State describes it. -/
structure ServiceNode where
  nodeId : String
  host : String
  port : ℤ
  status : String
  shardCount : ℕ

namespace ServiceNode

/-- The entry is not skipped. -/
def valid (node : ServiceNode) : Bool :=
  !(node.status ≠ "active" || node.nodeId = "" || node.host = "" || node.port ≤ 0 || 65535 < node.port ||
    node.shardCount = 0 || 65535 < node.port + node.shardCount - 1)

/-- The host, and the port of the shard that owns the Gateway, cast to `uint16_t`. -/
def address (gatewayId : String) (node : ServiceNode) : Endpoint :=
  ⟨node.host, ((node.port + ownerShard gatewayId node.shardCount) % 2 ^ 16).toNat⟩

/-- What an entry must be like. -/
structure Usable (node : ServiceNode) : Prop where
  active : node.status = "active"
  named : node.nodeId ≠ ""
  hosted : node.host ≠ ""
  port : 1 ≤ node.port ∧ node.port ≤ 65535
  shards : 1 ≤ node.shardCount ∧ node.port + node.shardCount - 1 ≤ 65535

theorem valid_iff (node : ServiceNode) : node.valid = true ↔ node.Usable := by
  simp only [valid, Bool.not_eq_true', Bool.or_eq_false_iff, decide_eq_false_iff_not]
  constructor
  · rintro ⟨⟨⟨⟨⟨⟨hactive, hnamed⟩, hhosted⟩, hlow⟩, hhigh⟩, hshards⟩, hrange⟩
    exact ⟨not_not.1 hactive, hnamed, hhosted, by omega, by omega⟩
  · rintro ⟨hactive, hnamed, hhosted, hport, hshards⟩
    exact ⟨⟨⟨⟨⟨⟨not_not.2 hactive, hnamed⟩, hhosted⟩, by omega⟩, by omega⟩, by omega⟩, by omega⟩

/-- The shards of a node that is not skipped have ports, so that the cast changes nothing. -/
theorem Usable.port_address {node : ServiceNode} (h : node.Usable) (gatewayId : String) :
    ((node.address gatewayId).port : ℤ) = node.port + ownerShard gatewayId node.shardCount ∧
      (node.address gatewayId).port ≤ 65535 := by
  have howner : ownerShard gatewayId node.shardCount < node.shardCount := Nat.mod_lt _ h.shards.1
  have hport := h.port
  have hshards := h.shards
  unfold address
  dsimp only
  omega

end ServiceNode

/-- Where `grpc_control` is in a pass. -/
inductive ControlPoint where
  | visiting (rest : List ServiceNode) (retained : List String)
  /-- `close` of the link of a node before another is opened -/
  | replacing (node : ServiceNode) (rest : List ServiceNode) (retained : List String)
  | sweeping (rest : List (String × ℕ)) (retained : List String)
  /-- `close` of a link whose node is not retained -/
  | closing (nodeId : String) (rest : List (String × ℕ)) (retained : List String)
  | finished

/-- Events that only `grpc_control` brings about. -/
def LinkDriverEvent.ofControl : LinkDriverEvent → Bool
  | .own (.openLink ..) | .own (.closeLink _) | .own (.eraseLink _) | .own (.heartbeat ..) => true
  | _ => false

inductive ControlEvent where
  /-- the pass goes on to its next wait; a link that is opened then reads the clock -/
  | control (streamEpoch : ℕ)
  /-- something happens elsewhere on the shard -/
  | elsewhere (e : LinkDriverEvent)

structure ControlPass where
  driver : GatewayDriver
  point : ControlPoint

namespace ControlPass

variable (p : ControlPass)

/-- State has answered. -/
def begin (driver : GatewayDriver) (nodes : List ServiceNode) : ControlPass := ⟨driver, .visiting nodes []⟩

/-- The link of a node is the one the entry asks for. -/
def fits (node : ServiceNode) (l : ℕ) : Bool :=
  !(p.driver.links l).finished && (p.driver.links l).address = node.address p.driver.options.gatewayId

def control (streamEpoch : ℕ) : Option ControlPass :=
  let openFor (driver : GatewayDriver) (node : ServiceNode) : Option GatewayDriver :=
    driver.step (.openLink node.nodeId (node.address driver.options.gatewayId) streamEpoch)
  match p.point with
  | .visiting [] retained => some ⟨p.driver, .sweeping p.driver.messageLinks retained⟩
  | .visiting (node :: rest) retained =>
    if !node.valid then some ⟨p.driver, .visiting rest retained⟩
    else
      let retained := node.nodeId :: retained
      match p.driver.messageLinks.lookup node.nodeId with
      | none => (openFor p.driver node).map fun driver => ⟨driver, .visiting rest retained⟩
      | some l =>
        if p.fits node l then some ⟨p.driver, .visiting rest retained⟩
        else
          (p.driver.step (.closeLink node.nodeId)).map fun driver => ⟨driver, .replacing node rest retained⟩
  | .replacing node rest retained =>
    (p.driver.step (.eraseLink node.nodeId)).bind fun driver =>
      (openFor driver node).map fun driver => ⟨driver, .visiting rest retained⟩
  | .sweeping [] _ => some ⟨p.driver, .finished⟩
  | .sweeping ((nodeId, _) :: rest) retained =>
    if nodeId ∈ retained then some ⟨p.driver, .sweeping rest retained⟩
    else (p.driver.step (.closeLink nodeId)).map fun driver => ⟨driver, .closing nodeId rest retained⟩
  | .closing nodeId rest retained =>
    (p.driver.step (.eraseLink nodeId)).map fun driver => ⟨driver, .sweeping rest retained⟩
  | .finished => none

def step : ControlEvent → Option ControlPass
  | .control streamEpoch => p.control streamEpoch
  | .elsewhere e =>
    if e.ofControl then none else (p.driver.turn e).map fun driver => ⟨driver, p.point⟩

end ControlPass

/-! ### What happens elsewhere leaves the table and the addresses alone -/

namespace GatewayDriver

variable {d d' d'' : GatewayDriver} {l : ℕ}

structure Attends (d d' : GatewayDriver) : Prop where
  table : d'.messageLinks.Perm d.messageLinks
  address : ∀ l, (d'.links l).address = (d.links l).address

theorem Attends.refl (d : GatewayDriver) : d.Attends d := ⟨.refl _, fun _ => rfl⟩

theorem Attends.trans (h : d.Attends d') (h' : d'.Attends d'') : d.Attends d'' :=
  ⟨h'.table.trans h.table, fun l => (h'.address l).trans (h.address l)⟩

theorem attends_set {x : MessageLink} (hlinks : d'.links = Function.update d.links l x)
    (htable : d'.messageLinks = d.messageLinks) (hx : x.address = (d.links l).address) : d.Attends d' := by
  refine ⟨by rw [htable], fun l' => ?_⟩
  rw [hlinks]
  by_cases h : l' = l
  · rw [h, Function.update_self, hx]
  · rw [Function.update_of_ne h]

@[simp] theorem address_stop (x : MessageLink) : x.stop.address = x.address := by
  unfold MessageLink.stop
  split <;> rfl

theorem stopLink_attends (d : GatewayDriver) (l : ℕ) : d.Attends (d.stopLink l) :=
  attends_set rfl rfl (address_stop _)

theorem startRead_attends (d : GatewayDriver) (l : ℕ) : d.Attends (d.startRead l) := by
  unfold startRead
  split
  · exact .refl d
  · exact attends_set rfl rfl rfl

theorem enqueue_attends {frame : GatewayToMessageFrame} (h : d.enqueue l frame = .ok d') : d.Attends d' := by
  obtain ⟨-, w, rfl⟩ := enqueue_spec h
  exact attends_set rfl rfl rfl

theorem settle_attends (d : GatewayDriver) (P : String × PendingCommand → Bool)
    (completion : PendingCommand → Completion) : d.Attends (d.settle P completion) :=
  ⟨.refl _, fun _ => rfl⟩

theorem onGrpcFrame_attends (d : GatewayDriver) (l : ℕ) (frame : MessageToGatewayFrame)
    (forwarded : Forwarded) : d.Attends (d.onGrpcFrame l frame forwarded).1 := by
  unfold onGrpcFrame
  split
  · split
    · exact .refl d
    split
    · exact .refl d
    · exact ⟨.refl _, fun _ => rfl⟩
  · rename_i envelope
    have hcancel : d.Attends (if forwarded.closed then d.cancel envelope.expectedConnectionId else d) := by
      split
      · exact settle_attends d _ _
      · exact .refl d
    dsimp only
    split
    · rename_i henqueue
      exact hcancel.trans (enqueue_attends henqueue)
    · exact hcancel
  · exact .refl d

theorem onReadDone_attends (d : GatewayDriver) (l : ℕ) (frame : MessageToGatewayFrame)
    (forwarded : Forwarded) : d.Attends (d.onReadDone l frame forwarded) := by
  have hread : d.Attends (d.setLink l { d.links l with reading := false }) := attends_set rfl rfl rfl
  unfold onReadDone
  dsimp only
  generalize d.setLink l { d.links l with reading := false } = d' at hread
  refine hread.trans ?_
  split
  · exact stopLink_attends _ _
  · rename_i accepted _ _
    have hhealthy : d'.Attends (d'.setLink l { d'.links l with healthy := accepted }) := attends_set rfl rfl rfl
    refine hhealthy.trans ?_
    split
    · exact startRead_attends _ _
    · exact stopLink_attends _ _
  · have hframe := onGrpcFrame_attends d' l frame forwarded
    split
    · rename_i hok
      rw [hok] at hframe
      exact hframe.trans (startRead_attends _ _)
    rename_i herror
    rw [herror] at hframe
    exact hframe.trans (stopLink_attends _ _)

theorem sendCommand_attends {command : CommandEnvelope} (h : d.sendCommand command = .ok d') : d.Attends d' := by
  unfold sendCommand at h
  split at h
  · cases h
  split at h
  · cases h
  rename_i l _
  split at h
  · cases h
  dsimp only at h
  split at h
  · cases h
  split at h
  · cases h
  rename_i henqueue
  cases h
  exact (enqueue_attends henqueue).trans (attends_set rfl rfl rfl)

theorem write_attends (h : d.write l = some d') : d.Attends d' := by
  unfold write at h
  dsimp only at h
  split at h
  · cases h
  split at h
  · cases h
    exact attends_set rfl rfl rfl
  split at h
  · cases h
  cases h
  exact attends_set rfl rfl rfl

theorem written_attends {ok : Bool} (h : d.written l ok = some d') : d.Attends d' := by
  unfold written at h
  dsimp only at h
  split at h
  · cases h
  cases h
  refine attends_set rfl rfl ?_
  split
  · rfl
  · exact address_stop _

theorem onDone_attends (h : d.onDone l = some d') : d.Attends d' := by
  unfold onDone at h
  dsimp only at h
  split at h
  · cases h
    refine .trans ?_ (settle_attends _ _ _)
    exact attends_set rfl rfl rfl
  · cases h

theorem turn_attends {e : LinkDriverEvent} (he : e.ofControl = false) (h : d.turn e = some d') : d.Attends d' := by
  cases e with
  | read l frame forwarded =>
    simp only [turn] at h
    split at h
    · cases h
      exact onReadDone_attends d l frame forwarded
    · cases h
  | own e =>
    cases e with
    | openLink _ _ _ | closeLink _ | eraseLink _ | heartbeat _ _ _ => cases he
    | rehash table =>
      simp only [turn, step] at h
      split at h
      · rename_i hperm
        cases h
        exact ⟨hperm, fun _ => rfl⟩
      · cases h
    | sockets writes =>
      cases h
      exact ⟨.refl _, fun _ => rfl⟩
    | sendCommand command =>
      simp only [turn, step] at h
      split at h
      · rename_i hsend
        cases h
        exact sendCommand_attends hsend
      cases h
      exact .refl d
    | cancel connectionId =>
      cases h
      exact settle_attends d _ _
    | abort =>
      cases h
      exact ⟨.refl _, fun _ => address_stop _⟩
    | write l => exact write_attends h
    | written l ok => exact written_attends h
    | readFailed l =>
      simp only [turn, step] at h
      split at h
      · cases h
        exact attends_set rfl rfl (address_stop _)
      · cases h
    | done l => exact onDone_attends h

/-! ### What the pass does to the table -/

theorem openLink_spec (d : GatewayDriver) (nodeId : String) (address : Endpoint) (streamEpoch : ℕ) :
    let d' := d.openLink nodeId address streamEpoch
    d'.messageLinks = d.messageLinks ++ [(nodeId, d.created)] ∧ (d'.links d.created).address = address ∧
      (∀ l, l ≠ d.created → d'.links l = d.links l) ∧ d'.pending = d.pending ∧
      d'.completions = d.completions := by
  unfold openLink
  dsimp only
  split
  · rename_i henqueue
    obtain ⟨-, w, rfl⟩ := enqueue_spec henqueue
    refine ⟨rfl, by simp [setLink], fun l hl => ?_, rfl, rfl⟩
    rw [links_setLink_ne _ hl]
    exact links_setLink_ne _ hl _
  · refine ⟨rfl, ?_, fun l hl => ?_, rfl, rfl⟩
    · simp [stopLink, setLink]
    · unfold stopLink
      rw [links_setLink_ne _ hl]
      exact links_setLink_ne _ hl _

end GatewayDriver

namespace GatewayDriver

/-- A driver that some run has led to; no link is in its table twice. -/
structure Reached (options : GatewayOptions) (d : GatewayDriver) : Prop where
  balanced : d.Balanced options
  sound : d.Sound
  distinct : (d.messageLinks.map (·.2)).Nodup

variable {options : GatewayOptions} {d d' : GatewayDriver} {l : ℕ}

theorem start_reached (options : GatewayOptions) : (start options).Reached options :=
  ⟨start_balanced options, start_sound options, nodup_nil⟩

theorem turn_distinct (hd : d.Reached options) {e : LinkDriverEvent} (h : d.turn e = some d') :
    (d'.messageLinks.map (·.2)).Nodup := by
  by_cases he : e.ofControl = false
  · exact ((turn_attends he h).table.map _).nodup_iff.2 hd.distinct
  rcases e with (_ | _ | _ | _ | _ | _ | _ | _ | _ | _ | _ | _ | _) | _
  all_goals first
    | exact absurd rfl he
    | skip
  · rename_i nodeId address streamEpoch
    simp only [turn, step] at h
    split at h
    · cases h
    cases h
    rw [(openLink_spec d nodeId address streamEpoch).1, map_append, nodup_append]
    refine ⟨hd.distinct, by simp, ?_⟩
    rintro l hl l' hl' rfl
    obtain ⟨row, hrow, rfl⟩ := mem_map.1 hl
    have := hd.sound.table row.1 row.2 hrow
    simp only [map_cons, map_nil, mem_singleton] at hl'
    omega
  · obtain ⟨l, -, rfl⟩ := map_eq_some_iff.1 h
    exact hd.distinct
  · simp only [turn, step] at h
    split at h
    · cases h
    split at h
    · cases h
      exact hd.distinct.sublist (filter_sublist.map _)
    · cases h
  · simp only [turn, step] at h
    split at h
    · cases h
    split at h
    · cases h
    split at h
    · rename_i henqueue
      cases h
      exact ((enqueue_attends henqueue).table.map _).nodup_iff.2 hd.distinct
    cases h
    exact hd.distinct

theorem turn_reached (hd : d.Reached options) {e : LinkDriverEvent} (h : d.turn e = some d') :
    d'.Reached options := by
  obtain ⟨hbalanced, hsound⟩ := turn_balanced ⟨hd.balanced, hd.sound⟩ h
  exact ⟨hbalanced, hsound, turn_distinct hd h⟩

theorem Reached.link_unique (hd : d.Reached options) {id : String} {l l' : ℕ} (h : (id, l) ∈ d.messageLinks)
    (h' : (id, l') ∈ d.messageLinks) : l = l' :=
  (Prod.mk.inj (inj_on_of_nodup_map hd.balanced.nodes h h' rfl)).2

theorem Reached.node_unique (hd : d.Reached options) {id id' : String} {l : ℕ} (h : (id, l) ∈ d.messageLinks)
    (h' : (id', l) ∈ d.messageLinks) : id = id' :=
  (Prod.mk.inj (inj_on_of_nodup_map hd.distinct h h' rfl)).1

end GatewayDriver

/-! ### The moves of a pass -/

namespace ControlPass

open GatewayDriver

variable {p q : ControlPass} {options : GatewayOptions}

/-- The driver without the link of a node. -/
def without (d : GatewayDriver) (nodeId : String) : GatewayDriver :=
  { d with messageLinks := d.messageLinks.filter (·.1 ≠ nodeId) }

/-- What the pass does up to its next wait. -/
inductive Moves (p : ControlPass) : ControlPass → Prop
  | skip {node : ServiceNode} {rest : List ServiceNode} {retained : List String}
      (hpoint : p.point = .visiting (node :: rest) retained) (hvalid : node.valid = false) :
      Moves p ⟨p.driver, .visiting rest retained⟩
  | keep {node : ServiceNode} {rest : List ServiceNode} {retained : List String} {l : ℕ}
      (hpoint : p.point = .visiting (node :: rest) retained) (hvalid : node.valid = true)
      (hlink : (node.nodeId, l) ∈ p.driver.messageLinks) (hfits : p.fits node l = true) :
      Moves p ⟨p.driver, .visiting rest (node.nodeId :: retained)⟩
  | opens {node : ServiceNode} {rest : List ServiceNode} {retained : List String} (streamEpoch : ℕ)
      (hpoint : p.point = .visiting (node :: rest) retained) (hvalid : node.valid = true) :
      Moves p ⟨p.driver.openLink node.nodeId (node.address p.driver.options.gatewayId) streamEpoch,
        .visiting rest (node.nodeId :: retained)⟩
  | replace {node : ServiceNode} {rest : List ServiceNode} {retained : List String} {l : ℕ}
      (hpoint : p.point = .visiting (node :: rest) retained) (hvalid : node.valid = true)
      (hlink : (node.nodeId, l) ∈ p.driver.messageLinks) (hfits : p.fits node l = false) :
      Moves p ⟨p.driver.stopLink l, .replacing node rest (node.nodeId :: retained)⟩
  | replaced {node : ServiceNode} {rest : List ServiceNode} {retained : List String} {l : ℕ} (streamEpoch : ℕ)
      (hpoint : p.point = .replacing node rest retained)
      (hlink : (node.nodeId, l) ∈ p.driver.messageLinks) (hfinished : (p.driver.links l).finished = true) :
      Moves p ⟨(without p.driver node.nodeId).openLink node.nodeId
        (node.address p.driver.options.gatewayId) streamEpoch, .visiting rest retained⟩
  | sweep {retained : List String} (hpoint : p.point = .visiting [] retained) :
      Moves p ⟨p.driver, .sweeping p.driver.messageLinks retained⟩
  | retain {id : String} {l : ℕ} {rest : List (String × ℕ)} {retained : List String}
      (hpoint : p.point = .sweeping ((id, l) :: rest) retained) (hretained : id ∈ retained) :
      Moves p ⟨p.driver, .sweeping rest retained⟩
  | shut {id : String} {l l' : ℕ} {rest : List (String × ℕ)} {retained : List String}
      (hpoint : p.point = .sweeping ((id, l) :: rest) retained) (hretained : id ∉ retained)
      (hlink : (id, l') ∈ p.driver.messageLinks) :
      Moves p ⟨p.driver.stopLink l', .closing id rest retained⟩
  | erase {id : String} {l : ℕ} {rest : List (String × ℕ)} {retained : List String}
      (hpoint : p.point = .closing id rest retained) (hlink : (id, l) ∈ p.driver.messageLinks)
      (hfinished : (p.driver.links l).finished = true) :
      Moves p ⟨without p.driver id, .sweeping rest retained⟩
  | finish {retained : List String} (hpoint : p.point = .sweeping [] retained) : Moves p ⟨p.driver, .finished⟩

theorem mem_of_lookup {table : List (String × ℕ)} {id : String} {l : ℕ} (h : table.lookup id = some l) :
    (id, l) ∈ table := by
  obtain ⟨before, after, hrows, -⟩ := lookup_eq_some_iff.1 h
  simp [hrows]

theorem openLink_some {d d' : GatewayDriver} {id : String} {address : Endpoint} {streamEpoch : ℕ}
    (h : d.step (.openLink id address streamEpoch) = some d') : d' = d.openLink id address streamEpoch := by
  simp only [GatewayDriver.step] at h
  split at h
  · cases h
  cases h
  rfl

theorem closeLink_some {d d' : GatewayDriver} {id : String} (h : d.step (.closeLink id) = some d') :
    ∃ l, (id, l) ∈ d.messageLinks ∧ d' = d.stopLink l := by
  obtain ⟨l, hlookup, rfl⟩ := map_eq_some_iff.1 h
  exact ⟨l, mem_of_lookup hlookup, rfl⟩

theorem eraseLink_some {d d' : GatewayDriver} {id : String} (h : d.step (.eraseLink id) = some d') :
    ∃ l, (id, l) ∈ d.messageLinks ∧ (d.links l).finished = true ∧ d' = without d id := by
  simp only [GatewayDriver.step] at h
  split at h
  · cases h
  rename_i l hlookup
  split at h
  · rename_i hended
    cases h
    exact ⟨l, mem_of_lookup hlookup, hended.1, rfl⟩
  · cases h

theorem control_moves {streamEpoch : ℕ} (hp : p.driver.Reached options) (h : p.control streamEpoch = some q) :
    p.Moves q := by
  unfold control at h
  split at h
  · rename_i hpoint
    cases h
    exact .sweep hpoint
  · rename_i node rest retained hpoint
    split at h
    · rename_i hvalid
      cases h
      exact .skip hpoint (by simpa using hvalid)
    rename_i hvalid
    have hvalid : node.valid = true := by simpa using hvalid
    split at h
    · obtain ⟨d, hopen, rfl⟩ := map_eq_some_iff.1 h
      rw [openLink_some hopen]
      exact .opens streamEpoch hpoint hvalid
    rename_i l hlookup
    split at h
    · rename_i hfits
      cases h
      exact .keep hpoint hvalid (mem_of_lookup hlookup) hfits
    rename_i hfits
    obtain ⟨d, hclose, rfl⟩ := map_eq_some_iff.1 h
    obtain ⟨l', hl', rfl⟩ := closeLink_some hclose
    cases hp.link_unique hl' (mem_of_lookup hlookup)
    exact .replace hpoint hvalid hl' (by simpa using hfits)
  · rename_i node rest retained hpoint
    obtain ⟨erased, herase, h⟩ := bind_eq_some_iff.1 h
    obtain ⟨l, hl, hfinished, rfl⟩ := eraseLink_some herase
    obtain ⟨d, hopen, rfl⟩ := map_eq_some_iff.1 h
    rw [openLink_some hopen]
    exact .replaced streamEpoch hpoint hl hfinished
  · rename_i hpoint
    cases h
    exact .finish hpoint
  · rename_i id l rest retained hpoint
    split at h
    · rename_i hretained
      cases h
      exact .retain hpoint hretained
    rename_i hretained
    obtain ⟨d, hclose, rfl⟩ := map_eq_some_iff.1 h
    obtain ⟨l', hl', rfl⟩ := closeLink_some hclose
    exact .shut hpoint hretained hl'
  · rename_i id rest retained hpoint
    obtain ⟨erased, herase, rfl⟩ := map_eq_some_iff.1 h
    obtain ⟨l, hl, hfinished, rfl⟩ := eraseLink_some herase
    exact .erase hpoint hl hfinished
  · cases h

theorem control_turns {streamEpoch : ℕ} (h : p.control streamEpoch = some q) :
    ∃ es : List LinkDriverEvent, es.foldlM turn p.driver = some q.driver := by
  have hone {d : GatewayDriver} {e : GatewayEvent} (hstep : p.driver.step e = some d) :
      ∃ es : List LinkDriverEvent, es.foldlM turn p.driver = some d :=
    ⟨[.own e], by simpa [turn] using hstep⟩
  unfold control at h
  split at h
  · cases h
    exact ⟨[], rfl⟩
  · split at h
    · cases h
      exact ⟨[], rfl⟩
    split at h
    · obtain ⟨d, hopen, rfl⟩ := map_eq_some_iff.1 h
      exact hone hopen
    split at h
    · cases h
      exact ⟨[], rfl⟩
    obtain ⟨d, hclose, rfl⟩ := map_eq_some_iff.1 h
    exact hone hclose
  · rename_i node rest retained _
    obtain ⟨erased, herase, h⟩ := bind_eq_some_iff.1 h
    obtain ⟨d, hopen, rfl⟩ := map_eq_some_iff.1 h
    refine ⟨[.own (.eraseLink node.nodeId), .own (.openLink node.nodeId
      (node.address erased.options.gatewayId) streamEpoch)], ?_⟩
    simp [turn, herase, hopen]
  · cases h
    exact ⟨[], rfl⟩
  · split at h
    · cases h
      exact ⟨[], rfl⟩
    obtain ⟨d, hclose, rfl⟩ := map_eq_some_iff.1 h
    exact hone hclose
  · obtain ⟨erased, herase, rfl⟩ := map_eq_some_iff.1 h
    exact hone herase
  · cases h

theorem step_reached (hp : p.driver.Reached options) {e : ControlEvent} (h : p.step e = some q) :
    q.driver.Reached options := by
  cases e with
  | control streamEpoch =>
    obtain ⟨es, hes⟩ := control_turns h
    exact run_invariant hp (fun _ _ _ hd hstep => turn_reached hd hstep) hes
  | elsewhere e =>
    simp only [step] at h
    split at h
    · cases h
    obtain ⟨d, hturn, rfl⟩ := map_eq_some_iff.1 h
    exact turn_reached hp hturn

end ControlPass

/-! ### The table follows the entries -/

/-- The last entry for a node that is not skipped. -/
def lastValid (nodes : List ServiceNode) (id : String) : Option ServiceNode :=
  (nodes.filter fun node => node.valid && node.nodeId = id).getLast?

theorem lastValid_append (seen : List ServiceNode) (node : ServiceNode) (id : String) :
    lastValid (seen ++ [node]) id =
      if node.valid = true ∧ node.nodeId = id then some node else lastValid seen id := by
  unfold lastValid
  by_cases h : node.valid = true ∧ node.nodeId = id
  · simp [h]
  have hskipped : (node.valid && decide (node.nodeId = id)) = false := by simpa using h
  simp [h, hskipped]

theorem nodeId_of_lastValid {nodes : List ServiceNode} {id : String} {node : ServiceNode}
    (h : lastValid nodes id = some node) : node ∈ nodes ∧ node.valid = true ∧ node.nodeId = id := by
  have hmem := mem_filter.1 (mem_of_getLast? h)
  simpa using hmem

theorem lastValid_isSome {nodes : List ServiceNode} {id : String} :
    (lastValid nodes id).isSome = true ↔ ∃ node ∈ nodes, node.valid = true ∧ node.nodeId = id := by
  constructor
  · intro h
    obtain ⟨node, hnode⟩ := isSome_iff_exists.1 h
    exact ⟨node, nodeId_of_lastValid hnode⟩
  · rintro ⟨node, hmem, hvalid, hid⟩
    unfold lastValid
    rw [isSome_iff_ne_none, Ne, getLast?_eq_none_iff]
    exact ne_nil_of_mem (mem_filter.2 ⟨hmem, by simp [hvalid, hid]⟩)

namespace GatewayDriver

/-- The table has a link to where the entry says. -/
def Placed (gatewayId : String) (d : GatewayDriver) (node : ServiceNode) : Prop :=
  ∃ l, (node.nodeId, l) ∈ d.messageLinks ∧ (d.links l).address = node.address gatewayId

variable {gatewayId : String} {d d' : GatewayDriver} {node : ServiceNode}

theorem Placed.attends (h : d.Placed gatewayId node) (ha : d.Attends d') : d'.Placed gatewayId node := by
  obtain ⟨l, hl, haddress⟩ := h
  exact ⟨l, ha.table.mem_iff.2 hl, (ha.address l).trans haddress⟩

theorem Placed.openLink (h : d.Placed gatewayId node) (hd : ∀ id l, (id, l) ∈ d.messageLinks → l < d.created)
    (id : String) (address : Endpoint) (streamEpoch : ℕ) :
    (d.openLink id address streamEpoch).Placed gatewayId node := by
  obtain ⟨l, hl, haddress⟩ := h
  obtain ⟨htable, -, hothers, -, -⟩ := openLink_spec d id address streamEpoch
  refine ⟨l, ?_, ?_⟩
  · rw [htable]
    exact mem_append_left _ hl
  · rw [hothers l (hd _ l hl).ne]
    exact haddress

theorem placed_openLink (d : GatewayDriver) (gatewayId : String) (node : ServiceNode) (streamEpoch : ℕ) :
    (d.openLink node.nodeId (node.address gatewayId) streamEpoch).Placed gatewayId node := by
  obtain ⟨htable, haddress, -, -, -⟩ := openLink_spec d node.nodeId (node.address gatewayId) streamEpoch
  exact ⟨d.created, by simp [htable], haddress⟩

theorem Placed.without (h : d.Placed gatewayId node) {id : String} (hid : node.nodeId ≠ id) :
    (ControlPass.without d id).Placed gatewayId node := by
  obtain ⟨l, hl, haddress⟩ := h
  exact ⟨l, mem_filter.2 ⟨hl, by simpa using hid⟩, haddress⟩

end GatewayDriver

namespace ControlPass

open GatewayDriver

variable {p q : ControlPass} {options : GatewayOptions} {nodes : List ServiceNode}

/-- The nodes retained are those of the entries, and the links of these are where the last entries say;
    the link of node `but` may be missing. -/
structure Follows (gatewayId : String) (d : GatewayDriver) (seen : List ServiceNode) (retained : List String)
    (but : Option String) : Prop where
  retained : ∀ id, id ∈ retained ↔ (lastValid seen id).isSome = true
  placed : ∀ id node, lastValid seen id = some node → but ≠ some id → d.Placed gatewayId node

/-- How far the pass has come. -/
def Tracks (gatewayId : String) (nodes : List ServiceNode) (p : ControlPass) : Prop :=
  match p.point with
  | .visiting rest retained => ∃ seen, nodes = seen ++ rest ∧ Follows gatewayId p.driver seen retained none
  | .replacing node rest retained =>
    ∃ seen, nodes = seen ++ node :: rest ∧ node.valid = true ∧
      Follows gatewayId p.driver (seen ++ [node]) retained (some node.nodeId)
  | .sweeping rest retained =>
    Follows gatewayId p.driver nodes retained none ∧
      ∀ id l, (id, l) ∈ p.driver.messageLinks → id ∈ retained ∨ id ∈ rest.map (·.1)
  | .closing nodeId rest retained =>
    nodeId ∉ retained ∧ Follows gatewayId p.driver nodes retained none ∧
      ∀ id l, (id, l) ∈ p.driver.messageLinks → id ∈ retained ∨ id = nodeId ∨ id ∈ rest.map (·.1)
  | .finished =>
    ∃ retained, Follows gatewayId p.driver nodes retained none ∧
      ∀ id l, (id, l) ∈ p.driver.messageLinks → id ∈ retained

variable {seen : List ServiceNode} {retained : List String} {e : ControlEvent}

theorem Follows.mono {gatewayId : String} {d d' : GatewayDriver} {but : Option String}
    (h : Follows gatewayId d seen retained but)
    (hd : ∀ node, d.Placed gatewayId node → d'.Placed gatewayId node) :
    Follows gatewayId d' seen retained but :=
  ⟨h.retained, fun id node hlast hbut => hd node (h.placed id node hlast hbut)⟩

/-- An entry that is not skipped is the last for its node so far. -/
theorem Follows.visit {gatewayId : String} {d d' : GatewayDriver} {node : ServiceNode}
    (h : Follows gatewayId d seen retained none)
    (hvalid : node.valid = true)
    (hd : ∀ other : ServiceNode, other.nodeId ≠ node.nodeId → d.Placed gatewayId other →
      d'.Placed gatewayId other) :
    Follows gatewayId d' (seen ++ [node]) (node.nodeId :: retained) (some node.nodeId) where
  retained id := by
    rw [mem_cons, h.retained, lastValid_append]
    by_cases hid : id = node.nodeId
    · simp [hid, hvalid]
    · simp [hid, Ne.symm hid]
  placed id other hlast hbut := by
    have hid : id ≠ node.nodeId := fun hid => hbut (by rw [hid])
    rw [lastValid_append, if_neg fun hand => hid hand.2.symm] at hlast
    have hother := (nodeId_of_lastValid hlast).2.2
    exact hd other (hother ▸ hid) (h.placed id other hlast (by simp))

/-- With its link the entry has been dealt with. -/
theorem Follows.place {gatewayId : String} {d : GatewayDriver} {node : ServiceNode} (hvalid : node.valid = true)
    (h : Follows gatewayId d (seen ++ [node]) retained (some node.nodeId))
    (hplaced : d.Placed gatewayId node) : Follows gatewayId d (seen ++ [node]) retained none where
  retained := h.retained
  placed id other hlast _ := by
    by_cases hid : node.nodeId = id
    · rw [lastValid_append, if_pos ⟨hvalid, hid⟩] at hlast
      cases hlast
      exact hplaced
    · exact h.placed id other hlast (by simpa using hid)

theorem Tracks.attends {gatewayId : String} {d d' : GatewayDriver} {point : ControlPoint}
    (h : Tracks gatewayId nodes ⟨d, point⟩) (ha : d.Attends d') : Tracks gatewayId nodes ⟨d', point⟩ := by
  have hplaced (node : ServiceNode) (hnode : d.Placed gatewayId node) := hnode.attends ha
  have hmem {id : String} {l : ℕ} (hl : (id, l) ∈ d'.messageLinks) : (id, l) ∈ d.messageLinks :=
    ha.table.mem_iff.1 hl
  cases point with
  | visiting rest retained =>
    obtain ⟨seen, hseen, hfollows⟩ := h
    exact ⟨seen, hseen, hfollows.mono hplaced⟩
  | replacing node rest retained =>
    obtain ⟨seen, hseen, hvalid, hfollows⟩ := h
    exact ⟨seen, hseen, hvalid, hfollows.mono hplaced⟩
  | sweeping rest retained => exact ⟨h.1.mono hplaced, fun id l hl => h.2 id l (hmem hl)⟩
  | closing nodeId rest retained => exact ⟨h.1, h.2.1.mono hplaced, fun id l hl => h.2.2 id l (hmem hl)⟩
  | finished =>
    obtain ⟨retained, hfollows, hids⟩ := h
    exact ⟨retained, hfollows.mono hplaced, fun id l hl => hids id l (hmem hl)⟩

theorem mem_without {d : GatewayDriver} {nodeId id : String} {l : ℕ} :
    (id, l) ∈ (without d nodeId).messageLinks ↔ (id, l) ∈ d.messageLinks ∧ id ≠ nodeId := by
  simp [without, mem_filter]

theorem Moves.tracks (hp : p.driver.Reached options) (h : p.Moves q)
    (ht : Tracks options.gatewayId nodes p) : Tracks options.gatewayId nodes q := by
  have hconfigured : p.driver.options.gatewayId = options.gatewayId := by rw [hp.balanced.configured]
  cases h with
  | @skip node rest retained hpoint hvalid =>
    simp only [Tracks, hpoint] at ht
    obtain ⟨seen, hseen, hfollows⟩ := ht
    have hsame : ∀ id, lastValid (seen ++ [node]) id = lastValid seen id := by
      intro id
      rw [lastValid_append, if_neg (by simp [hvalid])]
    refine ⟨seen ++ [node], by simp [hseen], fun id => ?_, fun id other hlast hbut => ?_⟩
    · rw [hsame]
      exact hfollows.retained id
    · rw [hsame] at hlast
      exact hfollows.placed id other hlast hbut
  | @keep node rest retained l hpoint hvalid hlink hfits =>
    simp only [Tracks, hpoint] at ht
    obtain ⟨seen, hseen, hfollows⟩ := ht
    refine ⟨seen ++ [node], by simp [hseen], ?_⟩
    refine .place hvalid (hfollows.visit hvalid fun _ _ hother => hother) ⟨l, hlink, ?_⟩
    rw [← hconfigured]
    simpa using (Bool.and_eq_true_iff.1 hfits).2
  | @opens node rest retained streamEpoch hpoint hvalid =>
    simp only [Tracks, hpoint] at ht
    obtain ⟨seen, hseen, hfollows⟩ := ht
    refine ⟨seen ++ [node], by simp [hseen],
      .place hvalid (hfollows.visit hvalid fun other _ hother => ?_) ?_⟩
    · exact hother.openLink hp.sound.table _ _ _
    · rw [hconfigured]
      exact placed_openLink _ _ _ _
  | @replace node rest retained l hpoint hvalid hlink hfits =>
    simp only [Tracks, hpoint] at ht
    obtain ⟨seen, hseen, hfollows⟩ := ht
    refine ⟨seen, hseen, hvalid, hfollows.visit hvalid fun other _ hother => ?_⟩
    exact hother.attends (stopLink_attends _ _)
  | @replaced node rest retained l streamEpoch hpoint hlink hfinished =>
    simp only [Tracks, hpoint] at ht
    obtain ⟨seen, hseen, hvalid, hfollows⟩ := ht
    refine ⟨seen ++ [node], by simp [hseen], Follows.place hvalid ⟨hfollows.retained, ?_⟩ ?_⟩
    · intro id other hlast hbut
      have hother := (nodeId_of_lastValid hlast).2.2
      have hne : other.nodeId ≠ node.nodeId := fun heq => hbut (by rw [← hother, heq])
      refine ((hfollows.placed id other hlast hbut).without hne).openLink ?_ _ _ _
      exact fun id l hl => hp.sound.table id l (mem_without.1 hl).1
    · rw [hconfigured]
      exact placed_openLink _ _ _ _
  | sweep hpoint =>
    simp only [Tracks, hpoint] at ht
    obtain ⟨seen, hseen, hfollows⟩ := ht
    rw [append_nil] at hseen
    rw [hseen]
    exact ⟨hfollows, fun id l hl => .inr (mem_map_of_mem hl)⟩
  | retain hpoint hretained =>
    simp only [Tracks, hpoint] at ht
    refine ⟨ht.1, fun id l hl => ?_⟩
    rcases ht.2 id l hl with h | h
    · exact .inl h
    rcases mem_cons.1 h with rfl | h
    · exact .inl hretained
    · exact .inr h
  | shut hpoint hretained hlink =>
    simp only [Tracks, hpoint] at ht
    refine ⟨hretained, ht.1.mono fun node hnode => hnode.attends (stopLink_attends _ _), fun id l hl => ?_⟩
    rcases ht.2 id l hl with h | h
    · exact .inl h
    · exact .inr (mem_cons.1 h)
  | erase hpoint hlink hfinished =>
    simp only [Tracks, hpoint] at ht
    obtain ⟨hgone, hfollows, hids⟩ := ht
    refine ⟨⟨hfollows.retained, fun id node hlast hbut => ?_⟩, fun id l hl => ?_⟩
    · refine (hfollows.placed id node hlast hbut).without fun heq => hgone ?_
      rw [hfollows.retained, ← heq, (nodeId_of_lastValid hlast).2.2, hlast]
      rfl
    · obtain ⟨hl, hne⟩ := mem_without.1 hl
      rcases hids id l hl with h | h | h
      · exact .inl h
      · exact absurd h hne
      · exact .inr h
  | finish hpoint =>
    simp only [Tracks, hpoint] at ht
    exact ⟨_, ht.1, fun id l hl => (ht.2 id l hl).resolve_right (by simp)⟩

/-- A step of a pass is a move of `grpc_control`, or happens elsewhere. -/
theorem step_cases (hp : p.driver.Reached options) (h : p.step e = some q) :
    (∃ streamEpoch, e = .control streamEpoch ∧ p.Moves q) ∨
      ∃ e', e = .elsewhere e' ∧ p.driver.Attends q.driver ∧ q.point = p.point := by
  cases e with
  | control streamEpoch => exact .inl ⟨streamEpoch, rfl, control_moves hp h⟩
  | elsewhere e =>
    simp only [step] at h
    split at h
    · cases h
    rename_i he
    obtain ⟨d, hturn, rfl⟩ := map_eq_some_iff.1 h
    exact .inr ⟨e, rfl, turn_attends (by simpa using he) hturn, rfl⟩

theorem step_tracks (hp : p.driver.Reached options) (h : p.step e = some q)
    (ht : Tracks options.gatewayId nodes p) : Tracks options.gatewayId nodes q := by
  rcases step_cases hp h with ⟨-, -, hmoves⟩ | ⟨-, -, hattends, hpoint⟩
  · exact hmoves.tracks hp ht
  obtain ⟨d, point⟩ := q
  cases hpoint
  exact .attends ht hattends

/-! ### Links that are kept, and links that are removed -/

/-- The commands are left to the links: the pass completes none. -/
theorem Moves.pending (h : p.Moves q) :
    q.driver.pending = p.driver.pending ∧ q.driver.completions = p.driver.completions := by
  cases h with
  | opens streamEpoch hpoint hvalid => exact (openLink_spec _ _ _ _).2.2.2
  | replaced streamEpoch hpoint hlink hfinished => exact (openLink_spec (without p.driver _) _ _ _).2.2.2
  | _ => exact ⟨rfl, rfl⟩

/-- What is erased from the table has ended, and no command waits for it. -/
theorem Moves.removed (hp : p.driver.Reached options) (h : p.Moves q) {id : String} {l : ℕ}
    (hl : (id, l) ∈ p.driver.messageLinks) (hgone : (id, l) ∉ q.driver.messageLinks) :
    (p.driver.links l).finished = true ∧ ∀ entry ∈ p.driver.pending, entry.2.link ≠ l := by
  have hended : (p.driver.links l).finished = true := by
    cases h with
    | opens streamEpoch hpoint hvalid =>
      refine absurd ?_ hgone
      rw [(openLink_spec _ _ _ _).1]
      exact mem_append_left _ hl
    | @replaced node rest retained l' streamEpoch hpoint hlink hfinished =>
      by_cases hid : id = node.nodeId
      · subst hid
        rwa [hp.link_unique hl hlink]
      refine absurd ?_ hgone
      rw [(openLink_spec (without p.driver node.nodeId) _ _ _).1]
      exact mem_append_left _ (mem_without.2 ⟨hl, hid⟩)
    | @erase id' l' rest retained hpoint hlink hfinished =>
      by_cases hid : id = id'
      · subst hid
        rwa [hp.link_unique hl hlink]
      · exact absurd (mem_without.2 ⟨hl, hid⟩) hgone
    | _ => exact absurd hl hgone
  refine ⟨hended, fun entry he heq => ?_⟩
  have hlive := hp.sound.live entry.1 entry.2 he
  rw [heq, hended] at hlive
  cases hlive

/-- The pass comes to an entry for the node that is not skipped. -/
def Visits (id : String) (p : ControlPass) (e : ControlEvent) : Prop :=
  ∃ streamEpoch node rest retained, e = .control streamEpoch ∧
    p.point = .visiting (node :: rest) retained ∧ node.valid = true ∧ node.nodeId = id

/-- Link `l` of a node is in the table, and no entry asks for another address. -/
def Kept (gatewayId : String) (id : String) (l : ℕ) (address : Endpoint) (p : ControlPass) : Prop :=
  (id, l) ∈ p.driver.messageLinks ∧ (p.driver.links l).address = address ∧
  let agree (rest : List ServiceNode) :=
    ∀ node ∈ rest, node.valid = true → node.nodeId = id → node.address gatewayId = address
  let listed (rest : List ServiceNode) (retained : List String) :=
    id ∈ retained ∨ ∃ node ∈ rest, node.valid = true ∧ node.nodeId = id
  match p.point with
  | .visiting rest retained => agree rest ∧ listed rest retained
  | .replacing node rest retained => node.nodeId ≠ id ∧ agree rest ∧ listed rest retained
  | .sweeping _ retained => id ∈ retained
  | .closing nodeId _ retained => nodeId ≠ id ∧ id ∈ retained
  | .finished => True

variable {id : String} {l : ℕ} {address : Endpoint}

theorem Kept.attends {gatewayId : String} {d d' : GatewayDriver} {point : ControlPoint}
    (h : Kept gatewayId id l address ⟨d, point⟩) (ha : d.Attends d') :
    Kept gatewayId id l address ⟨d', point⟩ :=
  ⟨ha.table.mem_iff.2 h.1, (ha.address l).trans h.2.1, h.2.2⟩

theorem listed_tail {node : ServiceNode} {rest : List ServiceNode}
    (h : id ∈ retained ∨ ∃ node' ∈ node :: rest, node'.valid = true ∧ node'.nodeId = id)
    (hhead : node.valid = true → node.nodeId = id → id ∈ retained) :
    id ∈ retained ∨ ∃ node' ∈ rest, node'.valid = true ∧ node'.nodeId = id := by
  rcases h with h | ⟨node', hmem, hvalid, hid⟩
  · exact .inl h
  rcases mem_cons.1 hmem with rfl | hmem
  · exact .inl (hhead hvalid hid)
  · exact .inr ⟨node', hmem, hvalid, hid⟩

/-- A link whose address no entry disputes, and that has not ended when it is visited, is not touched. -/
theorem Moves.kept (hp : p.driver.Reached options) (h : p.Moves q)
    (hk : Kept options.gatewayId id l address p)
    (hrunning : ∀ streamEpoch, Visits id p (.control streamEpoch) → (p.driver.links l).finished = false) :
    Kept options.gatewayId id l address q ∧ q.driver.links l = p.driver.links l := by
  have hconfigured : p.driver.options.gatewayId = options.gatewayId := by rw [hp.balanced.configured]
  obtain ⟨hl, haddress, hrest⟩ := hk
  have hcreated := hp.sound.table id l hl
  cases h with
  | skip hpoint hvalid =>
    simp only [hpoint] at hrest
    refine ⟨⟨hl, haddress, fun node hnode => hrest.1 node (mem_cons_of_mem _ hnode), ?_⟩, rfl⟩
    exact listed_tail hrest.2 fun h => absurd h (by simp [hvalid])
  | @keep node rest retained l' hpoint hvalid hlink hfits =>
    simp only [hpoint] at hrest
    refine ⟨⟨hl, haddress, fun node hnode => hrest.1 node (mem_cons_of_mem _ hnode), ?_⟩, rfl⟩
    refine listed_tail (hrest.2.imp_left (mem_cons_of_mem _)) ?_
    rintro - rfl
    exact mem_cons_self
  | @opens node rest retained streamEpoch hpoint hvalid =>
    simp only [hpoint] at hrest
    obtain ⟨htable, -, hothers, -, -⟩ := openLink_spec p.driver node.nodeId
      (node.address p.driver.options.gatewayId) streamEpoch
    have hsame := hothers l hcreated.ne
    refine ⟨⟨?_, ?_, fun node hnode => hrest.1 node (mem_cons_of_mem _ hnode), ?_⟩, hsame⟩
    · rw [htable]
      exact mem_append_left _ hl
    · rw [hsame]
      exact haddress
    · refine listed_tail (hrest.2.imp_left (mem_cons_of_mem _)) ?_
      rintro - rfl
      exact mem_cons_self
  | @replace node rest retained l' hpoint hvalid hlink hfits =>
    simp only [hpoint] at hrest
    -- the entry is not for this node, or its link would have been kept
    have hne : node.nodeId ≠ id := by
      rintro rfl
      cases hp.link_unique hl hlink
      have hfinished := hrunning 0 ⟨0, node, rest, retained, rfl, hpoint, hvalid, rfl⟩
      have hwanted := hrest.1 node mem_cons_self hvalid rfl
      simp [fits, hfinished, haddress, hconfigured, hwanted] at hfits
    have hother : l ≠ l' := by
      rintro rfl
      exact hne (hp.node_unique hlink hl)
    have hsame : (p.driver.stopLink l').links l = p.driver.links l := links_setLink_ne _ hother _
    refine ⟨⟨hl, ?_, hne, fun node hnode => hrest.1 node (mem_cons_of_mem _ hnode), ?_⟩, hsame⟩
    · rw [hsame]
      exact haddress
    · exact listed_tail (hrest.2.imp_left (mem_cons_of_mem _)) fun _ h => absurd h hne
  | @replaced node rest retained l' streamEpoch hpoint hlink hfinished =>
    simp only [hpoint] at hrest
    obtain ⟨htable, -, hothers, -, -⟩ := openLink_spec (without p.driver node.nodeId) node.nodeId
      (node.address p.driver.options.gatewayId) streamEpoch
    have hsame := hothers l hcreated.ne
    refine ⟨⟨?_, ?_, hrest.2⟩, hsame⟩
    · rw [htable]
      exact mem_append_left _ (mem_without.2 ⟨hl, hrest.1.symm⟩)
    · rw [hsame]
      exact haddress
  | sweep hpoint =>
    simp only [hpoint] at hrest
    exact ⟨⟨hl, haddress, hrest.2.resolve_right (by simp)⟩, rfl⟩
  | retain hpoint hretained =>
    simp only [hpoint] at hrest
    exact ⟨⟨hl, haddress, hrest⟩, rfl⟩
  | @shut id' l₀ l' rest retained hpoint hretained hlink =>
    simp only [hpoint] at hrest
    have hne : id' ≠ id := by
      rintro rfl
      exact hretained hrest
    have hother : l ≠ l' := by
      rintro rfl
      exact hne (hp.node_unique hlink hl)
    have hsame : (p.driver.stopLink l').links l = p.driver.links l := links_setLink_ne _ hother _
    refine ⟨⟨hl, ?_, hne, hrest⟩, hsame⟩
    rw [hsame]
    exact haddress
  | erase hpoint hlink hfinished =>
    simp only [hpoint] at hrest
    exact ⟨⟨mem_without.2 ⟨hl, hrest.1.symm⟩, haddress, hrest.2⟩, rfl⟩
  | finish hpoint => exact ⟨⟨hl, haddress, trivial⟩, rfl⟩

theorem step_kept (hp : p.driver.Reached options) (h : p.step e = some q)
    (hk : Kept options.gatewayId id l address p)
    (hrunning : Visits id p e → (p.driver.links l).finished = false) :
    Kept options.gatewayId id l address q := by
  rcases step_cases hp h with ⟨streamEpoch, rfl, hmoves⟩ | ⟨-, -, hattends, hpoint⟩
  · refine (hmoves.kept hp hk ?_).1
    rintro - ⟨-, node, rest, retained, -, hvisits⟩
    exact hrunning ⟨streamEpoch, node, rest, retained, rfl, hvisits⟩
  obtain ⟨d, point⟩ := q
  cases hpoint
  exact .attends hk hattends

end ControlPass

open GatewayDriver ControlPass in
/-- A pass that comes to its end, from any state of the driver, with any answer of State and whatever
    happens meanwhile. The nodes of the table are those of the entries that are not skipped; a link goes
    to the port of the last of these for its node, which is a port. A link that no entry disputes and
    that has not ended when it is visited stays, and no move of the pass touches it; none completes a
    command. A link that is removed has ended, and no command waits for it. -/
theorem topology_reconciled (options : GatewayOptions) {before : List LinkDriverEvent} {d : GatewayDriver}
    (hbefore : before.foldlM turn (start options) = some d) (nodes : List ServiceNode)
    {events : List ControlEvent} {t : ControlPass}
    (hrun : events.foldlM ControlPass.step (begin d nodes) = some t) (hend : t.point = .finished) :
    (∀ id, (∃ l, (id, l) ∈ t.driver.messageLinks) ↔ ∃ node ∈ nodes, node.Usable ∧ node.nodeId = id) ∧
    (∀ id l, (id, l) ∈ t.driver.messageLinks → ∃ node, lastValid nodes id = some node ∧
      (t.driver.links l).address.host = node.host ∧
      ((t.driver.links l).address.port : ℤ) = node.port + ownerShard options.gatewayId node.shardCount ∧
      (t.driver.links l).address.port ≤ 65535) ∧
    (∀ id l, (id, l) ∈ d.messageLinks → (∃ node ∈ nodes, node.Usable ∧ node.nodeId = id) →
      (∀ node ∈ nodes, node.Usable → node.nodeId = id →
        (d.links l).address = node.address options.gatewayId) →
      (∀ s e, Occurs ControlPass.step (begin d nodes) events s e → Visits id s e →
        (s.driver.links l).finished = false) →
      (id, l) ∈ t.driver.messageLinks ∧
      ∀ s streamEpoch s', Occurs ControlPass.step (begin d nodes) events s (.control streamEpoch) →
        s.step (.control streamEpoch) = some s' → s'.driver.links l = s.driver.links l ∧
        s'.driver.pending = s.driver.pending ∧ s'.driver.completions = s.driver.completions) ∧
    (∀ s e s', Occurs ControlPass.step (begin d nodes) events s e → s.step e = some s' →
      ∀ id l, (id, l) ∈ s.driver.messageLinks → (id, l) ∉ s'.driver.messageLinks →
        (s.driver.links l).finished = true ∧ ∀ entry ∈ s.driver.pending, entry.2.link ≠ l) := by
  have hd : d.Reached options :=
    run_invariant (start_reached options) (fun _ _ _ hd hstep => turn_reached hd hstep) hbefore
  have hreached {s : ControlPass} (hs : Path ControlPass.step (Occurs ControlPass.step (begin d nodes) events)
      (begin d nodes) s) : s.driver.Reached options :=
    hs.invariant hd fun _ _ _ _ hp _ hstep => step_reached hp hstep
  have hpath := path_occurs (append_nil events).symm hrun
  have ht : Tracks options.gatewayId nodes t := by
    refine hpath.invariant ?_ fun _ _ _ hs hp _ hstep => step_tracks (hreached hs) hstep hp
    exact ⟨[], rfl, by simp [lastValid], by simp [lastValid]⟩
  simp only [Tracks, hend] at ht
  obtain ⟨retained, hfollows, hids⟩ := ht
  simp only [← ServiceNode.valid_iff]
  refine ⟨fun id => ?_, fun id l hl => ?_, fun id l hl hlisted hagree hrunning => ?_,
    fun s e s' hoccurs hstep id l hl hgone => ?_⟩
  · rw [← lastValid_isSome, ← hfollows.retained]
    constructor
    · rintro ⟨l, hl⟩
      exact hids id l hl
    · intro hid
      obtain ⟨node, hnode⟩ := isSome_iff_exists.1 ((hfollows.retained id).1 hid)
      obtain ⟨l, hl, -⟩ := hfollows.placed id node hnode (by simp)
      exact ⟨l, (nodeId_of_lastValid hnode).2.2 ▸ hl⟩
  · obtain ⟨node, hnode⟩ := isSome_iff_exists.1 ((hfollows.retained id).1 (hids id l hl))
    obtain ⟨l', hl', haddress⟩ := hfollows.placed id node hnode (by simp)
    obtain ⟨-, hvalid, hid⟩ := nodeId_of_lastValid hnode
    rw [hid] at hl'
    cases (hreached hpath).link_unique hl hl'
    have hport := ((ServiceNode.valid_iff node).1 hvalid).port_address options.gatewayId
    refine ⟨node, hnode, ?_⟩
    rw [haddress]
    exact ⟨rfl, hport⟩
  · have hkept {s : ControlPass} (hs : Path ControlPass.step
        (Occurs ControlPass.step (begin d nodes) events) (begin d nodes) s) :
        Kept options.gatewayId id l (d.links l).address s := by
      refine hs.invariant ?_ fun _ _ _ hs hp hoccurs hstep =>
        step_kept (hreached hs) hstep hp (hrunning _ _ hoccurs)
      exact ⟨hl, rfl, fun node hnode hvalid hid => (hagree node hnode hvalid hid).symm, .inr hlisted⟩
    refine ⟨(hkept hpath).1, fun s streamEpoch s' hoccurs hstep => ?_⟩
    have hmoves := control_moves (hreached hoccurs.path) hstep
    refine ⟨(hmoves.kept (hreached hoccurs.path) (hkept hoccurs.path) ?_).2, hmoves.pending⟩
    rintro - ⟨-, node, rest, retained, -, hvisits⟩
    exact hrunning s _ hoccurs ⟨streamEpoch, node, rest, retained, rfl, hvisits⟩
  · rcases step_cases (hreached hoccurs.path) hstep with ⟨-, -, hmoves⟩ | ⟨-, -, hattends, -⟩
    · exact hmoves.removed (hreached hoccurs.path) hl hgone
    · exact absurd (hattends.table.mem_iff.2 hl) hgone

namespace ControlPass

/-- An answer in which node `b` is listed twice, the second time with another port. -/
def answer : List ServiceNode := [
  { nodeId := "c", host := "host", port := 65535, status := "active", shardCount := 2 },
  { nodeId := "a", host := "host", port := 7000, status := "active", shardCount := 1 },
  { nodeId := "b", host := "host", port := 7100, status := "active", shardCount := 1 },
  { nodeId := "b", host := "host", port := 7200, status := "active", shardCount := 1 }]

/-- The link that `close` waits for loses its frame and ends. -/
def ending (l : ℕ) : List ControlEvent := [.elsewhere (.own (.write l)), .elsewhere (.own (.done l))]

/-- The link of `b` is replaced at its second entry, and that of `x` is closed in the sweep. -/
def wholePass : List ControlEvent :=
  [.control 1, .control 1, .control 1, .control 1] ++ ending 2 ++ [.control 2, .control 2, .control 2, .control 2] ++
    ending 1 ++ [.control 2, .control 2, .control 2]

end ControlPass

open GatewayDriver ControlPass in
theorem topology_reconciled_pass : ∃ (d : GatewayDriver) (t : ControlPass),
    [LinkDriverEvent.own (.openLink "a" ⟨"host", 7000⟩ 1), .own (.openLink "x" ⟨"host", 7000⟩ 1)].foldlM turn
      (start shardOptions) = some d ∧
    wholePass.foldlM ControlPass.step (begin d answer) = some t ∧ t.point = .finished ∧
    d.messageLinks = [("a", 0), ("x", 1)] ∧ t.driver.messageLinks = [("a", 0), ("b", 3)] ∧
    (t.driver.links 3).address.port = 7200 ∧ ¬ ∃ l, ("x", l) ∈ t.driver.messageLinks := by
  obtain ⟨d, hbefore, t, hrun, hend, htable, htable', hport⟩ : ∃ d : GatewayDriver,
      [LinkDriverEvent.own (.openLink "a" ⟨"host", 7000⟩ 1), .own (.openLink "x" ⟨"host", 7000⟩ 1)].foldlM turn
        (start shardOptions) = some d ∧
      ∃ t, wholePass.foldlM ControlPass.step (begin d answer) = some t ∧ t.point = .finished ∧
        d.messageLinks = [("a", 0), ("x", 1)] ∧ t.driver.messageLinks = [("a", 0), ("b", 3)] ∧
        (t.driver.links 3).address.port = 7200 :=
    ⟨_, rfl, _, rfl, rfl, rfl, by decide +kernel, by decide +kernel⟩
  have hids := (topology_reconciled shardOptions hbefore answer hrun hend).1 "x"
  refine ⟨d, t, hbefore, hrun, hend, htable, htable', hport, ?_⟩
  rw [hids]
  simp [answer]

end Imm
