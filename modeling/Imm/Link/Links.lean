import Imm.Link.System

/-! What the Gateway does with its commands. Sending apart, a step puts no command on a link and loses
    none unless the link is stopping; and it completes some of the pending commands, which it forgets,
    and touches no other (`GatewayDriver.Settles`). Every ticket given out is pending or completed, and
    that once (`GatewayDriver.Sound`). -/

namespace Imm

open List

/-! ### One link -/

namespace MessageLink

/-- `x` becomes `y` and gets no command; it loses some only if it is stopping then. -/
structure Retains (x y : MessageLink) : Prop where
  peer : y.peer = x.peer
  stopping : x.stopping = true → y.stopping = true
  commands : y.commands.Sublist x.commands
  lasting : y.stopping = false → y.commands = x.commands

/-- And it has not ended. -/
structure Keeps (x y : MessageLink) : Prop extends Retains x y where
  finished : y.finished = x.finished

variable {x y z : MessageLink}

theorem Keeps.refl (x : MessageLink) : x.Keeps x :=
  ⟨⟨rfl, fun h => h, .refl _, fun _ => rfl⟩, rfl⟩

theorem Keeps.running (h : x.Keeps y) (hy : y.stopping = false) : x.stopping = false :=
  Bool.eq_false_iff.2 fun hx => absurd (h.stopping hx) (by simp [hy])

theorem Keeps.trans (h : x.Keeps y) (h' : y.Keeps z) : x.Keeps z where
  peer := h'.peer.trans h.peer
  stopping hx := h'.stopping (h.stopping hx)
  finished := h'.finished.trans h.finished
  commands := h'.commands.trans h.commands
  lasting hz := by rw [h'.lasting hz, h.lasting (h'.running hz)]

theorem keeps_stop (x : MessageLink) : x.Keeps x.stop := by
  unfold stop
  split
  · exact .refl x
  · exact ⟨⟨rfl, fun _ => rfl, .refl _, fun _ => rfl⟩, rfl⟩

end MessageLink

/-! ### The driver -/

namespace GatewayDriver

/-- The pending commands that `f` gives a completion are completed with it and forgotten. -/
structure Settles (d d' : GatewayDriver) (f : String × PendingCommand → Option Completion) : Prop where
  pending : d'.pending = d.pending.filter fun entry => (f entry).isNone
  completions : d'.completions =
    d.completions ++ d.pending.filterMap fun entry => (f entry).map fun c => (entry.2.ticket, c)
  sent : d'.sent = d.sent

/-- What the steps of a driver do with its links, sending a command apart. -/
structure Advances (d d' : GatewayDriver) : Prop where
  created : d.created ≤ d'.created
  links : ∀ l < d.created, (d.links l).Retains (d'.links l)
  opened : ∀ l, d.created ≤ l → (d'.links l).peer = none ∧ (d'.links l).commands = []

structure Sound (d : GatewayDriver) : Prop where
  keys : (d.pending.map (·.1)).Nodup
  entries : ∀ k p, (k, p) ∈ d.pending → ∃ c, d.sent[p.ticket]? = some (p.link, c) ∧
    c.label = (k, p.ticket) ∧ k = correlation c.connectionId p.clientRequestId
  /-- every ticket is pending or completed, and that once -/
  tickets : (d.pending.map (·.2.ticket) ++ d.completions.map (·.1)).Perm (List.range d.sent.length)
  live : ∀ k p, (k, p) ∈ d.pending → (d.links p.link).finished = false
  table : ∀ id l, (id, l) ∈ d.messageLinks → l < d.created
  sentOn : ∀ l c, (l, c) ∈ d.sent → l < d.created
  fresh : ∀ l, d.created ≤ l → (d.links l).peer = none ∧ (d.links l).commands = []
  ended : ∀ l, l < d.created → (d.links l).finished = true → (d.links l).stopping = true

variable {d d' d'' : GatewayDriver} {l : ℕ} {f : String × PendingCommand → Option Completion}

@[simp] theorem links_setLink (d : GatewayDriver) (l : ℕ) (x : MessageLink) :
    (d.setLink l x).links l = x := Function.update_self _ _ _

theorem links_setLink_ne (d : GatewayDriver) {l l' : ℕ} (h : l' ≠ l) (x : MessageLink) :
    (d.setLink l x).links l' = d.links l' := Function.update_of_ne h _ _

theorem Settles.nothing (hpending : d'.pending = d.pending) (hcompletions : d'.completions = d.completions)
    (hsent : d'.sent = d.sent) : d.Settles d' fun _ => none := by
  refine ⟨?_, ?_, hsent⟩
  · simp [hpending]
  · simp [hcompletions]

theorem settled_tickets (f : String × PendingCommand → Option Completion)
    (pending : List (String × PendingCommand)) :
    ((pending.filter fun entry => (f entry).isNone).map (·.2.ticket) ++
      (pending.filterMap fun entry => (f entry).map fun c => (entry.2.ticket, c)).map (·.1)).Perm
      (pending.map (·.2.ticket)) := by
  induction pending with
  | nil => exact .refl _
  | cons entry pending ih =>
    cases hf : f entry with
    | none => simpa [hf] using ih.cons entry.2.ticket
    | some c =>
      simp only [filter_cons, hf, Option.isNone_some, Bool.false_eq_true, if_false,
        filterMap_cons, Option.map_some, map_cons]
      exact perm_middle.trans (ih.cons _)

theorem Settles.tickets (h : d.Settles d' f) :
    (d'.pending.map (·.2.ticket) ++ d'.completions.map (·.1)).Perm
      (d.pending.map (·.2.ticket) ++ d.completions.map (·.1)) := by
  rw [h.pending, h.completions, map_append]
  refine (perm_append_comm_assoc _ _ _).trans ?_
  exact (List.Perm.append_left _ (settled_tickets f d.pending)).trans perm_append_comm

theorem Settles.subset (h : d.Settles d' f) : d'.pending ⊆ d.pending := by
  rw [h.pending]
  exact filter_subset_self _

theorem Settles.congr {g : String × PendingCommand → Option Completion}
    (h : d.Settles d' f) (hfg : ∀ entry ∈ d.pending, f entry = g entry) : d.Settles d' g where
  pending := by
    rw [h.pending]
    exact filter_congr fun entry he => by rw [hfg entry he]
  completions := by
    rw [h.completions]
    congr 1
    exact filterMap_congr fun entry he => by rw [hfg entry he]
  sent := h.sent

/-- A step that opens and ends no link and sends no command. -/
structure Tends (d d' : GatewayDriver) (f : String × PendingCommand → Option Completion) : Prop where
  settles : d.Settles d' f
  created : d'.created = d.created
  table : d'.messageLinks ⊆ d.messageLinks
  links : ∀ l, (d.links l).Keeps (d'.links l)

theorem Tends.refl (d : GatewayDriver) : d.Tends d fun _ => none :=
  ⟨.nothing rfl rfl rfl, rfl, .refl _, fun _ => .refl _⟩

theorem Tends.before (h : d.Tends d' fun _ => none) (h' : d'.Tends d'' f) : d.Tends d'' f where
  settles := by
    have hpending : d'.pending = d.pending := by simpa using h.settles.pending
    have hcompletions : d'.completions = d.completions := by simpa using h.settles.completions
    refine ⟨?_, ?_, h'.settles.sent.trans h.settles.sent⟩
    · rw [h'.settles.pending, hpending]
    · rw [h'.settles.completions, hcompletions, hpending]
  created := h'.created.trans h.created
  table := List.Subset.trans h'.table h.table
  links l := (h.links l).trans (h'.links l)

theorem Tends.after (h : d.Tends d' f) (h' : d'.Tends d'' fun _ => none) : d.Tends d'' f where
  settles := by
    have hpending : d''.pending = d'.pending := by simpa using h'.settles.pending
    have hcompletions : d''.completions = d'.completions := by simpa using h'.settles.completions
    exact ⟨hpending.trans h.settles.pending, hcompletions.trans h.settles.completions,
      h'.settles.sent.trans h.settles.sent⟩
  created := h'.created.trans h.created
  table := List.Subset.trans h'.table h.table
  links l := (h.links l).trans (h'.links l)

theorem Tends.fresh (h : d.Tends d' f) (hd : d.Sound) (l : ℕ) (hl : d.created ≤ l) :
    (d'.links l).peer = none ∧ (d'.links l).commands = [] := by
  obtain ⟨hpeer, hcommands⟩ := hd.fresh l hl
  exact ⟨(h.links l).peer.trans hpeer, eq_nil_of_subset_nil (hcommands ▸ (h.links l).commands.subset)⟩

theorem Tends.advances (h : d.Tends d' f) (hd : d.Sound) : d.Advances d' :=
  ⟨h.created.ge, fun l _ => (h.links l).toRetains, h.fresh hd⟩

theorem Tends.sound (h : d.Tends d' f) (hd : d.Sound) : d'.Sound where
  keys := by
    rw [h.settles.pending]
    exact hd.keys.sublist (filter_sublist.map _)
  entries k p hp := by
    rw [h.settles.sent]
    exact hd.entries k p (h.settles.subset hp)
  tickets := by
    rw [h.settles.sent]
    exact h.settles.tickets.trans hd.tickets
  live k p hp := (h.links p.link).finished.trans (hd.live k p (h.settles.subset hp))
  table id l hl := h.created ▸ hd.table id l (h.table hl)
  sentOn l c hc := h.created ▸ hd.sentOn l c (h.settles.sent ▸ hc)
  fresh l hl := h.fresh hd l (h.created ▸ hl)
  ended l hl hfinished := (h.links l).stopping
    (hd.ended l (h.created ▸ hl) ((h.links l).finished ▸ hfinished))

/-! ### What keeps the links as they are -/

theorem tends_set {x : MessageLink} (hx : (d.links l).Keeps x)
    (h : (d'.links, d'.created, d'.messageLinks, d'.pending, d'.completions, d'.sent) =
      (Function.update d.links l x, d.created, d.messageLinks, d.pending, d.completions, d.sent)) :
    d.Tends d' fun _ => none := by
  simp only [Prod.mk.injEq] at h
  obtain ⟨hlinks, hcreated, htable, hpending, hcompletions, hsent⟩ := h
  refine ⟨.nothing hpending hcompletions hsent, hcreated, htable ▸ .refl _, fun l' => ?_⟩
  rw [hlinks]
  by_cases h : l' = l
  · subst h
    rwa [Function.update_self]
  rw [Function.update_of_ne h]
  exact .refl _

theorem stopLink_tends (d : GatewayDriver) (l : ℕ) : d.Tends (d.stopLink l) fun _ => none :=
  tends_set (MessageLink.keeps_stop _) rfl

theorem keeps_rest (x : MessageLink) (healthy reading : Bool) (inflight : ℕ)
    (writing : Option GatewayToMessageFrame) : x.Keeps { x with healthy, reading, inflight, writing } :=
  ⟨⟨rfl, fun h => h, .refl _, fun _ => rfl⟩, rfl⟩

theorem startRead_tends (d : GatewayDriver) (l : ℕ) : d.Tends (d.startRead l) fun _ => none := by
  unfold startRead
  split
  · exact .refl d
  · exact tends_set (keeps_rest _ _ _ _ _) rfl

theorem enqueue_spec {frame : GatewayToMessageFrame} (h : d.enqueue l frame = .ok d') :
    (d.links l).stopping = false ∧ ∃ w, d' =
      { d.setLink l { d.links l with queued := (d.links l).queued ++ [frame] } with writes := w } := by
  unfold enqueue at h
  split at h
  · cases h
  rename_i hrun
  split at h
  · cases h
  rename_i w _
  cases h
  exact ⟨by simpa using hrun, w, rfl⟩

theorem enqueue_tends {frame : GatewayToMessageFrame} (hframe : frame.command? = none)
    (h : d.enqueue l frame = .ok d') : d.Tends d' fun _ => none := by
  obtain ⟨-, w, rfl⟩ := enqueue_spec h
  refine tends_set ?_ rfl
  refine ⟨⟨rfl, fun h => h, ?_, fun _ => ?_⟩, rfl⟩ <;> simp [MessageLink.commands, hframe]

theorem write_tends (h : d.write l = some d') : d.Tends d' fun _ => none := by
  unfold write at h
  dsimp only at h
  split at h
  · cases h
  rename_i frame queued hqueued
  split at h
  · rename_i hstop
    cases h
    refine tends_set ?_ rfl
    refine ⟨⟨rfl, fun h => h, ?_, fun hrun => ?_⟩, rfl⟩
    · unfold MessageLink.commands
      rw [hqueued]
      exact .filterMap _ (.append_left (sublist_cons_self _ _) _)
    · exact absurd hstop (by simp [show (d.links l).stopping = false from hrun])
  · split at h
    · cases h
    cases h
    refine tends_set (l := l) ?_ rfl
    have hsame : (d.links l).wire ++ [frame] ++ queued =
        (d.links l).wire ++ (d.links l).queued := by simp [hqueued]
    refine ⟨⟨rfl, fun h => h, ?_, fun _ => ?_⟩, rfl⟩ <;> simp [MessageLink.commands, hsame]

theorem written_tends {ok : Bool} (h : d.written l ok = some d') : d.Tends d' fun _ => none := by
  unfold written at h
  dsimp only at h
  split at h
  · cases h
  cases h
  refine tends_set ?_ rfl
  refine .trans (y := { d.links l with writing := none }) (keeps_rest _ _ _ _ _) ?_
  split
  · exact .refl _
  · exact MessageLink.keeps_stop _

/-! ### What completes commands -/

theorem settle_tends (d : GatewayDriver) (P : String × PendingCommand → Bool)
    (completion : PendingCommand → Completion) :
    d.Tends (d.settle P completion) fun entry => if P entry then some (completion entry.2) else none where
  settles := by
    refine ⟨?_, ?_, rfl⟩
    · refine filter_congr fun entry _ => ?_
      cases P entry <;> rfl
    · simp only [settle, append_cancel_left_eq]
      rw [← filterMap_eq_map, filterMap_filter]
      refine filterMap_congr fun entry _ => ?_
      cases P entry <;> rfl
  created := rfl
  table := .refl _
  links _ := keeps_rest _ _ _ _ _

end GatewayDriver

/-- How a frame that a link reads completes a pending command. -/
def completedBy (l : ℕ) (forwarded : Forwarded) (frame : MessageToGatewayFrame)
    (entry : String × PendingCommand) : Option Completion :=
  match frame with
  | .commandResult r =>
    if entry.1 = r.requestId ∧ entry.2.link = l then
      some (.result { r with requestId := entry.2.clientRequestId })
    else none
  | .clientForward envelope =>
    if forwarded.closed ∧ ofConnection envelope.expectedConnectionId entry.1 then some .stopped else none
  | _ => none

namespace GatewayDriver

variable {d d' : GatewayDriver} {l : ℕ}

theorem Sound.unique (hd : d.Sound) {entry entry' : String × PendingCommand} (he : entry ∈ d.pending)
    (he' : entry' ∈ d.pending) (h : entry.1 = entry'.1) : entry = entry' :=
  inj_on_of_nodup_map hd.keys he he' h

theorem onGrpcFrame_tends (hd : d.Sound) (frame : MessageToGatewayFrame) (forwarded : Forwarded) :
    d.Tends (d.onGrpcFrame l frame forwarded).1 (completedBy l forwarded frame) := by
  cases frame with
  | commandResult r =>
    have hnothing (hnone : ∀ entry ∈ d.pending, entry.1 = r.requestId → entry.2.link ≠ l) :
        d.Tends d (completedBy l forwarded (.commandResult r)) := by
      refine { Tends.refl d with settles := (Tends.refl d).settles.congr fun entry he => ?_ }
      exact (if_neg fun h => hnone entry he h.1 h.2).symm
    unfold onGrpcFrame
    dsimp only
    split
    · rename_i hfind
      refine hnothing fun entry he hkey => ?_
      have := find?_eq_none.1 hfind entry he
      simp [hkey] at this
    · rename_i found hfind
      have hfound := mem_of_find?_eq_some hfind
      have hkey : found.1 = r.requestId := by simpa using find?_some hfind
      split
      · rename_i hlink
        refine hnothing fun entry he hentry => ?_
        rw [hd.unique he hfound (hentry.trans hkey.symm)]
        exact hlink
      · rename_i hlink
        have htends := settle_tends d (fun entry => entry.1 = r.requestId) fun p =>
          .result { r with requestId := p.clientRequestId }
        refine { htends with settles := htends.settles.congr fun entry he => ?_ }
        unfold completedBy
        by_cases h : entry.1 = r.requestId
        · have hl : entry.2.link = l := by
            rw [hd.unique he hfound (h.trans hkey.symm)]
            simpa using hlink
          simp [h, hl]
        · simp [h]
  | clientForward envelope =>
    have hcancel : d.Tends (if forwarded.closed then d.cancel envelope.expectedConnectionId else d)
        (completedBy l forwarded (.clientForward envelope)) := by
      unfold completedBy
      cases forwarded.closed with
      | true =>
        have htends := settle_tends d (fun entry => ofConnection envelope.expectedConnectionId entry.1)
          fun _ => .stopped
        exact { htends with settles := htends.settles.congr fun entry _ => by simp }
      | false =>
        exact { Tends.refl d with settles := (Tends.refl d).settles.congr fun entry _ => by simp }
    unfold onGrpcFrame
    dsimp only
    split
    · rename_i henqueue
      exact hcancel.after (enqueue_tends rfl henqueue)
    · exact hcancel
  | _ => exact .refl d

theorem onReadDone_tends (hd : d.Sound) (frame : MessageToGatewayFrame) (forwarded : Forwarded) :
    d.Tends (d.onReadDone l frame forwarded) (completedBy l forwarded frame) := by
  have hread : d.Tends (d.setLink l { d.links l with reading := false }) fun _ => none :=
    tends_set (keeps_rest _ _ _ _ _) rfl
  have hframe := onGrpcFrame_tends (l := l) (hread.sound hd) frame forwarded
  unfold onReadDone
  generalize d.setLink l { d.links l with reading := false } = d' at hread hframe
  cases frame with
  | drainNotice => exact hread.before (stopLink_tends _ _)
  | registerResult accepted nodeId epoch =>
    have hhealthy : d'.Tends (d'.setLink l { d'.links l with healthy := accepted }) fun _ => none :=
      tends_set (keeps_rest _ _ _ _ _) rfl
    dsimp only
    split
    · exact (hread.before hhealthy).before (startRead_tends _ _)
    · exact (hread.before hhealthy).before (stopLink_tends _ _)
  | _ =>
    dsimp only
    split
    · rename_i d'' h
      rw [h] at hframe
      exact (hread.before hframe).after (startRead_tends _ _)
    rename_i d'' e h
    rw [h] at hframe
    exact (hread.before hframe).after (stopLink_tends _ _)

/-! ### Links open and end -/

theorem openLink_sound (hd : d.Sound) (nodeId : String) (address : Endpoint) (streamEpoch : ℕ) :
    (d.openLink nodeId address streamEpoch).Sound ∧ d.Advances (d.openLink nodeId address streamEpoch) ∧
      d.Settles (d.openLink nodeId address streamEpoch) fun _ => none := by
  -- the new link, before it registers
  generalize hd' : ({ d.setLink d.created { nodeId, address, reading := true } with
    created := d.created + 1
    messageLinks := d.messageLinks ++ [(nodeId, d.created)] } : GatewayDriver) = d'
  have hold : ∀ l, l ≠ d.created → d'.links l = d.links l := by
    intro l h
    rw [← hd']
    exact links_setLink_ne d h _
  have hnew : d'.links d.created = { nodeId, address, reading := true } := by
    rw [← hd']
    exact links_setLink d _ _
  have hcreated : d'.created = d.created + 1 := by rw [← hd']
  have hsettles : d.Settles d' fun _ => none := by
    rw [← hd']
    exact .nothing rfl rfl rfl
  have hpending : d'.pending = d.pending := by rw [← hd']; rfl
  have hadvances : d.Advances d' := by
    refine ⟨by omega, fun l hl => ?_, fun l hl => ?_⟩
    · rw [hold l hl.ne]
      exact (MessageLink.Keeps.refl _).toRetains
    · by_cases h : l = d.created
      · rw [h, hnew]
        exact ⟨rfl, rfl⟩
      rw [hold l h]
      exact hd.fresh l hl
  have hsound : d'.Sound := by
    refine ⟨?_, ?_, ?_, ?_, ?_, ?_, ?_, ?_⟩
    · rw [hpending]
      exact hd.keys
    · rw [hpending, hsettles.sent]
      exact hd.entries
    · rw [hsettles.sent]
      exact hsettles.tickets.trans hd.tickets
    · intro k p hp
      rw [hpending] at hp
      obtain ⟨c, hc, -⟩ := hd.entries k p hp
      rw [hold _ (hd.sentOn _ c (mem_of_getElem? hc)).ne]
      exact hd.live k p hp
    · intro id l hl
      have hl' : (id, l) ∈ d.messageLinks ++ [(nodeId, d.created)] := by rwa [← hd'] at hl
      rcases mem_append.1 hl' with h | h
      · exact (hd.table id l h).trans_le hadvances.created
      simp only [mem_singleton, Prod.mk.injEq] at h
      omega
    · intro l c hc
      rw [hsettles.sent] at hc
      exact (hd.sentOn l c hc).trans_le hadvances.created
    · intro l hl
      rw [hold l (by omega)]
      exact hd.fresh l (by omega)
    · intro l hl hfinished
      by_cases h : l = d.created
      · rw [h, hnew] at hfinished
        cases hfinished
      rw [hold l h] at hfinished ⊢
      exact hd.ended l (by omega) hfinished
  -- the first frame only registers the shard
  have htends : d'.Tends (d.openLink nodeId address streamEpoch) fun _ => none := by
    unfold openLink
    dsimp only
    rw [hd']
    split
    · rename_i h
      exact enqueue_tends rfl h
    · exact stopLink_tends _ _
  refine ⟨htends.sound hsound, ⟨hadvances.created.trans htends.created.ge, fun l hl => ?_,
    fun l hl => ?_⟩, ?_⟩
  · have h := htends.links l
    rw [hold l hl.ne] at h
    exact h.toRetains
  · obtain ⟨hpeer, hcommands⟩ := hadvances.opened l hl
    exact ⟨(htends.links l).peer.trans hpeer,
      eq_nil_of_subset_nil (hcommands ▸ (htends.links l).commands.subset)⟩
  · refine ⟨?_, ?_, htends.settles.sent.trans hsettles.sent⟩
    · rw [htends.settles.pending, hpending]
    · rw [htends.settles.completions, hsettles.completions]
      simp

theorem onDone_sound (hd : d.Sound) (h : d.onDone l = some d') :
    d'.Sound ∧ d.Advances d' ∧
      d.Settles d' fun entry => if entry.2.link = l then some .streamClosed else none := by
  unfold onDone at h
  dsimp only at h
  split at h
  · rename_i hend
    obtain ⟨-, hstop, -⟩ := hend
    cases h
    generalize hy : ({ d.links l with healthy := false, finished := true } : MessageLink) = y
    have hself : (d.setLink l y).links l = y := links_setLink d l y
    have hretains : ∀ l', (d.links l').Retains ((d.setLink l y).links l') := by
      intro l'
      by_cases h : l' = l
      · subst h
        rw [hself, ← hy]
        exact ⟨rfl, fun h => h, .refl _, fun _ => rfl⟩
      rw [links_setLink_ne d h]
      exact (MessageLink.Keeps.refl _).toRetains
    have htends := settle_tends (d.setLink l y) (fun entry => entry.2.link = l) fun _ => .streamClosed
    have hsettles : d.Settles ((d.setLink l y).onGrpcDone l)
        fun entry => if entry.2.link = l then some .streamClosed else none := by
      have h := htends.settles.congr (g := fun entry => if entry.2.link = l then some .streamClosed else none)
        fun entry _ => by simp
      exact ⟨h.pending, h.completions, h.sent⟩
    have hlinks : ∀ l', ((d.setLink l y).links l').Keeps (((d.setLink l y).onGrpcDone l).links l') :=
      htends.links
    have hfresh : ∀ l', d.created ≤ l' → (((d.setLink l y).onGrpcDone l).links l').peer = none ∧
        (((d.setLink l y).onGrpcDone l).links l').commands = [] := by
      intro l' hl'
      obtain ⟨hpeer, hcommands⟩ := hd.fresh l' hl'
      refine ⟨((hlinks l').peer.trans (hretains l').peer).trans hpeer, eq_nil_of_subset_nil ?_⟩
      rw [← hcommands]
      exact ((hlinks l').commands.trans (hretains l').commands).subset
    have hadvances : d.Advances ((d.setLink l y).onGrpcDone l) := by
      refine ⟨le_refl _, fun l' _ => ?_, hfresh⟩
      have h := hretains l'
      have h' := (hlinks l')
      exact ⟨h'.peer.trans h.peer, fun hs => h'.stopping (h.stopping hs), h'.commands.trans h.commands,
        fun hs => (h'.lasting hs).trans (h.lasting (h'.running hs))⟩
    refine ⟨⟨?_, ?_, ?_, ?_, hd.table, ?_, ?_, ?_⟩, hadvances, hsettles⟩
    · rw [hsettles.pending]
      exact hd.keys.sublist (filter_sublist.map _)
    · intro k p hp
      exact hd.entries k p (hsettles.subset hp)
    · rw [hsettles.sent]
      exact hsettles.tickets.trans hd.tickets
    · -- the entries that stay are those of other links
      intro k p hp
      rw [hsettles.pending, mem_filter] at hp
      have hne : p.link ≠ l := by
        intro h
        simp [h] at hp
      rw [(hlinks p.link).finished, links_setLink_ne d hne]
      exact hd.live k p hp.1
    · exact hd.sentOn
    · exact hfresh
    · intro l' hl' hfinished
      refine (hlinks l').stopping ?_
      by_cases h : l' = l
      · subst h
        exact (hretains l').stopping hstop
      rw [(hlinks l').finished, links_setLink_ne d h] at hfinished
      exact (hretains l').stopping (hd.ended l' hl' hfinished)
  · cases h

/-! ### Sending a command -/

theorem consider_healthy {conversationId : ℤ} {acc : Option ℕ × ℕ} {row : String × ℕ} {k : ℕ}
    (h : (d.consider conversationId acc row).1 = some k) :
    acc.1 = some k ∨ row.2 = k ∧ (d.links k).isHealthy = true := by
  obtain ⟨selected, highest⟩ := acc
  obtain ⟨id, l⟩ := row
  unfold consider at h
  dsimp only at h ⊢
  split at h
  · exact .inl h
  rename_i hhealthy
  have hl : ∀ k, some l = some k → l = k ∧ (d.links k).isHealthy = true := by
    rintro k ⟨rfl⟩
    exact ⟨rfl, by simpa using hhealthy⟩
  split at h
  · split at h
    · exact .inr (hl k h)
    · exact .inl h
  split at h
  · exact .inr (hl k h)
  split at h
  · exact .inr (hl k h)
  · exact .inl h

/-- The link chosen is a healthy one of the table. -/
theorem selectGrpcLink_healthy {conversationId : ℤ} (h : d.selectGrpcLink conversationId = some l) :
    (∃ id, (id, l) ∈ d.messageLinks) ∧ (d.links l).isHealthy = true := by
  have hfold : ∀ (rows : List (String × ℕ)) (acc : Option ℕ × ℕ),
      (rows.foldl (d.consider conversationId) acc).1 = some l →
      acc.1 = some l ∨ (∃ id, (id, l) ∈ rows) ∧ (d.links l).isHealthy = true := by
    intro rows
    induction rows with
    | nil => exact fun acc h => .inl h
    | cons row rows ih =>
      intro acc h
      rcases ih _ h with h | ⟨⟨id, hid⟩, hhealthy⟩
      · rcases consider_healthy h with h | ⟨rfl, hhealthy⟩
        · exact .inl h
        · exact .inr ⟨⟨row.1, mem_cons_self⟩, hhealthy⟩
      · exact .inr ⟨⟨id, mem_cons_of_mem _ hid⟩, hhealthy⟩
  rcases hfold _ _ h with h | h
  · cases h
  · exact h

/-- A command goes out on link `l`. -/
structure Sends (d d' : GatewayDriver) (l : ℕ) (command : CommandEnvelope) : Prop where
  selected : d.selectGrpcLink command.conversationId = some l
  unused : ∀ p, ((d.stamp command).requestId, p) ∉ d.pending
  pending : ∃ bytes, d'.pending = d.pending ++ [((d.stamp command).requestId, {
    link := l, clientRequestId := command.requestId, bytes, ticket := d.sent.length })]
  completions : d'.completions = d.completions
  sent : d'.sent = d.sent ++ [(l, d.stamp command)]
  created : d'.created = d.created
  table : d'.messageLinks = d.messageLinks
  others : ∀ l', l' ≠ l → d'.links l' = d.links l'
  peer : (d'.links l).peer = (d.links l).peer
  stopping : (d'.links l).stopping = (d.links l).stopping
  finished : (d'.links l).finished = (d.links l).finished
  commands : (d'.links l).commands = (d.links l).commands ++ [d.stamp command]

theorem sendCommand_sends {command : CommandEnvelope} (h : d.sendCommand command = .ok d') :
    ∃ l, d.Sends d' l command := by
  unfold sendCommand at h
  split at h
  · cases h
  split at h
  · cases h
  rename_i l hselect
  split at h
  · cases h
  dsimp only at h
  split at h
  · cases h
  rename_i hunused
  split at h
  · cases h
  rename_i d'' henqueue
  obtain ⟨-, w, rfl⟩ := enqueue_spec henqueue
  cases h
  refine ⟨l, hselect, fun p hp => hunused ?_, ⟨_, rfl⟩, rfl, rfl, rfl, rfl, ?_, ?_, ?_, ?_, ?_⟩
  · exact any_eq_true.2 ⟨_, hp, by simp⟩
  · intro l' h
    simp [setLink, Function.update_of_ne h]
  all_goals simp [setLink, MessageLink.commands, GatewayToMessageFrame.command?]

theorem Sends.sound {command : CommandEnvelope} (h : d.Sends d' l command) (hd : d.Sound) : d'.Sound := by
  obtain ⟨bytes, hpending⟩ := h.pending
  obtain ⟨⟨id, hid⟩, hhealthy⟩ := selectGrpcLink_healthy h.selected
  have hl : l < d.created := hd.table id l hid
  have hrun : (d.links l).stopping = false := by
    have : (d.links l).healthy = true ∧ (d.links l).stopping = false := by
      simpa [MessageLink.isHealthy] using hhealthy
    exact this.2
  have hfinished : (d.links l).finished = false :=
    Bool.eq_false_iff.2 fun hf => absurd (hd.ended l hl hf) (by simp [hrun])
  have hended : ∀ l', (d'.links l').finished = (d.links l').finished ∧
      (d'.links l').stopping = (d.links l').stopping := by
    intro l'
    by_cases h' : l' = l
    · subst h'
      exact ⟨h.finished, h.stopping⟩
    rw [h.others l' h']
    exact ⟨rfl, rfl⟩
  refine ⟨?_, ?_, ?_, ?_, ?_, ?_, ?_, ?_⟩
  · rw [hpending, map_append, nodup_append]
    refine ⟨hd.keys, by simp, ?_⟩
    rintro k hk k' hk' rfl
    obtain ⟨⟨k', p⟩, hp, rfl⟩ := mem_map.1 hk
    simp only [map_cons, map_nil, mem_singleton] at hk'
    exact h.unused p (hk' ▸ hp)
  · intro k p hp
    rw [hpending, mem_append, mem_singleton] at hp
    rw [h.sent]
    rcases hp with hp | hp
    · obtain ⟨c, hc, hlabel⟩ := hd.entries k p hp
      exact ⟨c, by rw [List.getElem?_append_left (List.getElem?_eq_some_iff.1 hc).1, hc], hlabel⟩
    cases hp
    exact ⟨d.stamp command, by simp, rfl, rfl⟩
  · rw [hpending, h.completions, h.sent]
    simp only [map_append, map_cons, map_nil, length_append, length_cons, length_nil, range_succ]
    refine .trans ?_ (hd.tickets.append_right _)
    rw [append_assoc, append_assoc]
    exact .append_left _ perm_append_comm
  · intro k p hp
    rw [hpending, mem_append, mem_singleton] at hp
    rw [(hended _).1]
    rcases hp with hp | hp
    · exact hd.live k p hp
    cases hp
    exact hfinished
  · intro id' l' hl'
    rw [h.created]
    exact hd.table id' l' (h.table ▸ hl')
  · intro l' c hc
    rw [h.created]
    rw [h.sent, mem_append, mem_singleton] at hc
    rcases hc with hc | hc
    · exact hd.sentOn l' c hc
    cases hc
    exact hl
  · intro l' hl'
    rw [h.created] at hl'
    rw [h.others l' (by omega)]
    exact hd.fresh l' hl'
  · intro l' hl' hf
    rw [(hended l').2]
    exact hd.ended l' (h.created ▸ hl') ((hended l').1 ▸ hf)

end GatewayDriver

/-- How an event of the Gateway completes a pending command. -/
def GatewayEvent.completes : GatewayEvent → String × PendingCommand → Option Completion
  | .cancel connectionId, entry => if ofConnection connectionId entry.1 then some .stopped else none
  | .done l, entry => if entry.2.link = l then some .streamClosed else none
  | _, _ => none

namespace GatewayDriver

variable {d d' : GatewayDriver}

/-- A step of the Gateway sends a command, or it completes those that its event completes. -/
theorem step_cases (hd : d.Sound) {e : GatewayEvent} (h : d.step e = some d') :
    (∃ command l, e = .sendCommand command ∧ d.Sends d' l command) ∨
      d'.Sound ∧ d.Advances d' ∧ d.Settles d' e.completes := by
  have htends {f : String × PendingCommand → Option Completion} (ht : d.Tends d' f)
      (hf : ∀ entry, f entry = e.completes entry) :
      d'.Sound ∧ d.Advances d' ∧ d.Settles d' e.completes :=
    ⟨ht.sound hd, ht.advances hd, ht.settles.congr fun entry _ => hf entry⟩
  cases e with
  | openLink nodeId address streamEpoch =>
    simp only [step] at h
    split at h
    · cases h
    cases h
    exact .inr (openLink_sound hd nodeId address streamEpoch)
  | closeLink nodeId =>
    obtain ⟨l, -, rfl⟩ := Option.map_eq_some_iff.1 h
    exact .inr (htends (stopLink_tends d l) fun _ => rfl)
  | eraseLink nodeId =>
    simp only [step] at h
    split at h
    · cases h
    split at h
    · cases h
      refine .inr (htends ?_ fun _ => rfl)
      exact { Tends.refl d with table := filter_subset_self _, settles := Settles.nothing rfl rfl rfl }
    · cases h
  | rehash table =>
    simp only [step] at h
    split at h
    · rename_i hperm
      cases h
      refine .inr (htends ?_ fun _ => rfl)
      exact { Tends.refl d with table := hperm.subset, settles := Settles.nothing rfl rfl rfl }
    · cases h
  | heartbeat nodeId sentAtUnixMs sequence =>
    simp only [step] at h
    split at h
    · cases h
    split at h
    · cases h
    split at h
    · rename_i henqueue
      cases h
      exact .inr (htends (enqueue_tends rfl henqueue) fun _ => rfl)
    cases h
    exact .inr (htends (.refl d) fun _ => rfl)
  | sockets writes =>
    cases h
    refine .inr (htends ?_ fun _ => rfl)
    exact { Tends.refl d with settles := Settles.nothing rfl rfl rfl }
  | sendCommand command =>
    simp only [step] at h
    split at h
    · rename_i hsend
      cases h
      obtain ⟨l, hsends⟩ := sendCommand_sends hsend
      exact .inl ⟨command, l, rfl, hsends⟩
    · cases h
      exact .inr (htends (.refl d) fun _ => rfl)
  | cancel connectionId =>
    cases h
    exact .inr (htends (settle_tends d _ _) fun entry => rfl)
  | abort =>
    cases h
    refine .inr (htends ?_ fun _ => rfl)
    exact ⟨Settles.nothing rfl rfl rfl, rfl, List.Subset.refl _, fun l => MessageLink.keeps_stop _⟩
  | write l => exact .inr (htends (write_tends h) fun _ => rfl)
  | written l ok => exact .inr (htends (written_tends h) fun _ => rfl)
  | readFailed l =>
    simp only [step] at h
    split at h
    · cases h
      refine .inr (htends ?_ fun _ => rfl)
      refine tends_set ?_ rfl
      exact .trans (keeps_rest _ _ _ _ _) (MessageLink.keeps_stop _)
    · cases h
  | done l => exact .inr (onDone_sound hd h)

theorem Sound.setLink (hd : d.Sound) {l : ℕ} (hl : l < d.created) {x : MessageLink}
    (hfinished : x.finished = (d.links l).finished) (hstopping : x.stopping = (d.links l).stopping) :
    (d.setLink l x).Sound := by
  have hlinks : ∀ l', ((d.setLink l x).links l').finished = (d.links l').finished ∧
      ((d.setLink l x).links l').stopping = (d.links l').stopping := by
    intro l'
    by_cases h : l' = l
    · subst h
      rw [links_setLink]
      exact ⟨hfinished, hstopping⟩
    rw [links_setLink_ne d h]
    exact ⟨rfl, rfl⟩
  refine ⟨hd.keys, hd.entries, hd.tickets, ?_, hd.table, hd.sentOn, ?_, ?_⟩
  · intro k p hp
    rw [(hlinks _).1]
    exact hd.live k p hp
  · intro l' hl'
    have hne : l' ≠ l := fun h => absurd hl (Nat.not_lt.2 (h ▸ hl'))
    rw [links_setLink_ne d hne]
    exact hd.fresh l' hl'
  · intro l' hl' h
    rw [(hlinks _).2]
    exact hd.ended l' hl' ((hlinks _).1 ▸ h)

theorem start_sound (options : GatewayOptions) : (start options).Sound where
  keys := nodup_nil
  entries k p hp := by cases hp
  tickets := .refl _
  live k p hp := by cases hp
  table id l hl := by cases hl
  sentOn l c hc := by cases hc
  fresh l _ := ⟨rfl, rfl⟩
  ended l hl := absurd hl (Nat.not_lt_zero l)

end GatewayDriver

end Imm
