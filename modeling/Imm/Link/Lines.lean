import Imm.Link.Links
import Imm.Link.Streams

/-! The commands of a link stand in one line: those Message has taken, the one it is about to take, those
    on their way and those that wait to be written (`LinkSystem.track`). An event shifts the marks along
    that line, drops what a broken stream loses, or puts a command that is sent at its end; and of what
    is under way on the stream nothing is lost until an end of it is stopping (`LinkSystem.Follows`). -/

namespace Imm

open List

open Function (update update_self update_of_ne)

namespace LinkSystem

/-- How an event completes a pending command. -/
def completes (s : LinkSystem) : LinkEvent → String × PendingCommand → Option Completion
  | .gateway e, entry => e.completes entry
  | .toGateway l forwarded, entry => (s.incoming l).bind (completedBy l forwarded · entry)
  | _, _ => none

/-- The result that an event takes off the stream of a link. -/
def delivers (s : LinkSystem) : LinkEvent → ℕ → List (String × ℕ)
  | .toGateway l _, l' => if l' = l then ((s.incoming l).bind (·.result?)).toList.map (·.label) else []
  | _, _ => []

/-- What a step does to the stream of each link when it sends no command; `gone` are the results that
    are taken off. -/
structure Follows (s u : LinkSystem) (gone : ℕ → List (String × ℕ)) : Prop where
  peer : ∀ l i t, (s.gateway.links l).peer = some (i, t) → (u.gateway.links l).peer = some (i, t)
  track : ∀ l, (u.track l).Sublist (s.track l)
  outstanding : ∀ l, u.outstanding l ⊆ s.outstanding l
  lasting : ∀ l < s.gateway.created, ∀ label ∈ s.outstanding l,
    label ∈ u.outstanding l ∨ label ∈ gone l ∨ u.Ending l
  ending : ∀ l < s.gateway.created, s.Ending l → u.Ending l
  requests : ∀ (i j : ℕ) (q : RequestContext), (s.servers i).requests[j]? = some q →
    ∃ q', (u.servers i).requests[j]? = some q' ∧ q.Becomes q'

structure Sound (s : LinkSystem) : Prop where
  gateway : s.gateway.Sound
  servers : ∀ i, (s.servers i).Sound
  peers : ∀ l i t, (s.gateway.links l).peer = some (i, t) →
    (s.servers i).Has t ∧ ((s.servers i).streams t).link = some l

variable {s u : LinkSystem} {l : ℕ}

theorem track_none (h : (s.gateway.links l).peer = none) : s.track l = (s.gateway.links l).commands := by
  unfold track
  rw [h]

variable {i t : ℕ} {m : MessageServer} {frame : MessageToGatewayFrame} {forwarded : Forwarded}

theorem track_some (h : (s.gateway.links l).peer = some (i, t)) :
    s.track l = (s.servers i).received t ++ (s.gateway.links l).commands := by
  unfold track
  rw [h]

theorem outstanding_none (h : (s.gateway.links l).peer = none) :
    s.outstanding l = (s.gateway.links l).commands.map (·.label) := by
  unfold outstanding
  rw [h, append_nil]

theorem outstanding_some (h : (s.gateway.links l).peer = some (i, t)) :
    s.outstanding l = (s.gateway.links l).commands.map (·.label) ++ (s.servers i).holding t := by
  unfold outstanding
  rw [h]

theorem Sound.created (hs : s.Sound) (h : (s.gateway.links l).peer = some (i, t)) :
    l < s.gateway.created := by
  by_contra hl
  rw [(hs.gateway.fresh l (not_lt.1 hl)).1] at h
  cases h

theorem follows_of (hs : s.Sound) (hgateway : s.gateway.Advances u.gateway)
    (hservers : ∀ i, (s.servers i).Advances (u.servers i)) : s.Follows u fun _ => [] := by
  have hrun : ∀ l i t, (s.gateway.links l).peer = some (i, t) →
      (u.gateway.links l).peer = some (i, t) := fun l i t h =>
    (hgateway.links l (hs.created h)).peer.trans h
  have hnew : ∀ l, s.gateway.created ≤ l → u.track l = [] ∧ u.outstanding l = [] := by
    intro l hl
    obtain ⟨hpeer, hcommands⟩ := hgateway.opened l hl
    rw [track_none hpeer, outstanding_none hpeer, hcommands]
    exact ⟨rfl, rfl⟩
  refine ⟨hrun, ?_, ?_, ?_, ?_, fun i j q hq => (hservers i).requests j q hq⟩
  · intro l
    rcases Nat.lt_or_ge l s.gateway.created with hl | hl
    · have hlink := hgateway.links l hl
      cases hpeer : (s.gateway.links l).peer with
      | none =>
        rw [track_none hpeer, track_none (hlink.peer.trans hpeer)]
        exact hlink.commands
      | some peer =>
        rw [track_some hpeer, track_some (hrun _ _ _ hpeer)]
        exact ((hservers _).received _ (hs.peers l _ _ hpeer).1).append hlink.commands
    · rw [(hnew l hl).1]
      exact nil_sublist _
  · intro l
    rcases Nat.lt_or_ge l s.gateway.created with hl | hl
    · have hlink := hgateway.links l hl
      have hmap := (hlink.commands.map (·.label)).subset
      cases hpeer : (s.gateway.links l).peer with
      | none =>
        rw [outstanding_none hpeer, outstanding_none (hlink.peer.trans hpeer)]
        exact hmap
      | some peer =>
        rw [outstanding_some hpeer, outstanding_some (hrun _ _ _ hpeer)]
        exact append_subset.2 ⟨fun x hx => mem_append_left _ (hmap hx),
          fun x hx => mem_append_right _ ((hservers _).holding _ (hs.peers l _ _ hpeer).1 hx)⟩
    · rw [(hnew l hl).2]
      exact nil_subset _
  · intro l hl label hlabel
    have hlink := hgateway.links l hl
    by_cases hstop : (u.gateway.links l).stopping = true
    · exact .inr (.inr (.inl hstop))
    have hcommands := hlink.lasting (by simpa using hstop)
    cases hpeer : (s.gateway.links l).peer with
    | none =>
      rw [outstanding_none hpeer] at hlabel
      rw [outstanding_none (hlink.peer.trans hpeer), hcommands]
      exact .inl hlabel
    | some peer =>
      by_cases hend : ((u.servers peer.1).streams peer.2).stopping = true
      · exact .inr (.inr (.inr ⟨_, _, hrun _ _ _ hpeer, hend⟩))
      rw [outstanding_some hpeer, mem_append] at hlabel
      rw [outstanding_some (hrun _ _ _ hpeer), hcommands, mem_append]
      refine .inl (hlabel.imp_right fun h => ?_)
      exact (hservers _).lasting _ (hs.peers l _ _ hpeer).1 (by simpa using hend) h
  · rintro l hl (hstop | ⟨i, t, hpeer, hstop⟩)
    · exact .inl ((hgateway.links l hl).stopping hstop)
    · exact .inr ⟨i, t, hrun _ _ _ hpeer, (hservers i).stopping t (hs.peers l i t hpeer).1 hstop⟩

theorem Follows.trans {w : LinkSystem} {g g' : ℕ → List (String × ℕ)} (h : s.Follows u g)
    (h' : u.Follows w g') (hcreated : s.gateway.created ≤ u.gateway.created) :
    s.Follows w fun l => g l ++ g' l where
  peer l i t hpeer := h'.peer l i t (h.peer l i t hpeer)
  track l := (h'.track l).trans (h.track l)
  outstanding l := List.Subset.trans (h'.outstanding l) (h.outstanding l)
  lasting l hl label hlabel := by
    rcases h.lasting l hl label hlabel with hlabel | hlabel | hend
    · rcases h'.lasting l (hl.trans_le hcreated) label hlabel with hlabel | hlabel | hend
      · exact .inl hlabel
      · exact .inr (.inl (mem_append_right _ hlabel))
      · exact .inr (.inr hend)
    · exact .inr (.inl (mem_append_left _ hlabel))
    · exact .inr (.inr (h'.ending l (hl.trans_le hcreated) hend))
  ending l hl hend := h'.ending l (hl.trans_le hcreated) (h.ending l hl hend)
  requests i j q hq := by
    obtain ⟨q', hq', hb⟩ := h.requests i j q hq
    obtain ⟨q'', hq'', hb'⟩ := h'.requests i j q' hq'
    exact ⟨q'', hq'', hb'.origin.trans hb.origin, hb'.command.trans hb.command,
      fun p hp => hb'.response p (hb.response p hp)⟩

/-- Link `l` and its stream are as they were. -/
structure Same (s u : LinkSystem) (l : ℕ) : Prop where
  link : u.gateway.links l = s.gateway.links l
  server : ∀ i t, (s.gateway.links l).peer = some (i, t) →
    (u.servers i).streams t = (s.servers i).streams t ∧ (u.servers i).requests = (s.servers i).requests

theorem Same.views (h : s.Same u l) :
    u.track l = s.track l ∧ u.outstanding l = s.outstanding l ∧ (s.Ending l → u.Ending l) := by
  unfold Ending
  cases hpeer : (s.gateway.links l).peer with
  | none =>
    have hpeer' : (u.gateway.links l).peer = none := by rw [h.link, hpeer]
    rw [track_none hpeer, track_none hpeer', outstanding_none hpeer, outstanding_none hpeer', h.link, hpeer]
    exact ⟨rfl, rfl, by simp⟩
  | some peer =>
    obtain ⟨i, t⟩ := peer
    have hpeer' : (u.gateway.links l).peer = some (i, t) := by rw [h.link, hpeer]
    obtain ⟨hstream, hrequests⟩ := h.server i t hpeer
    rw [track_some hpeer, track_some hpeer', outstanding_some hpeer, outstanding_some hpeer', h.link, hpeer]
    simp only [MessageServer.received, MessageServer.holding, MessageServer.running,
      MessageServer.requestsOf, hstream, hrequests, true_and]
    rintro (hstop | ⟨i', t', heq, hstop⟩)
    · exact .inl hstop
    · cases heq
      exact .inr ⟨i, t, rfl, by rw [hstream]; exact hstop⟩

theorem follows_at {g : List (String × ℕ)} (hothers : ∀ l', l' ≠ l → s.Same u l')
    (hpeer : ∀ i t, (s.gateway.links l).peer = some (i, t) → (u.gateway.links l).peer = some (i, t))
    (htrack : (u.track l).Sublist (s.track l)) (houtstanding : u.outstanding l ⊆ s.outstanding l)
    (hlasting : ∀ label ∈ s.outstanding l, label ∈ u.outstanding l ∨ label ∈ g ∨ u.Ending l)
    (hending : s.Ending l → u.Ending l) (hrequests : ∀ i, (u.servers i).requests = (s.servers i).requests) :
    s.Follows u fun l' => if l' = l then g else [] := by
  refine ⟨?_, ?_, ?_, ?_, ?_, fun i j q hq => ⟨q, by rw [hrequests, hq], rfl, rfl, fun _ h => h⟩⟩
  · intro l' i t h
    by_cases hl : l' = l
    · subst hl
      exact hpeer i t h
    · rw [(hothers l' hl).link, h]
  · intro l'
    by_cases hl : l' = l
    · subst hl
      exact htrack
    · rw [(hothers l' hl).views.1]
  · intro l'
    by_cases hl : l' = l
    · subst hl
      exact houtstanding
    rw [(hothers l' hl).views.2.1]
    exact .refl _
  · intro l' _ label hlabel
    by_cases hl : l' = l
    · subst hl
      rw [if_pos rfl]
      exact hlasting label hlabel
    rw [(hothers l' hl).views.2.1]
    exact .inl hlabel
  · intro l' _ hend
    by_cases hl : l' = l
    · subst hl
      exact hending hend
    · exact (hothers l' hl).views.2.2 hend

/-- The stream of a link is no other link's. -/
theorem Sound.apart (hs : s.Sound) {l' : ℕ} (h : (s.gateway.links l).peer = some (i, t))
    (hne : l' ≠ l) : (s.gateway.links l').peer ≠ some (i, t) := by
  intro h'
  have heq := (hs.peers l i t h).2.symm.trans (hs.peers l' i t h').2
  exact hne (Option.some.inj heq).symm

theorem same_of_stream (hne : (s.gateway.links l).peer ≠ some (i, t))
    (hlink : u.gateway.links l = s.gateway.links l) (hservers : u.servers = update s.servers i m)
    (hstreams : ∀ t', t' ≠ t → m.streams t' = (s.servers i).streams t')
    (hrequests : m.requests = (s.servers i).requests) : s.Same u l where
  link := hlink
  server i' t' h := by
    rw [hservers]
    by_cases hi : i' = i
    · subst hi
      rw [update_self]
      refine ⟨hstreams t' ?_, hrequests⟩
      rintro rfl
      exact hne h
    · rw [update_of_ne hi]
      exact ⟨rfl, rfl⟩

theorem gateway_refl (hs : s.Sound) : s.gateway.Advances s.gateway :=
  ⟨le_refl _, fun _ _ => (MessageLink.Keeps.refl _).toRetains, hs.gateway.fresh⟩

/-! ### Each event -/

theorem server_follows (hs : s.Sound) (h : (s.servers i).Fares m) :
    (s.setServer i m).Sound ∧ s.Follows (s.setServer i m) fun _ => [] := by
  have hservers : ∀ j, (s.servers j).Fares ((s.setServer i m).servers j) := by
    intro j
    unfold setServer
    dsimp only
    by_cases hj : j = i
    · subst hj
      rwa [update_self]
    rw [update_of_ne hj]
    exact ⟨hs.servers j, .refl _⟩
  refine ⟨⟨hs.gateway, fun j => (hservers j).1, ?_⟩, follows_of hs (gateway_refl hs) fun j => (hservers j).2⟩
  intro l j t hpeer
  obtain ⟨hhas, hlink⟩ := hs.peers l j t hpeer
  exact ⟨hhas.mono (hservers j).2.tokens, ((hservers j).2.link t hhas).trans hlink⟩

theorem gateway_follows (hs : s.Sound) {d : GatewayDriver} (hd : d.Sound) (h : s.gateway.Advances d) :
    ({ s with gateway := d } : LinkSystem).Sound ∧ s.Follows { s with gateway := d } fun _ => [] := by
  have hfollows : s.Follows { s with gateway := d } fun _ => [] :=
    follows_of hs h fun i => .refl _
  refine ⟨⟨hd, hs.servers, ?_⟩, hfollows⟩
  intro l i t hpeer
  refine hs.peers l i t ?_
  rcases Nat.lt_or_ge l s.gateway.created with hl | hl
  · exact (h.links l hl).peer.symm.trans hpeer
  rw [show (d.links l).peer = none from (h.opened l hl).1] at hpeer
  cases hpeer

theorem connect_blank (hm : m.Sound) (link : Option ℕ) (ids : List String) :
    (m.connect link ids).received (m.nextToken + 1) = [] ∧
      (m.connect link ids).holding (m.nextToken + 1) = [] ∧
      ((m.connect link ids).streams (m.nextToken + 1)).link = link := by
  have hrequests : (m.connect link ids).requestsOf (m.nextToken + 1) = [] := by
    refine filter_eq_nil_iff.2 fun q hq => ?_
    have := (hm.origins q hq).1.2
    simp only [decide_eq_true_eq]
    omega
  have hstream : ((m.connect link ids).streams (m.nextToken + 1)).commands = [] ∧
      ((m.connect link ids).streams (m.nextToken + 1)).results = [] ∧
      ((m.connect link ids).streams (m.nextToken + 1)).link = link := by
    simp only [MessageServer.connect, MessageServer.setStream, update_self]
    split <;> simp [Stream.stop, Stream.finish, Stream.commands, Stream.results]
  unfold MessageServer.received MessageServer.holding MessageServer.running
  rw [hrequests, hstream.1, hstream.2.1]
  exact ⟨rfl, rfl, hstream.2.2⟩

theorem connect_follows (hs : s.Sound) {ids : List String} (h : s.step (.connect l i ids) = some u) :
    u.Sound ∧ (s.Follows u fun _ => []) ∧ s.gateway.Settles u.gateway fun _ => none := by
  simp only [step] at h
  split at h
  · rename_i hnew
    obtain ⟨hl, hpeer⟩ := hnew
    cases h
    obtain ⟨hsound, hfollows⟩ := server_follows hs (MessageServer.connect_fares (hs.servers i) (some l) ids)
    obtain ⟨hreceived, hholding, hlink⟩ := connect_blank (hs.servers i) (some l) ids
    generalize hm : (s.servers i).connect (some l) ids = m at hsound hfollows hreceived hholding hlink
    have hnext : m.nextToken = (s.servers i).nextToken + 1 := by rw [← hm]; rfl
    have hserver : (s.setServer i m).servers i = m := update_self _ _ _
    generalize hx : ({ s.gateway.links l with peer := some (i, (s.servers i).nextToken + 1) } : MessageLink) = x
    have hself : (s.gateway.setLink l x).links l = x := GatewayDriver.links_setLink _ _ _
    have hxpeer : x.peer = some (i, (s.servers i).nextToken + 1) := by rw [← hx]
    have hxcommands : x.commands = (s.gateway.links l).commands := by rw [← hx]; rfl
    generalize hu : ({ s.setServer i m with gateway := s.gateway.setLink l x } : LinkSystem) = u
    have hulink : u.gateway.links l = x := by rw [← hu]; exact hself
    have huserver : ∀ j, u.servers j = (s.setServer i m).servers j := by rw [← hu]; exact fun _ => rfl
    have hupeer : (u.gateway.links l).peer = some (i, (s.servers i).nextToken + 1) := by
      rw [hulink, hxpeer]
    have hother : ∀ l', l' ≠ l → u.gateway.links l' = s.gateway.links l' := by
      intro l' hne
      rw [← hu]
      exact GatewayDriver.links_setLink_ne _ hne _
    refine ⟨⟨?_, ?_, ?_⟩, ?_, ?_⟩
    · rw [← hu]
      exact hs.gateway.setLink hl (by rw [← hx]) (by rw [← hx])
    · intro j
      rw [huserver]
      exact hsound.servers j
    · intro l' j t hpeer'
      rw [huserver]
      by_cases h : l' = l
      · subst h
        rw [hupeer] at hpeer'
        cases hpeer'
        rw [hserver]
        exact ⟨⟨Nat.succ_pos _, hnext.ge⟩, hlink⟩
      · rw [hother l' h] at hpeer'
        exact hsound.peers l' j t hpeer'
    · have hat : (s.setServer i m).Follows u fun l' => if l' = l then [] else [] := by
        refine follows_at (fun l' hne => ⟨hother l' hne, fun j t _ => ?_⟩) ?_ ?_ ?_ ?_ ?_ ?_
        · rw [huserver]
          exact ⟨rfl, rfl⟩
        · intro j t h
          rw [show ((s.setServer i m).gateway.links l).peer = none from hpeer] at h
          cases h
        · rw [track_some hupeer, track_none (s := s.setServer i m) hpeer, huserver, hserver, hreceived,
            hulink, hxcommands]
          exact .refl _
        · rw [outstanding_some hupeer, outstanding_none (s := s.setServer i m) hpeer, huserver, hserver,
            hholding, hulink, hxcommands, append_nil]
          exact List.Subset.refl _
        · intro label hlabel
          rw [outstanding_none (s := s.setServer i m) hpeer] at hlabel
          rw [outstanding_some hupeer, hulink, hxcommands]
          exact .inl (mem_append_left _ hlabel)
        · rintro (hstop | ⟨j, t, h, -⟩)
          · refine .inl ?_
            rw [hulink, ← hx]
            exact hstop
          · rw [show ((s.setServer i m).gateway.links l).peer = none from hpeer] at h
            cases h
        · intro j
          rw [huserver]
      simpa using hfollows.trans hat (le_refl _)
    · rw [← hu]
      exact .nothing rfl rfl rfl
  · cases h

/-- One shard has another stream, and every stream its link. -/
theorem sound_of_stream (hs : s.Sound) (hgateway : u.gateway.Sound)
    (hpeers : ∀ l, (u.gateway.links l).peer = (s.gateway.links l).peer)
    (hservers : u.servers = update s.servers i m) (hm : m.Sound)
    (hnext : m.nextToken = (s.servers i).nextToken)
    (hlinks : ∀ t, (m.streams t).link = ((s.servers i).streams t).link) : u.Sound := by
  refine ⟨hgateway, fun j => ?_, fun l j t hpeer => ?_⟩
  · rw [hservers]
    by_cases hj : j = i
    · subst hj
      rwa [update_self]
    rw [update_of_ne hj]
    exact hs.servers j
  · obtain ⟨hhas, hlink⟩ := hs.peers l j t (hpeers l ▸ hpeer)
    rw [hservers]
    by_cases hj : j = i
    · subst hj
      rw [update_self]
      exact ⟨hhas.mono hnext.ge, (hlinks t).trans hlink⟩
    rw [update_of_ne hj]
    exact ⟨hhas, hlink⟩

theorem requests_of_stream (hservers : u.servers = update s.servers i m)
    (hrequests : m.requests = (s.servers i).requests) (j : ℕ) :
    (u.servers j).requests = (s.servers j).requests := by
  rw [hservers]
  by_cases hj : j = i
  · subst hj
    rw [update_self, hrequests]
  · rw [update_of_ne hj]

theorem toMessage_follows (hs : s.Sound) (h : s.step (.toMessage l) = some u) :
    u.Sound ∧ (s.Follows u fun _ => []) ∧ s.gateway.Settles u.gateway fun _ => none := by
  simp only [step] at h
  split at h
  · rename_i i t frame wire hpeer hwire
    obtain ⟨m, hread, rfl⟩ := Option.map_eq_some_iff.1 h
    have hreads := MessageServer.read_reads (hs.servers i) hread
    generalize hx : ({ s.gateway.links l with wire } : MessageLink) = x
    generalize hu : ({ s.setServer i m with gateway := s.gateway.setLink l x } : LinkSystem) = u
    have hulink : u.gateway.links l = x := by rw [← hu]; exact GatewayDriver.links_setLink _ _ _
    have hother : ∀ l', l' ≠ l → u.gateway.links l' = s.gateway.links l' := by
      intro l' hne
      rw [← hu]
      exact GatewayDriver.links_setLink_ne _ hne _
    have huservers : u.servers = update s.servers i m := by rw [← hu]; rfl
    have huserver : u.servers i = m := by rw [huservers, update_self]
    have hupeer : (u.gateway.links l).peer = some (i, t) := by rw [hulink, ← hx, ← hpeer]
    have hcommands : (s.gateway.links l).commands = frame.command?.toList ++ x.commands := by
      rw [← hx]
      unfold MessageLink.commands
      rw [hwire, cons_append, filterMap_cons]
      cases frame.command? <;> rfl
    refine ⟨?_, ?_, ?_⟩
    · refine sound_of_stream hs ?_ ?_ huservers hreads.sound hreads.tokens hreads.links
      · rw [← hu]
        exact hs.gateway.setLink (hs.created hpeer) (by rw [← hx]) (by rw [← hx])
      · intro l'
        by_cases hl : l' = l
        · subst hl
          rw [hupeer, hpeer]
        · rw [hother l' hl]
    · have hat : s.Follows u fun l' => if l' = l then [] else [] := by
        refine follows_at (fun l' hne => same_of_stream (hs.apart hpeer hne) (hother l' hne) huservers
          hreads.others hreads.requests) ?_ ?_ ?_ ?_ ?_ ?_
        · intro j t' h
          rw [hupeer, ← hpeer, h]
        · rw [track_some hupeer, track_some hpeer, huserver, hulink, hcommands, ← append_assoc]
          exact hreads.received.append_right _
        · rw [outstanding_some hupeer, outstanding_some hpeer, huserver, hulink, hcommands]
          intro label hlabel
          simp only [map_append, append_assoc, mem_append] at hlabel ⊢
          rcases hlabel with hlabel | hlabel
          · exact .inr (.inl hlabel)
          rcases mem_append.1 (hreads.holding hlabel) with h | h
          · exact .inr (.inr h)
          · exact .inl h
        · intro label hlabel
          by_cases hstop : (m.streams t).stopping = true
          · exact .inr (.inr (.inr ⟨i, t, hupeer, by rw [huserver]; exact hstop⟩))
          have hlasting := hreads.lasting (by simpa using hstop)
          rw [outstanding_some hpeer, hcommands] at hlabel
          rw [outstanding_some hupeer, huserver, hulink]
          simp only [map_append, append_assoc, mem_append] at hlabel
          left
          rw [mem_append]
          rcases hlabel with hlabel | hlabel | hlabel
          · exact .inr (hlasting (mem_append_right _ hlabel))
          · exact .inl hlabel
          · exact .inr (hlasting (mem_append_left _ hlabel))
        · rintro (hstop | ⟨j, t', h, hstop⟩)
          · refine .inl ?_
            rw [hulink, ← hx]
            exact hstop
          · rw [hpeer] at h
            cases h
            exact .inr ⟨i, t, hupeer, by rw [huserver, hreads.stopping]; exact hstop⟩
        · exact requests_of_stream huservers hreads.requests
      simpa using hat
    · rw [← hu]
      exact .nothing rfl rfl rfl
  · cases h

theorem pop_follows (hs : s.Sound) (hpeer : (s.gateway.links l).peer = some (i, t))
    {wire : List MessageToGatewayFrame}
    (hwire : ((s.servers i).streams t).wire = frame :: wire) {u : LinkSystem}
    (hu : s.setServer i ((s.servers i).setStream t { (s.servers i).streams t with wire }) = u) :
    u.Sound ∧ s.Follows u fun l' => if l' = l then frame.result?.toList.map (·.label) else [] := by
  obtain ⟨hhas, hlink⟩ := hs.peers l i t hpeer
  obtain ⟨hback, hlasting⟩ := MessageServer.pop_holding hwire
  have hsound := MessageServer.pop_sound (hs.servers i) hhas hwire
  generalize hx : ({ (s.servers i).streams t with wire } : Stream) = x at hu hback hlasting hsound
  have hself := MessageServer.streams_setStream (s.servers i) t x
  have hothers : ∀ t', t' ≠ t → ((s.servers i).setStream t x).streams t' = (s.servers i).streams t' :=
    fun t' h => MessageServer.streams_setStream_ne _ h x
  have hrequests : ((s.servers i).setStream t x).requests = (s.servers i).requests := rfl
  have hnext : ((s.servers i).setStream t x).nextToken = (s.servers i).nextToken := rfl
  have hreceived : ((s.servers i).setStream t x).received t = (s.servers i).received t := by
    unfold MessageServer.received
    rw [hself, ← hx]
    rfl
  have hlinks : ∀ t', (((s.servers i).setStream t x).streams t').link = ((s.servers i).streams t').link := by
    intro t'
    by_cases ht : t' = t
    · subst ht
      rw [hself, ← hx]
    · rw [hothers t' ht]
  have hstopping : (((s.servers i).setStream t x).streams t).stopping =
      ((s.servers i).streams t).stopping := by rw [hself, ← hx]
  generalize (s.servers i).setStream t x = m at *
  have hulinks : u.gateway = s.gateway := by rw [← hu]; rfl
  have huservers : u.servers = update s.servers i m := by rw [← hu]; rfl
  have huserver : u.servers i = m := by rw [huservers, update_self]
  have hupeer : (u.gateway.links l).peer = some (i, t) := by rw [hulinks, hpeer]
  refine ⟨sound_of_stream hs (hulinks ▸ hs.gateway) (fun l => by rw [hulinks]) huservers hsound hnext hlinks,
    follows_at (fun l' hne => same_of_stream (hs.apart hpeer hne) (by rw [hulinks]) huservers hothers
      hrequests) ?_ ?_ ?_ ?_ ?_ (requests_of_stream huservers hrequests)⟩
  · intro j t' h
    rw [hulinks, h]
  · rw [track_some hupeer, track_some hpeer, huserver, hreceived, hulinks]
  · rw [outstanding_some hupeer, outstanding_some hpeer, huserver, hulinks]
    exact append_subset.2 ⟨subset_append_left _ _, fun label hlabel => mem_append_right _ (hback hlabel)⟩
  · intro label hlabel
    rw [outstanding_some hpeer, mem_append] at hlabel
    rw [outstanding_some hupeer, huserver, hulinks, mem_append]
    rcases hlabel with hlabel | hlabel
    · exact .inl (.inl hlabel)
    rcases mem_append.1 (hlasting hlabel) with h | h
    · exact .inr (.inl h)
    · exact .inl (.inr h)
  · rintro (hstop | ⟨j, t', h, hstop⟩)
    · exact .inl (by rw [hulinks]; exact hstop)
    · rw [hpeer] at h
      cases h
      exact .inr ⟨i, t, hupeer, by rw [huserver, hstopping]; exact hstop⟩

theorem delivers_toGateway (h : s.incoming l = some frame) : s.delivers (.toGateway l forwarded) =
      fun l' => if l' = l then frame.result?.toList.map (·.label) else [] := by
  funext l'
  simp [delivers, h]

theorem completes_toGateway (h : s.incoming l = some frame) (entry : String × PendingCommand) :
    s.completes (.toGateway l forwarded) entry = completedBy l forwarded frame entry := by
  simp [completes, h]

theorem toGateway_follows (hs : s.Sound) (h : s.step (.toGateway l forwarded) = some u) :
    u.Sound ∧ s.Follows u (s.delivers (.toGateway l forwarded)) ∧
      s.gateway.Settles u.gateway (s.completes (.toGateway l forwarded)) := by
  simp only [step] at h
  split at h
  · cases h
  rename_i i t hpeer
  split at h
  · cases h
  rename_i frame wire hwire
  split at h
  · cases h
    have hincoming : s.incoming l = some frame := by
      unfold incoming
      rw [hpeer]
      simp [hwire]
    obtain ⟨hsound, hpop⟩ := pop_follows hs hpeer hwire rfl
    have htends := GatewayDriver.onReadDone_tends (l := l) hs.gateway frame forwarded
    obtain ⟨hsound', hread⟩ := gateway_follows hsound (htends.sound hs.gateway) (htends.advances hs.gateway)
    refine ⟨hsound', ?_, ?_⟩
    · have hboth := hpop.trans hread (le_refl _)
      rw [delivers_toGateway hincoming]
      simpa using hboth
    · exact htends.settles.congr fun entry _ => (completes_toGateway hincoming entry).symm
  · cases h

theorem foreign_follows (hs : s.Sound) {frame : GatewayToMessageFrame}
    (h : s.step (.foreign i t frame) = some u) :
    u.Sound ∧ (s.Follows u fun _ => []) ∧ s.gateway.Settles u.gateway fun _ => none := by
  simp only [step] at h
  split at h
  · rename_i hforeign
    obtain ⟨m, hread, rfl⟩ := Option.map_eq_some_iff.1 h
    have hreads := MessageServer.read_reads (hs.servers i) hread
    have hne : ∀ l, (s.gateway.links l).peer ≠ some (i, t) := by
      intro l hpeer
      rw [(hs.peers l i t hpeer).2] at hforeign
      cases hforeign
    have hsame : ∀ l, s.Same (s.setServer i m) l := fun l =>
      same_of_stream (hne l) rfl rfl hreads.others hreads.requests
    refine ⟨sound_of_stream hs hs.gateway (fun _ => rfl) rfl hreads.sound hreads.tokens hreads.links, ?_,
      .nothing rfl rfl rfl⟩
    have hat : s.Follows (s.setServer i m) fun l' => if l' = 0 then [] else [] := by
      obtain ⟨htrack, houtstanding, hending⟩ := (hsame 0).views
      refine follows_at (fun l' _ => hsame l') (fun _ _ h => h) ?_ ?_ ?_ hending
        (requests_of_stream rfl hreads.requests)
      · rw [htrack]
      · rw [houtstanding]
        exact .refl _
      · intro label hlabel
        rw [houtstanding]
        exact .inl hlabel
    simpa using hat
  · cases h

/-- A command is sent on a link: it stands at the end of the line. -/
theorem send_track {command : CommandEnvelope} (h : s.gateway.Sends u.gateway l command)
    (hservers : u.servers = s.servers) :
    u.track l = s.track l ++ [s.gateway.stamp command] ∧
      (∀ label, label ∈ u.outstanding l ↔
        label ∈ s.outstanding l ∨ label = (s.gateway.stamp command).label) ∧
      (s.Ending l → u.Ending l) ∧ ∀ l', l' ≠ l → s.Same u l' := by
  refine ⟨?_, ?_, ?_, ?_⟩
  · cases hpeer : (s.gateway.links l).peer with
    | none => rw [track_none hpeer, track_none (h.peer.trans hpeer), h.commands]
    | some peer =>
      rw [track_some hpeer, track_some (h.peer.trans hpeer), h.commands, hservers, append_assoc]
  · intro label
    cases hpeer : (s.gateway.links l).peer with
    | none =>
      rw [outstanding_none hpeer, outstanding_none (h.peer.trans hpeer), h.commands]
      simp [eq_comm]
    | some peer =>
      rw [outstanding_some hpeer, outstanding_some (h.peer.trans hpeer), h.commands, hservers]
      simp only [map_append, map_cons, map_nil, mem_append, mem_singleton]
      tauto
  · unfold Ending
    rw [h.stopping, h.peer, hservers]
    exact fun h => h
  · intro l' hne
    refine ⟨h.others l' hne, fun i t _ => ?_⟩
    rw [hservers]
    exact ⟨rfl, rfl⟩

/-- What an event does: it sends a command on a link, or it completes commands and moves what is under way. -/
theorem step_cases (hs : s.Sound) {e : LinkEvent} (h : s.step e = some u) : u.Sound ∧
    ((∃ command l, e = .gateway (.sendCommand command) ∧ s.gateway.Sends u.gateway l command ∧
        u.servers = s.servers) ∨
      s.Follows u (s.delivers e) ∧ s.gateway.Settles u.gateway (s.completes e)) := by
  cases e with
  | gateway e =>
    obtain ⟨d, hd, rfl⟩ := Option.map_eq_some_iff.1 h
    rcases GatewayDriver.step_cases hs.gateway hd with ⟨command, l, rfl, hsends⟩ | ⟨hsound, hadvances, hsettles⟩
    · refine ⟨⟨hsends.sound hs.gateway, hs.servers, fun l' i t hpeer => hs.peers l' i t ?_⟩,
        .inl ⟨command, l, rfl, hsends, rfl⟩⟩
      by_cases hl : l' = l
      · subst hl
        exact hsends.peer.symm.trans hpeer
      · rwa [show (d.links l') = _ from hsends.others l' hl] at hpeer
    · obtain ⟨hsound', hfollows⟩ := gateway_follows hs hsound hadvances
      exact ⟨hsound', .inr ⟨hfollows, hsettles⟩⟩
  | message i e =>
    obtain ⟨m, hm, rfl⟩ := Option.map_eq_some_iff.1 h
    obtain ⟨hsound, hfollows⟩ := server_follows hs (MessageServer.step_fares (hs.servers i) hm)
    exact ⟨hsound, .inr ⟨hfollows, .nothing rfl rfl rfl⟩⟩
  | connect l i ids =>
    obtain ⟨hsound, hfollows, hsettles⟩ := connect_follows hs h
    exact ⟨hsound, .inr ⟨hfollows, hsettles⟩⟩
  | toMessage l =>
    obtain ⟨hsound, hfollows, hsettles⟩ := toMessage_follows hs h
    exact ⟨hsound, .inr ⟨hfollows, hsettles⟩⟩
  | toGateway l forwarded =>
    obtain ⟨hsound, hfollows, hsettles⟩ := toGateway_follows hs h
    exact ⟨hsound, .inr ⟨hfollows, hsettles⟩⟩
  | foreign i t frame =>
    obtain ⟨hsound, hfollows, hsettles⟩ := foreign_follows hs h
    exact ⟨hsound, .inr ⟨hfollows, hsettles⟩⟩

end LinkSystem

end Imm
