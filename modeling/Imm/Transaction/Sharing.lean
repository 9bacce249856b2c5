import Imm.Schemes.Paths
import Imm.Store.Files
import Imm.Store.Visibility
import Imm.Transaction.Commands

/-! Who may download a file. `find_downloadable_file` looks for a message that carries the file in a
    conversation of the user; it does not look at where the user's history starts. A member who joins a
    group late can therefore download files that its history never shows. Where members join before files
    are shared, permission and history agree. -/

namespace Imm

open Txn SQL MysqlStore Option

/-- The message `k` is a file message of the owner of `f` and carries `f`: its content is the id of `f`, as the
    column of contents keeps it. -/
structure CarriesFile (d : Db) (k : ℤ) (m : Message) (f : FileObject) : Prop where
  stored : d.messages.get k = some m
  type : m.type = .FILE
  content : m.content = text f.fileId
  sender : m.senderId = f.ownerUid

/-- No message in the conversation of the group is a file message. -/
def Db.noFiles (d : Db) (g : ℤ) : Bool :=
  (d.groupInfo.get g).all fun gi =>
    d.messages.rows.all fun e => decide (e.2.conversationId = gi.conversationId → e.2.type ≠ .FILE)

theorem Db.noFiles_iff {d : Db} {g : ℤ} : d.noFiles g = true ↔ ∀ gi, d.groupInfo.get g = some gi →
    ∀ k m, d.messages.get k = some m → m.conversationId = gi.conversationId → m.type ≠ .FILE := by
  simp only [Db.noFiles, all_eq_true, List.all_eq_true, Prod.forall, Table.mem_rows, decide_eq_true_eq]

/-- The group that a command lets a new member into. -/
def Command.admits (c : Command) : Option ℤ :=
  match c.request with
  | .replyJoinGroup g _ (some true) => some g
  | _ => none

/-- A command that lets a member into a group acts while no file has been shared there. -/
def JoinsBeforeFiles (s : ServiceStore) : Event Command → Prop
  | .act i _ => ∀ σ ∈ s.sessions[i]?, ∀ g ∈ σ.op.admits, s.cur.db.noFiles g
  | _ => True

instance (s : ServiceStore) : DecidablePred (JoinsBeforeFiles s)
  | .act i _ => inferInstanceAs (Decidable (∀ σ ∈ s.sessions[i]?, _))
  | .begin _ | .fault _ _ | .orphan _ _ _ => .isTrue trivial

variable [Collation]

/-- Permission to download agrees with history: a user finds a file exactly if its owner has sent a
    message with it that a pull of the user returns. -/
def DownloadsAgree (d : Db) : Prop :=
  ∀ u now k f, 0 < u → d.fileObjects.get k = some f → f.state = 1 → now < f.expiresTime →
    (downloadableFile f.fileId u now d = some f ↔
      ∃ i m, CarriesFile d i m f ∧ CanReturn (Sys.init d) m.conversationId u i)

/-- A database in which files are shared as the service does it, with members who joined before. -/
structure Db.Shared (d : Db) : Prop where
  sound : d.Sound
  filed : d.Filed
  positive : ∀ c, (d.conversations.get c).isSome → 0 < c
  carried : ∀ k m, d.messages.get k = some m → m.type = .FILE →
    ∃ f, d.fileObjects.get (weight m.content) = some f ∧ CarriesFile d k m f
  joined : ∀ k m u st, d.messages.get k = some m → m.type = .FILE →
    d.conversationUserStates.get (m.conversationId, u) = some st → st.joinedSeq ≤ m.conversationSeq

/-! ### In one database -/

section database

variable {d : Db}

omit [Collation] in
/-- The two queries ask for the same participants. -/
theorem reachesMessage_iff (hd : d.Sound) {u : ℤ} {m : Message} :
    reachesMessage u d m = true ↔ ∃ conv st, membership m.conversationId u d = some (conv, st) := by
  constructor
  · intro h
    simp only [reachesMessage, Bool.and_eq_true] at h
    obtain ⟨st, hst⟩ := isSome_iff_exists.1 h.1
    obtain ⟨conv, hconv⟩ := isSome_iff_exists.1 (hd.aligned.state_conversation m.conversationId u h.1)
    refine ⟨conv, st, ?_⟩
    have hcond := h.2
    simp only [hconv, any_some, Bool.or_eq_true, Bool.not_eq_true', decide_eq_false_iff_not] at hcond
    simp [membership, hconv, hst, hcond]
  · rintro ⟨conv, st, hmem⟩
    obtain ⟨hconv, hst⟩ := membership_eq_some hmem
    simp only [membership, hconv, hst, bind_eq_bind, bind_some] at hmem
    split at hmem
    · rename_i hcond
      simp [reachesMessage, hconv, hst, hcond]
    · cases hmem

theorem downloadableFile_iff {u : ℤ} {now k : String} {f : FileObject} (hd : d.Filed)
    (hf : d.fileObjects.get k = some f) (hstate : f.state = 1) (hnow : now < f.expiresTime) :
    downloadableFile f.fileId u now d = some f ↔ ∃ i m, d.messages.get i = some m ∧ m.type = .FILE ∧
      weight m.content = weight f.fileId ∧ reachesMessage u d m = true := by
  have hkey := hd k f hf
  subst hkey
  rw [downloadableFile, hf, filter_eq_some_iff]
  simp only [true_and, Bool.and_eq_true, decide_eq_true_eq, hstate, hnow, Table.has, List.any_eq_true,
    Prod.exists, Table.mem_rows, and_assoc]

theorem Db.Shared.agree (hd : d.Shared) : DownloadsAgree d := by
  intro u now k f hu hf hstate hnow
  have hrun : Runs d (Sys.init d) := ⟨[], rfl⟩
  rw [downloadableFile_iff hd.filed hf hstate hnow]
  constructor
  · rintro ⟨i, m, hm, htype, hweight, hreach⟩
    -- the row found for the message is the row of the file
    obtain ⟨f', hf', hcarries⟩ := hd.carried i m hm htype
    rw [hweight, ← hd.filed k f hf, hf] at hf'
    cases hf'
    obtain ⟨conv, st, hmem⟩ := (reachesMessage_iff hd.sound).1 hreach
    obtain ⟨hconv, hst⟩ := membership_eq_some hmem
    refine ⟨i, m, hcarries, canReturn_of_visible hrun hd.sound ?_ hu hmem hm rfl ?_⟩
    · exact hd.positive m.conversationId (by simp [hconv])
    · exact hd.joined i m u st hm htype hst
  · rintro ⟨i, m, hcarries, hreturn⟩
    obtain ⟨conv, st, -, hmem, -⟩ := hreturn.visible hrun hd.sound
    exact ⟨i, m, hcarries.stored, hcarries.type, by simp [hcarries.content],
      (reachesMessage_iff hd.sound).2 ⟨conv, st, hmem⟩⟩

end database

/-! ### Along a run -/

section runs

variable {d : Db} {s s' : ServiceStore}

variable {v : Version Db Key} {u : ℤ} {V : Versions} {t : ℕ} {c : Command} {o : Operation} {m : Message}

theorem Serves.sound (hrun : Serves d s) (hd : d.Sound) {j : ℕ}
    (hv : s.versions[j]? = some v) : v.db.Sound := by
  refine hrun.history.sound (fun v hv => ?_) hv
  cases hrun.first.symm.trans hv
  exact hd

theorem Serves.filed (hrun : Serves d s) (hd : d.Filed) {j : ℕ}
    (hv : s.versions[j]? = some v) : v.db.Filed := by
  refine hrun.history.filed (fun v hv => ?_) hv
  cases hrun.first.symm.trans hv
  exact hd

theorem Serves.ownsFile (hrun : Serves d s) (hd : d.Filed) {fileId : String}
    (h : OwnsFile s.versions u fileId) : ∃ f, s.cur.db.fileObjects.get (weight fileId) = some f ∧
      f.fileId = fileId ∧ f.ownerUid = u := by
  obtain ⟨v, hv, k, file, hfile, rfl, rfl⟩ := h
  obtain ⟨j, hj⟩ := List.getElem?_of_mem hv
  rw [hrun.filed hd hj k file hfile] at hfile
  exact hrun.history.file (Sys.le_now hj) hj s.cur_now hfile

theorem Issues.opens (h : Issues V t c o) {conv : ℤ} (hopens : o.Opens conv) : 0 < conv := by
  cases h with
  | befriend _ hpos => exact hopens ▸ hpos
  | createGroup _ hpos => exact hopens ▸ hpos
  | _ => exact hopens.elim

theorem Issues.ownsFile (h : Issues V t c o) (hsends : o.Sends m) (htype : m.type = .FILE) :
    ∃ fileId, OwnsFile V m.senderId fileId ∧ m.content = text fileId := by
  cases h with
  | direct _ howns | group _ howns =>
    obtain ⟨conv, seq, rfl⟩ := hsends
    exact ⟨_, howns htype, rfl⟩
  | _ => exact hsends.elim

theorem Issues.admits {g a : ℤ} {now : String}
    (h : Issues V t c (.replyGroupJoin g a u true now)) : c.admits = some g := by
  cases h with
  | replyJoinGroup hreq => rw [Command.admits, hreq]

/-- A file message that a deed finds or stores names a file of its sender. -/
theorem Db.Shared.carried_step {ws : List Write} {ls : List (Lock Key)}
    (hd : s.cur.db.Shared) (hrun' : Serves d s') (hfiled : d.Filed) (hissues : ∃ c, Issues s'.versions s.now c o)
    (hdeed : Deed V t s.cur.db ls o ws) (hdb : s'.cur.db = applyAll ws s.cur.db) {k : ℤ}
    (hm : s'.cur.db.messages.get k = some m) (htype : m.type = .FILE) :
    ∃ f, s'.cur.db.fileObjects.get (weight m.content) = some f ∧ CarriesFile s'.cur.db k m f := by
  obtain ⟨f, hf, hid, howner⟩ : ∃ f, s'.cur.db.fileObjects.get (weight m.content) = some f ∧
      m.content = text f.fileId ∧ f.ownerUid = m.senderId := by
    rcases hdeed.message_origin (hdb ▸ hm) with ⟨m₀, hm₀, hsame⟩ | ⟨hsends, -⟩
    · rw [← hsame] at htype ⊢
      obtain ⟨f₀, hf₀, hcarries⟩ := hd.carried k m₀ hm₀ htype
      obtain ⟨f, hf, hid, howner⟩ := hdeed.file hf₀
      exact ⟨f, hdb ▸ hf, hid ▸ hcarries.content, howner.trans hcarries.sender.symm⟩
    · obtain ⟨c, hissues⟩ := hissues
      obtain ⟨fileId, howns, hcontent⟩ := hissues.ownsFile hsends htype
      obtain ⟨f, hf, rfl, howner⟩ := hrun'.ownsFile hfiled howns
      exact ⟨f, by rw [hcontent, weight_text, hf], hcontent, howner⟩
  exact ⟨f, hf, hm, htype, hid, howner.symm⟩

/-- Where a new member finds no file messages, everybody has joined before all of them. -/
theorem Db.Shared.joined_step {A : Operation → Prop} (h : History A V) (hv : V[t]? = some v)
    (hd : v.db.Shared) {ls : List (Lock Key)}
    {ws : List Write} (hdeed : Deed V t v.db ls o ws)
    (hnofiles : ∀ g a u now, o = .replyGroupJoin g a u true now → v.db.noFiles g = true) {k : ℤ}
    {st : UserState} (hm : (applyAll ws v.db).messages.get k = some m) (htype : m.type = .FILE)
    (hst : (applyAll ws v.db).conversationUserStates.get (m.conversationId, u) = some st) :
    st.joinedSeq ≤ m.conversationSeq := by
  rcases hdeed.message_origin hm with ⟨m₀, hm₀, hsame⟩ | ⟨hsends, conv, hconv, hseq⟩
  · rw [← hsame] at htype hst ⊢
    obtain ⟨conv, hconv⟩ := isSome_iff_exists.1 (hd.sound.attached k m₀ hm₀)
    have hpos := ((hd.sound.gapless _ conv hconv).1 k m₀ hm₀ rfl).1
    cases hold : v.db.conversationUserStates.get (m₀.conversationId, u) with
    | some st₀ =>
      have hle := hd.joined k m₀ u st₀ hm₀ htype hold
      rcases hdeed.userState hold with hnone | ⟨st₁, hst₁, hjoined⟩
      · cases hnone.symm.trans hst
      cases hst₁.symm.trans hst
      exact hjoined ▸ hle
    | none =>
      rcases hdeed.new_state h hv hold hst with ⟨hone, -⟩ | ⟨-, -, -, g, a, now, gi, rfl, hgroup, hgi⟩
      · exact hone ▸ hpos
      · exact absurd htype (Db.noFiles_iff.1 (hnofiles g a u now rfl) gi hgroup k m₀ hm₀ hgi.symm)
  · -- a new message comes after the start of everybody's history
    cases hold : v.db.conversationUserStates.get (m.conversationId, u) with
    | some st₀ =>
      have hle := hd.sound.joined m.conversationId u st₀ conv hold hconv
      rcases hdeed.userState hold with hnone | ⟨st₁, hst₁, hjoined⟩
      · cases hnone.symm.trans hst
      cases hst₁.symm.trans hst
      omega
    | none =>
      rcases hdeed.new_state h hv hold hst with ⟨hone, -⟩ | ⟨conv', hconv', hnext, -⟩
      · omega
      cases hconv.symm.trans hconv'
      omega

theorem Db.Shared.step (hd : d.Shared) (hrun : Serves d s) (hs : s.cur.db.Shared) {ev : Event Command}
    (hok : JoinsBeforeFiles s ev) (hstep : s.step Service.process ev = some s') : s'.cur.db.Shared := by
  have hrun' := hrun.next hstep
  rcases hrun.step hstep with hsame | ⟨i, n, σ, o, ws, rfl, hi, hissues, hdeed, hdb⟩
  · exact hsame ▸ hs
  have hcur : s'.versions[s.now]? = some s.cur := Sys.past_of_prefix (Sys.versions_step hstep) s.cur_now
  refine ⟨hrun'.sound hd.sound s'.cur_now, hrun'.filed hd.filed s'.cur_now, fun c hc => ?_, fun k m hm htype => ?_,
    fun k m u st hm htype hst => ?_⟩
  · rcases hdeed.conversation_origin (hdb ▸ hc) with hold | hopens
    · exact hs.positive c hold
    · exact hissues.opens hopens
  · exact hs.carried_step hrun' hd.filed ⟨_, hissues⟩ hdeed hdb hm htype
  · rw [hdb] at hm hst
    refine hs.joined_step hrun'.history hcur hdeed ?_ hm htype hst
    rintro g a u now rfl
    exact hok σ hi g hissues.admits

end runs

/-- While members join groups before files are shared there, permission and history agree. -/
theorem downloads_agree {d : Db} {s : ServiceStore} (hd : d.Shared)
    (h : Steps.Path (Sys.step Service.process) JoinsBeforeFiles (Sys.init d) s) : DownloadsAgree s.cur.db := by
  have hshared : s.cur.db.Shared := by
    refine h.invariant (P := fun s => s.cur.db.Shared) hd fun s ev s' hpath hs hok hstep => ?_
    exact hd.step hpath.events hs hok hstep
  exact hshared.agree

omit [Collation] in
theorem Db.sound_empty : ({} : Db).Sound := by
  refine ⟨?_, ?_, ⟨?_, ?_, ?_, ?_, ?_, ?_, ?_⟩, ?_⟩ <;> simp [Db.Gapless, Db.Attached, Db.Joined]

theorem Db.shared_empty : ({} : Db).Shared :=
  ⟨Db.sound_empty, by simp [Db.Filed], by simp, by simp, by simp⟩

omit [Collation]

/-! A group is founded, a second member is let in, and a file is uploaded and shared in the group. -/

def planInfo : FileInfo where
  fileId := "0f8fad5b-d9cb-469f-a165-70867728950e"
  fileName := "plan.txt"
  fileType := "text/plain"
  fileSize := 2
  sha256 := "8f434346648f6b96df89dda901c5176b"

def founding : Command := { actorUid := 1, actorDeviceId := "", request := .createGroup "team" }

def joining : Command := { actorUid := 2, actorDeviceId := "", request := .joinGroup 7 "" }

def admitting : Command := { actorUid := 1, actorDeviceId := "", request := .replyJoinGroup 7 2 (some true) }

def uploading : Command where
  actorUid := 1
  actorDeviceId := ""
  request := .fileUpload .complete (some planInfo) 0 [72, 105] true
  clock n := if n = 2 then "2026-02-01 09:00:00" else "2026-01-02 09:00:00"
  uploaded := { userId := 1, nextOffset := 2 }

def sharing : Command where
  actorUid := 1
  actorDeviceId := ""
  request := .sendGroupFile 7 (some planInfo.fileId) "a"
  clock _ := "2026-01-02 09:01:00"

def foundingNumbers : List ℕ := [1, 7, 9, 0, 0, 0, 0, 0, 0, 0]
def joiningNumbers : List ℕ := [1, 0, 0, 0, 0, 0, 0]
def admittingNumbers : List ℕ := [1, 0, 0, 0, 0, 0, 0, 0, 0, 0]
def uploadingNumbers : List ℕ := [1, 0, 0, 0, 0, 0, 0]
def sharingNumbers : List ℕ := [1, 0, 0, 0, 0, 0, 0, 0, 0, 0, 1, 0, 0]

/-- The member is there when the file is shared. -/
def sharedLater : List (Event Command) :=
  handled 0 founding foundingNumbers ++ handled 1 joining joiningNumbers ++ handled 2 admitting admittingNumbers ++
    handled 3 uploading uploadingNumbers ++ handled 4 sharing sharingNumbers

theorem downloads_agree_in_team :
    let _ := Collation.ascii
    ∃ s : ServiceStore, Steps.Path (Sys.step Service.process) JoinsBeforeFiles (Sys.init {}) s ∧
      downloadableFile planInfo.fileId 2 "2026-01-03 09:00:00" s.cur.db = some (Files.object uploading planInfo) ∧
      DownloadsAgree s.cur.db := by
  let _ := Collation.ascii
  have heval : (sharedLater.foldlM
      (fun s ev => if decide (JoinsBeforeFiles s ev) then s.step Service.process ev else none)
      (Sys.init {} : ServiceStore)).any (fun s => decide (downloadableFile planInfo.fileId 2 "2026-01-03 09:00:00"
        s.cur.db = some (Files.object uploading planInfo))) = true := by
    decide +kernel
  obtain ⟨s, hrun, hfound⟩ := (any_eq_true _ _).1 heval
  have hpath : Steps.Path (Sys.step Service.process) JoinsBeforeFiles (Sys.init {}) s :=
    Steps.Path.here.checked (fun _ _ h => of_decide_eq_true h) hrun
  exact ⟨s, hpath, of_decide_eq_true hfound, downloads_agree Db.shared_empty hpath⟩

/-- The member is let in after the file was shared. -/
def sharedBefore : List (Event Command) :=
  handled 0 founding foundingNumbers ++ handled 1 uploading uploadingNumbers ++ handled 2 sharing sharingNumbers ++
    handled 3 joining joiningNumbers ++ handled 4 admitting admittingNumbers

/-- The late member may download the file, and no pull returns a message that carries it. -/
theorem late_member_downloads :
    let _ := Collation.ascii
    ∃ s : ServiceStore, Serves {} s ∧
      downloadableFile planInfo.fileId 2 "2026-01-03 09:00:00" s.cur.db = some (Files.object uploading planInfo) ∧
      ¬ DownloadsAgree s.cur.db := by
  let _ := Collation.ascii
  have heval : ((Sys.init {}).run Service.process sharedBefore).any (fun s : ServiceStore =>
      decide (downloadableFile planInfo.fileId 2 "2026-01-03 09:00:00" s.cur.db =
          some (Files.object uploading planInfo) ∧
        s.cur.db.messages.rows.map (fun e => (e.2.conversationId, e.2.conversationSeq)) = [(9, 1)] ∧
        (s.cur.db.conversationUserStates.get (9, 2)).map UserState.joinedSeq = some 2)) = true := by
    decide +kernel
  obtain ⟨s, hrun, hfacts⟩ := (any_eq_true _ _).1 heval
  obtain ⟨hfound, hrows, hstate⟩ := of_decide_eq_true hfacts
  refine ⟨s, ⟨_, hrun⟩, hfound, fun hagree => ?_⟩
  have hsound := Serves.sound ⟨_, hrun⟩ Db.sound_empty s.cur_now
  obtain ⟨hrow, -⟩ := filter_eq_some_iff.1 hfound
  obtain ⟨i, m, hcarries, hreturn⟩ :=
    (hagree 2 "2026-01-03 09:00:00" _ _ (by decide) hrow rfl (by decide)).1 hfound
  obtain ⟨conv, st, m', hmem, hm', -, hjoined⟩ := hreturn.visible ⟨[], rfl⟩ hsound
  cases hcarries.stored.symm.trans hm'
  have hplace : (m.conversationId, m.conversationSeq) ∈ [((9 : ℤ), 1)] :=
    hrows ▸ List.mem_map_of_mem (Table.mem_rows.2 hcarries.stored)
  obtain ⟨hconv, hseq⟩ := Prod.mk.inj (List.mem_singleton.1 hplace)
  have hst : s.cur.db.conversationUserStates.get (m.conversationId, 2) = some st := (membership_eq_some hmem).2
  rw [hconv] at hst
  rw [hst, map_some, Option.some.injEq] at hstate
  omega

end Imm
