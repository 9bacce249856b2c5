import Imm.Session.Steps

/-! The way of a login through its stages, and what is known at each of them. Only an unbound connection
    gets as far as `preparing`, so the identity of a connection is set once. -/

namespace Imm

open Remote

/-- Stages of no login. -/
def Stage.Idle : Stage → Prop
  | .reading | .draining | .clearing _ | .ended => True
  | _ => False

/-- Stages of a login that found the connection unbound. -/
def Stage.First : Stage → Prop
  | .preparing _ | .registering _ | .binding _ _ | .closingPrevious _ _ | .closedPrevious _
  | .refreshing _ _ => True
  | _ => False

namespace Connection

variable {id : String} {calls : List RedisCall} {c c' : Connection} {e : ConnectionEvent}
  {command : Option RedisCommand}

/-- The identity of a connection stays as it is. -/
def SameIdentity (c c' : Connection) : Prop := c'.uid = c.uid ∧ c'.lease = c.lease

/-- The arrows of a login. -/
inductive Advances (id : String) (calls : List RedisCall) (c : Connection) :
    ConnectionEvent → Connection → Prop
  | stays {e : ConnectionEvent} {c' : Connection} (hstage : c'.stage = c.stage)
      (hsame : c.SameIdentity c') : Advances id calls c e c'
  | leaves {e : ConnectionEvent} {c' : Connection} (hidle : c'.stage.Idle)
      (hsame : c.SameIdentity c') : Advances id calls c e c'
  | asks {login : LoginRequest} (hstage : c.stage = .reading) (hvalid : login.validate = .Success) :
      Advances id calls c (.request login) { c with stage := .validating login }
  | validated {login : LoginRequest} (hstage : c.stage = .validating login) (huid : c.uid = 0) :
      Advances id calls c (.checked true) { c with stage := .preparing login }
  | prepared {login : LoginRequest} (hstage : c.stage = .preparing login) :
      Advances id calls c (.checked true) { c with stage := .registering login }
  | registered {login : LoginRequest} (hstage : c.stage = .registering login) :
      Advances id calls c (.checked true) { c with stage := .binding login calls.length }
  | bound {login : LoginRequest} {call generation now : ℕ} {previous : Option SessionLease}
      (hstage : c.stage = .binding login call)
      (hreply : replyTo calls call = some (.bound generation previous)) :
      Advances id calls c (.resume now)
        { c with
          uid := login.uid, lease := { c.route id login.deviceId with generation }, lastRefresh := now
          stage := .afterBind login previous }
  | refreshes {login : LoginRequest} {now : ℕ} (hstage : c.stage = .closedPrevious login) :
      Advances id calls c (.resume now) { c with stage := .refreshing login calls.length }

theorem step_advances (h : c.step id calls e = some (c', command)) : c.Advances id calls e c' := by
  cases step_goes h with
  | tends htends => exact .stays htends.stage ⟨htends.keeps.uid, htends.keeps.lease⟩
  | asks hstage hvalid => exact .asks hstage hvalid
  | validated hstage huid => exact .validated hstage huid
  | prepared hstage => exact .prepared hstage
  | registered hstage => exact .registered hstage
  | bound hstage hreply => exact .bound hstage hreply
  | refreshes hstage => exact .refreshes hstage
  | _ => exact .leaves trivial ⟨rfl, rfl⟩

/-- A request that passed `validate`; before the bind there is no identity, after it there is one. -/
def Fits (c : Connection) : Prop :=
  match c.stage with
  | .validating login => 0 < login.uid
  | .preparing login | .registering login | .binding login _ => 0 < login.uid ∧ c.uid = 0
  | .closingPrevious _ _ | .closedPrevious _ | .refreshing _ _ => c.uid ≠ 0
  | .reading | .draining | .clearing _ | .ended => True

theorem fits_of_idle (h : c.stage.Idle) : c.Fits := by
  unfold Fits
  cases hstage : c.stage <;> simp [hstage, Stage.Idle] at h ⊢

theorem validate_uid {login : LoginRequest} (h : login.validate = .Success) : 0 < login.uid := by
  unfold LoginRequest.validate at h
  split at h
  · cases h
  rename_i hbad
  exact not_le.1 fun hle => hbad (.inl hle)

theorem Fits.advance (hfits : c.Fits) (h : c.Advances id calls e c') : c'.Fits := by
  cases h with
  | stays hstage hsame =>
    unfold Fits at hfits ⊢
    rw [hstage, hsame.1]
    exact hfits
  | leaves hidle _ => exact fits_of_idle hidle
  | asks _ hvalid => exact validate_uid hvalid
  | validated hstage huid =>
    rw [Fits, hstage] at hfits
    exact ⟨hfits, huid⟩
  | prepared hstage =>
    rw [Fits, hstage] at hfits
    exact hfits
  | registered hstage =>
    rw [Fits, hstage] at hfits
    exact hfits
  | @bound _ _ _ _ previous hstage _ =>
    rw [Fits, hstage] at hfits
    cases previous <;> exact hfits.1.ne'
  | refreshes hstage =>
    rw [Fits, hstage] at hfits
    exact hfits

theorem Fits.bound_once (hfits : c.Fits) (h : c.Advances id calls e c') (huid : c.uid ≠ 0) :
    c.SameIdentity c' := by
  cases h with
  | stays _ hsame => exact hsame
  | leaves _ hsame => exact hsame
  | bound hstage _ =>
    rw [Fits, hstage] at hfits
    exact absurd hfits.2 huid
  | _ => exact ⟨rfl, rfl⟩

/-- An answer leaves the connection as it is and lets it read on; no other step answers. After the bind
    only an exception leads to an error. -/
theorem step_answers (h : c.step id calls e = some (c', command)) :
    c'.answers = c.answers ∨ ∃ a, c' = c.answer a ∧ ¬c.stage.Past ∧ (∀ error, a = .refused error →
      ∀ login n, c.stage = .refreshing login n → ∃ overloaded, e = .fault overloaded) := by
  cases step_goes h with
  | tends htends => exact .inl htends.answers
  | refused hstage | again hstage | logged hstage =>
    exact .inr ⟨_, rfl, by simp [hstage, Stage.Past], by simp [hstage]⟩
  | denied hstage =>
    refine .inr ⟨_, rfl, fun hpast => ?_, fun _ _ login n hrefreshing => ?_⟩
    · cases hold : c.stage <;> simp_all [Stage.Checking, Stage.Past]
    · rw [hrefreshing] at hstage
      exact hstage.elim
  | interrupted hstage =>
    refine .inr ⟨_, rfl, fun hpast => ?_, fun _ _ _ _ _ => ⟨_, rfl⟩⟩
    cases hold : c.stage <;> simp_all [Stage.Calling, Stage.Past]
  | _ => exact .inl rfl

end Connection

end Imm
