import Imm.Schemes.Paths
import Imm.Schemes.Remote
import Mathlib.Data.List.Count
import Mathlib.Logic.Function.Basic

/-! Verification codes of the Gate. Redis has three keys for an email: the code, a cooldown that keeps
    another one from being issued, and the count of wrong guesses. The three scripts that touch them are
    atomic. Who signs up or resets a password consumes a code first and only then writes to the
    database. Codes are told apart by the number of the script that issued them, a code that is issued
    twice being two of them; `trials` are the comparisons made so far, with the number of the code and
    whether the guess was right. -/

namespace Imm

open Remote

/-- What the Gate is configured with; it does not start with other values. -/
structure VerificationOptions where
  codeTtlSeconds : ℕ := 180
  cooldownSeconds : ℕ := 60
  maxAttempts : ℕ := 5
  codeTtl_pos : 0 < codeTtlSeconds := by decide
  cooldown_pos : 0 < cooldownSeconds := by decide
  maxAttempts_pos : 0 < maxAttempts := by decide

def VerificationOptions.standard : VerificationOptions := {}

/-- A code and the number of its issue. -/
structure StoredCode where
  value : String
  number : ℕ
  deriving DecidableEq

/-- A counter that may have no expiry. -/
structure StoredCount where
  value : ℕ
  deadline : Option ℕ
  deriving DecidableEq

/-- `im:verify:email:code`, `:cooldown` and `:attempts` -/
structure VerificationKeys where
  code : Option (Expiring StoredCode) := none
  cooldown : Option (Expiring Unit) := none
  attempts : Option StoredCount := none

/-- TTL: the milliseconds that remain, to the nearest second. -/
def ttlSeconds (ms : ℕ) : ℕ := (ms + 500) / 1000

namespace VerificationKeys

variable (o : VerificationOptions) (now : ℕ) (k : VerificationKeys)

/-- GET of the code, and when it expires -/
def current : Option (Expiring StoredCode) := k.code.filter (now ≤ ·.deadline)

/-- GET of the attempts, before INCR -/
def count : ℕ :=
  match k.attempts with
  | none => 0
  | some a => if a.deadline.any (· < now) then 0 else a.value

/-- The script of `issue_verification_code`. -/
def issue (code : StoredCode) : VerificationKeys × Bool :=
  if (live now k.cooldown).isSome then (k, false)
  else
    ({ code := some ⟨code, now + o.codeTtlSeconds * 1000⟩
       cooldown := some ⟨(), now + o.cooldownSeconds * 1000⟩
       attempts := none }, true)

/-- The script of `consume_verification_code`. -/
def consume (guess : String) : VerificationKeys × Bool :=
  match k.current now with
  | none => (k, false)
  | some code =>
    if code.value.value = guess then ({}, true)
    else
      let attempts := k.count now + 1
      let ttl := ttlSeconds (code.deadline - now)
      -- a counter that INCR finds keeps its deadline
      let deadline :=
        if attempts = 1 then if 0 < ttl then some (now + ttl * 1000) else none
        else k.attempts.bind (·.deadline)
      if o.maxAttempts ≤ attempts then ({ k with code := none, attempts := none }, false)
      else ({ k with attempts := some ⟨attempts, deadline⟩ }, false)

/-- The script of `clear_verification_code`. -/
def clear (code : String) : VerificationKeys × Bool :=
  if (k.current now).map (·.value.value) = some code then ({}, true) else (k, false)

end VerificationKeys

inductive RequestKind where | signUp | resetPassword
  deriving DecidableEq

/-- Where a request is. -/
inductive RequestStage where
  /-- `user_exists`, or `find_user` and the comparison of the email -/
  | checking
  | consuming
  /-- it has consumed a code -/
  | accepted (number : ℕ)
  | ended
  deriving DecidableEq

structure GateRequest where
  kind : RequestKind
  email : String
  verifyCode : String
  stage : RequestStage := .checking

/-- A code that was issued. -/
structure Issue where
  email : String
  value : String
  issuedAt : ℕ
  deriving DecidableEq

structure Gate where
  now : ℕ := 0
  keys : String → VerificationKeys := fun _ => {}
  requests : List GateRequest := []
  issues : List Issue := []
  trials : List (ℕ × Bool) := []
  /-- `register_user` and `update_password`, with the code that authorised it -/
  writes : List (RequestKind × ℕ) := []

inductive GateEvent where
  | tick (ms : ℕ)
  | issue (email code : String)
  | clear (email code : String)
  | request (kind : RequestKind) (email verifyCode : String)
  /-- the check of the user, or its failure -/
  | checked (k : ℕ) (ok : Bool)
  /-- the script runs; its reply may get lost -/
  | consume (k : ℕ) (lost : Bool)
  /-- the write to the database, with the new user id before it; or a failure of either -/
  | write (k : ℕ) (ok : Bool)

namespace Gate

variable (o : VerificationOptions) (g : Gate)

def setKeys (email : String) (k : VerificationKeys) : Gate := { g with keys := Function.update g.keys email k }

def setStage (k : ℕ) (r : GateRequest) (stage : RequestStage) : Gate :=
  { g with requests := g.requests.set k { r with stage } }

/-- The comparison that a consume makes, if there is a code. -/
def trial (email guess : String) : Option (ℕ × Bool) :=
  ((g.keys email).current g.now).map fun code => (code.value.number, code.value.value = guess)

/-- `consume_verification_code`, with its record. -/
def consume (email guess : String) : Gate × Bool :=
  let reply := (g.keys email).consume o g.now guess
  ({ g.setKeys email reply.1 with trials := g.trials ++ (g.trial email guess).toList }, reply.2)

/-- Where a request goes on to after its consume. -/
def afterConsume (email guess : String) (lost : Bool) : RequestStage :=
  match g.trial email guess with
  | some (number, true) => if lost then .ended else .accepted number
  | _ => .ended

def step : GateEvent → Option Gate
  | .tick ms => some { g with now := g.now + ms }
  | .issue email code =>
    let reply := (g.keys email).issue o g.now ⟨code, g.issues.length⟩
    if reply.2 then
      some { g.setKeys email reply.1 with issues := g.issues ++ [⟨email, code, g.now⟩] }
    else some g
  | .clear email code => some (g.setKeys email ((g.keys email).clear g.now code).1)
  | .request kind email verifyCode => some { g with requests := g.requests ++ [{ kind, email, verifyCode }] }
  | .checked k ok =>
    match g.requests[k]? with
    | some r =>
      if r.stage = .checking then some (g.setStage k r (if ok then .consuming else .ended)) else none
    | none => none
  | .consume k lost =>
    match g.requests[k]? with
    | some r =>
      if r.stage = .consuming then
        some ((g.consume o r.email r.verifyCode).1.setStage k r (g.afterConsume r.email r.verifyCode lost))
      else none
    | none => none
  | .write k ok =>
    match g.requests[k]? with
    | some r =>
      match r.stage with
      | .accepted number =>
        some { g.setStage k r .ended with
          writes := if ok then g.writes ++ [(r.kind, number)] else g.writes }
      | _ => none
    | none => none

end Gate

end Imm
