import Mathlib.Algebra.Order.Ring.Int
import Imm.Schemes.Paths
import Imm.Schemes.Tickets

/-! The bounded I/O queue of a shard. A submission is refused at once or owned by the queue, which keeps its
    arguments and the promise of its result; a fixed number of consumers take what is pending and await the
    backend. A consumer suspends in two places only, in the wait for the condition variable and in the call
    of the backend, so a step below is what runs between two suspensions. The order in which scheduled
    coroutines run, the waiter a signal wakes and the time a call takes are left to the events.

        scheduled ──▶ waiting     (nothing pending)
            ▲ ▲ └───▶ executing   (takes the front of the queue)
            │ └── signal ── waiting
            └──── finish ── executing -/

namespace Imm

/-- `queue_limits`; the constructor of the queue refuses a limit of zero. -/
structure QueueLimits where
  pending : ℕ := 128
  bytes : ℕ := 1024 * 1024
  concurrency : ℕ := 4
  pending_pos : 0 < pending := by decide
  bytes_pos : 0 < bytes := by decide
  concurrency_pos : 0 < concurrency := by decide

inductive QueueError where
  | overloaded
  | stopped
  deriving DecidableEq, Repr

/-- What the future of an admitted operation is completed with: the value or exception of the backend, or the
    `stopped` exception. -/
inductive QueueResult (R : Type) where
  | executed (outcome : R)
  | stopped
  deriving DecidableEq, Repr

/-- An admitted operation with its promise, named by the number of operations admitted before it. -/
structure Job (Op : Type) where
  ticket : ℕ
  operation : Op
  deriving DecidableEq, Repr

/-- A call of `Backend::execute` and what its future resolved to. -/
structure BackendCall (Op R : Type) where
  ticket : ℕ
  operation : Op
  outcome : Option R := none
  deriving DecidableEq, Repr

/-- Where a `consume` coroutine is: about to run from the top of its loop, suspended in `_ready.when()`,
    suspended in `execute` on a call of the backend, or at its `co_return`. -/
inductive Consumer (Op : Type) where
  | scheduled
  | waiting
  | executing (job : Job Op) (call : ℕ)
  | returned
  deriving DecidableEq, Repr

/-- What a queue is built with. `size` is `sizeof(entry) + operation.byte_size()`; `remembers` says whether
    the condition variable keeps a signal that nobody waits for. -/
structure QueueConfig (Op : Type) where
  limits : QueueLimits := {}
  size : Op → ℕ
  remembers : Bool

structure OperationQueue (Op R : Type) where
  config : QueueConfig Op
  accepting : Bool := false
  /-- Units of `_bytes` that nobody holds. -/
  bytes : ℕ := config.limits.bytes
  pending : List (Job Op) := []
  signalled : Bool := false
  consumers : List (Consumer Op) := []
  /-- The operations admitted so far, the calls made of the backend and the promises completed. -/
  admitted : List Op := []
  calls : List (BackendCall Op R) := []
  completions : List (ℕ × QueueResult R) := []

inductive QueueEvent (Op R : Type) where
  | start
  /-- `wakes` is the waiter the signal of an admitted operation wakes. -/
  | submit (operation : Op) (wakes : ℕ)
  | resume (consumer : ℕ)
  | resolve (call : ℕ) (outcome : R)
  | finish (consumer : ℕ)
  | beginStop
  /-- The end of `stop()`, once every consumer has returned. -/
  | stop

variable {Op R : Type}

/-- The operation a consumer has taken from the queue. -/
def Consumer.job? : Consumer Op → Option (Job Op)
  | .executing job _ => some job
  | _ => none

def Consumer.isWaiting : Consumer Op → Bool
  | .waiting => true
  | _ => false

def Consumer.hasReturned : Consumer Op → Bool
  | .returned => true
  | _ => false

/-- What a broadcast does to a consumer. -/
def Consumer.wake : Consumer Op → Consumer Op
  | .waiting => .scheduled
  | c => c

namespace OperationQueue

/-- The sizes of the pending operations, which hold as many units of `_bytes`. -/
def held (q : OperationQueue Op R) : ℕ := (q.pending.map fun job => q.config.size job.operation).sum

/-- The operations in the hands of the consumers. -/
def executing (q : OperationQueue Op R) : List (Job Op) := q.consumers.filterMap Consumer.job?

def start (q : OperationQueue Op R) : OperationQueue Op R :=
  if q.accepting || !q.consumers.isEmpty then q
  else { q with accepting := true, consumers := List.replicate q.config.limits.concurrency .scheduled }

/-- The error a submission is refused with, if it is refused. -/
def refuses (q : OperationQueue Op R) (operation : Op) : Option QueueError :=
  if !q.accepting then some .stopped
  else if q.config.limits.pending ≤ q.pending.length || decide (q.bytes < q.config.size operation) then
    some .overloaded
  else none

/-- `_ready.signal()`. -/
def signal (q : OperationQueue Op R) (wakes : ℕ) : Option (OperationQueue Op R) :=
  if q.consumers.any Consumer.isWaiting then
    match q.consumers[wakes]? with
    | some .waiting => some { q with consumers := q.consumers.set wakes .scheduled }
    | _ => none
  else some { q with signalled := q.signalled || q.config.remembers }

/-- The operation joins the queue and holds its units. -/
def push (q : OperationQueue Op R) (operation : Op) : OperationQueue Op R :=
  { q with
    bytes := q.bytes - q.config.size operation
    pending := q.pending ++ [⟨q.admitted.length, operation⟩]
    admitted := q.admitted ++ [operation] }

def submit (q : OperationQueue Op R) (operation : Op) (wakes : ℕ) : Option (OperationQueue Op R) :=
  match q.refuses operation with
  | some _ => some q
  | none => (q.push operation).signal wakes

/-- `co_await _ready.when()` with nothing pending: a remembered signal only leads back to the check. -/
def await (q : OperationQueue Op R) (i : ℕ) : OperationQueue Op R :=
  { q with signalled := false, consumers := q.consumers.set i .waiting }

/-- The front of the queue leaves it, gives its units back and is handed to the backend. -/
def execute (q : OperationQueue Op R) (i : ℕ) (job : Job Op) (rest : List (Job Op)) : OperationQueue Op R :=
  { q with
    pending := rest
    bytes := q.bytes + q.config.size job.operation
    calls := q.calls ++ [{ ticket := job.ticket, operation := job.operation }]
    consumers := q.consumers.set i (.executing job q.calls.length) }

/-- `consume` from the top of its loop to its next suspension. -/
def consume (q : OperationQueue Op R) (i : ℕ) : OperationQueue Op R :=
  if q.accepting then
    match q.pending with
    | [] => q.await i
    | job :: rest => q.execute i job rest
  else { q with consumers := q.consumers.set i .returned }

def resume (q : OperationQueue Op R) (i : ℕ) : Option (OperationQueue Op R) :=
  match q.consumers[i]? with
  | some .scheduled => some (q.consume i)
  | _ => none

/-- The future of a call of the backend resolves. -/
def resolve (q : OperationQueue Op R) (k : ℕ) (outcome : R) : Option (OperationQueue Op R) :=
  match q.calls[k]? with
  | some ⟨ticket, operation, none⟩ => some { q with calls := q.calls.set k ⟨ticket, operation, some outcome⟩ }
  | _ => none

/-- `execute` goes on with a resolved call: it completes the promise and the consumer loops. -/
def finish (q : OperationQueue Op R) (i : ℕ) : Option (OperationQueue Op R) :=
  match q.consumers[i]? with
  | some (.executing job k) =>
    match (q.calls[k]?).bind BackendCall.outcome with
    | some outcome =>
      some { q with
        completions := q.completions ++ [(job.ticket, .executed outcome)]
        consumers := q.consumers.set i .scheduled }
    | none => none
  | _ => none

def beginStop (q : OperationQueue Op R) : OperationQueue Op R :=
  { q with
    accepting := false
    bytes := q.bytes + q.held
    pending := []
    completions := q.completions ++ q.pending.map fun job => (job.ticket, .stopped)
    consumers := q.consumers.map .wake }

/-- `stop()` goes on when every consumer has returned. -/
def stop (q : OperationQueue Op R) : Option (OperationQueue Op R) :=
  if !q.accepting && q.consumers.all Consumer.hasReturned then some { q with consumers := [] } else none

def step (q : OperationQueue Op R) : QueueEvent Op R → Option (OperationQueue Op R)
  | .start => some q.start
  | .submit operation wakes => q.submit operation wakes
  | .resume i => q.resume i
  | .resolve k outcome => q.resolve k outcome
  | .finish i => q.finish i
  | .beginStop => some q.beginStop
  | .stop => q.stop

end OperationQueue

end Imm
