import Percolator.Verification.Engine
import Percolator.Verification.Settings

/-!
# Pools of workers

In a pool, workers take messages from a queue, first in, first out. A worker that takes a verdict
enters it into a run of its own, and stops at a fault that ends a run. A worker that takes the
message to stop hands in the ledger of its run. Which worker takes the next message is left open:
`Pool.step?` is one step of one worker, and every sequence of such steps may happen.

The queue has room for a limited number of messages, and the one who fills it waits for room. When
no worker is left, nothing can be sent.

`Engine.pooled` settles which worker takes the next message: the first one that still runs, and it
does so when there is no room in the queue, or when the run ends.
-/

namespace Percolator

/-- A message to the workers of a pool. -/
inductive Message (α : Type) where
  | work (verdict : Verdict α)
  | stop

/-- A worker of a pool. -/
inductive Worker (σ α : Type) where
  | running (state : σ)
  /-- The worker was told to stop. -/
  | done (ledger : Ledger α)
  /-- The worker stopped by itself. -/
  | failed (fault : Fault)

/-- The worker takes messages. -/
def Worker.isRunning {σ α : Type} : Worker σ α → Bool
  | .running _ => true
  | _ => false

/-- Workers with their queue. -/
structure Pool (σ α : Type) where
  /-- How many messages may wait in the queue. -/
  capacity : Nat
  /-- The messages that no worker has taken, the oldest one first. -/
  queue : List (Message α)
  workers : List (Worker σ α)

namespace Pool

variable {α : Type} {σ : Type}

/-- What a worker becomes when it takes a message. -/
def receive (e : Engine α) (s : e.State) : Message α → Worker e.State α
  | .work v =>
    match e.run v s with
    | (.ok (), s) => .running s
    | (.error fault, _) => .failed fault
  | .stop => .done (e.ledger s)

/-- A worker takes the oldest message, if it runs and there is one. -/
def step? (e : Engine α) (i : Nat) (p : Pool e.State α) : Option (Pool e.State α) :=
  match p.workers[i]?, p.queue with
  | some (.running s), m :: rest =>
    some { p with queue := rest, workers := p.workers.set i (receive e s m) }
  | _, _ => none

/-- No worker is left that takes messages. -/
def isDead (p : Pool σ α) : Bool := p.workers.all (!·.isRunning)

/-- There is room for another message. A worker that waits takes a message for which the queue has
no room. -/
def hasRoom (p : Pool σ α) : Bool := p.queue.isEmpty || p.queue.length < p.capacity

/-- Puts a message into the queue, if there is room and a worker is left. -/
def send? (m : Message α) (p : Pool σ α) : Option (Pool σ α) :=
  if !p.isDead && p.hasRoom then some { p with queue := p.queue ++ [m] } else none

/-- A pool that begins. -/
def fresh (settings : PoolSettings) (s : σ) : Pool σ α :=
  { capacity := settings.capacity, queue := [],
    workers := .replicate settings.threads (.running s) }

/-- The first worker that runs takes the oldest message. -/
def stepFirst (e : Engine α) (p : Pool e.State α) : Pool e.State α :=
  ((p.workers.findIdx? Worker.isRunning).bind (step? e · p)).getD p

/-- Sends a message as soon as there is room, unless no worker is left. -/
def sendSoon? (e : Engine α) (m : Message α) (p : Pool e.State α) : Option (Pool e.State α) :=
  send? m (if p.hasRoom then p else stepFirst e p)

/-- Tells each worker to stop, as long as one is left. -/
def sendStops (e : Engine α) : Nat → Pool e.State α → Pool e.State α
  | 0, p => p
  | n + 1, p =>
    match sendSoon? e .stop p with
    | some p => sendStops e n p
    | none => if p.hasRoom then p else stepFirst e p

/-- Lets workers take messages, at most `n`. -/
def drain (e : Engine α) : Nat → Pool e.State α → Pool e.State α
  | 0, p => p
  | n + 1, p => drain e n (stepFirst e p)

/-- Why a worker failed, where `i` is its number. -/
def cause (i : Nat) (fault : Fault) : Error := fault.toError (.workerDied i)

/-- Merges the ledgers of workers into a ledger, where `i` is the number of the first one. Answers
with the cause of the first failure. -/
def collect (combine : Match α → Match α → Match α) (l : Ledger α) (i : Nat) :
    List (Worker σ α) → Option Error × Ledger α
  | [] => (none, l)
  | .done other :: rest => collect combine (l.merge combine other) (i + 1) rest
  | .failed fault :: rest =>
    let (_, l) := collect combine l (i + 1) rest
    (some (cause i fault), l)
  | .running _ :: rest => collect combine l (i + 1) rest

/-- Stops the workers and merges their ledgers into a ledger. -/
def join (e : Engine α) (l : Ledger α) (p : Pool e.State α) : Option Error × Ledger α :=
  let stopping := sendStops e p.workers.length p
  collect e.combine l 0 (drain e stopping.queue.length stopping).workers

end Pool

/-- The state of a run with a pool, which begins with the first verdict. -/
structure PooledRun (σ α : Type) where
  ledger : Ledger α := {}
  pool : Option (Pool σ α) := none

namespace Engine

variable {α : Type}

/-- The engine that leaves the verdicts to a pool of workers. The workers log verifications above
the limit that is set when the pool begins. When no worker is left, the pool ends, and the next
verdict begins another one. -/
def pooled (settings : PoolSettings) (inner : Engine α) : Engine α where
  State := PooledRun inner.State α
  combine := inner.combine
  start := {}
  ledger s := s.ledger
  modify f s := { s with ledger := f s.ledger }
  accept v s :=
    let pool := s.pool.getD (.fresh settings (inner.startWith s.ledger.slowLimit))
    match pool.sendSoon? inner (.work v) with
    | some pool => (.ok none, { s with pool := some pool })
    | none =>
      let (failure, ledger) := pool.join inner s.ledger
      (.error (.error (failure.getD .workersGone)), { ledger })
  finish s :=
    match s.pool with
    | none => .ok s.ledger
    | some pool =>
      match pool.join inner s.ledger with
      | (none, ledger) => .ok ledger
      | (some error, _) => .error (.error error)

end Engine

end Percolator
