import Percolator.Proofs.Verification.Runs

/-!
# Sessions of a pool of workers

In a session, a coordinator offers verdicts to workers, one after the other, and then stops the
workers and merges their ledgers. It gives up at the first verdict that is not accepted. The
coordinator and each of the workers take their steps in any order: the coordinator sends when there
is room in the queue, is refused when all workers have left, and joins workers that have left; a
worker takes a message, enters the verdict that it took, stops, and leaves the queue.

## Main definitions

* `Session` : the coordinator, the queue and the workers.
* `Hand.Step`, `Session.Step` : one step of a worker, and one step of a session.
* `Session.Returns` : all orders of steps end, in a session with some property.
* `Hand.Sound` : a worker is where a run of its own brings it.
-/

namespace Percolator

/-- What a worker is at. -/
inductive Status (σ α : Type) where
  /-- It waits for a message. -/
  | waiting (state : σ)
  /-- It took a verdict and has not entered it. -/
  | busy (state : σ) (verdict : Verdict α)
  /-- It stopped, and still holds the queue. -/
  | leaving (outcome : Except Fault (Ledger α))
  /-- It left the queue. -/
  | gone (outcome : Except Fault (Ledger α))

/-- A worker in a session. -/
structure Hand (σ α : Type) where
  /-- The verdicts that it took from the queue, the first one in front. -/
  taken : List (Verdict α) := []
  status : Status σ α

/-- What the coordinator is at. -/
inductive Phase (α : Type) where
  /-- No verdict was offered, and there are no workers. -/
  | fresh (rest : List (Verdict α))
  /-- Verdicts are offered to the workers. -/
  | offering (rest : List (Verdict α))
  /-- All verdicts are sent, and so many messages to stop are left to send. -/
  | stopping (left : Nat)
  /-- The worker with the number `next` is joined. The run was given up if a verdict was refused. -/
  | joining (next : Nat) (failure : Option Error) (refused : Bool)
  | returned (result : Except Fault (Ledger α))

/-- A coordinator with its workers. -/
structure Session (σ α : Type) where
  phase : Phase α
  /-- The ledger of the coordinator. -/
  ledger : Ledger α
  /-- The messages that no worker has taken, the oldest one first. -/
  queue : List (Message α) := []
  hands : List (Hand σ α) := []
  /-- The verdicts that were put into the queue. -/
  sent : List (Verdict α) := []
  /-- What the coordinator answered to the verdicts that were offered. -/
  answers : List (Except Fault (Option (Match α))) := []

variable {α : Type}

namespace Hand

variable {σ : Type}

/-- The worker has left the queue. -/
def IsGone (hand : Hand σ α) : Prop := ∃ outcome, hand.status = .gone outcome

/-- The worker stopped because it was told to. -/
def IsDone (hand : Hand σ α) : Prop :=
  ∃ ledger, hand.status = .leaving (.ok ledger) ∨ hand.status = .gone (.ok ledger)

/-- The worker without its history. -/
def worker (hand : Hand σ α) : Worker σ α :=
  match hand.status with
  | .waiting s | .busy s _ => .running s
  | .leaving (.ok ledger) | .gone (.ok ledger) => .done ledger
  | .leaving (.error fault) | .gone (.error fault) => .failed fault

/-- One step of a worker at a queue. The queue is closed when nothing more will be sent. -/
inductive Step (e : Engine α) (closed : Bool) :
    List (Message α) → Hand e.State α → List (Message α) → Hand e.State α → Prop
  | take {queue taken s v} :
    Step e closed (.work v :: queue) ⟨taken, .waiting s⟩ queue ⟨taken ++ [v], .busy s v⟩
  | stop {queue taken s} :
    Step e closed (.stop :: queue) ⟨taken, .waiting s⟩ queue ⟨taken, .leaving (.ok (e.ledger s))⟩
  | close {taken s} (h : closed = true) :
    Step e closed [] ⟨taken, .waiting s⟩ [] ⟨taken, .leaving (.ok (e.ledger s))⟩
  | enter {queue taken s v s'} (h : e.run v s = (.ok (), s')) :
    Step e closed queue ⟨taken, .busy s v⟩ queue ⟨taken, .waiting s'⟩
  | fail {queue taken s v fault s'} (h : e.run v s = (.error fault, s')) :
    Step e closed queue ⟨taken, .busy s v⟩ queue ⟨taken, .leaving (.error fault)⟩
  | leave {queue taken outcome} :
    Step e closed queue ⟨taken, .leaving outcome⟩ queue ⟨taken, .gone outcome⟩

end Hand

/-- Nothing more will be sent. -/
def Phase.isClosed : Phase α → Bool
  | .joining .. | .returned _ => true
  | _ => false

/-- What a coordinator returns that has joined all workers. -/
def Phase.result (ledger : Ledger α) (failure : Option Error) (refused : Bool) :
    Except Fault (Ledger α) :=
  match failure, refused with
  | none, false => .ok ledger
  | failure, _ => .error (.error (failure.getD .workersGone))

namespace Session

/-- A session that begins. -/
def begin (σ : Type) (ledger : Ledger α) (vs : List (Verdict α)) : Session σ α where
  phase := .fresh vs
  ledger := ledger

/-- One step of the coordinator or of a worker. The coordinator waits until there is room in the
queue, and is refused if no worker holds the queue. -/
inductive Step (settings : PoolSettings) (e : Engine α) (c : Session e.State α) :
    Session e.State α → Prop
  | hand {front hand behind queue hand'} (hhands : c.hands = front ++ hand :: behind)
    (h : Hand.Step e c.phase.isClosed c.queue hand queue hand') :
    Step settings e c { c with queue := queue, hands := front ++ hand' :: behind }
  | start {v rest} (h : c.phase = .fresh (v :: rest)) :
    Step settings e c { c with
      phase := .offering (v :: rest)
      hands := .replicate settings.threads
        { status := .waiting (e.startWith c.ledger.slowLimit) } }
  | idle (h : c.phase = .fresh []) :
    Step settings e c { c with phase := .returned (.ok c.ledger) }
  | send {v rest} (h : c.phase = .offering (v :: rest))
    (hroom : c.queue.length < settings.capacity) (hheld : ∃ hand ∈ c.hands, ¬hand.IsGone) :
    Step settings e c { c with
      phase := .offering rest
      queue := c.queue ++ [.work v]
      sent := c.sent ++ [v]
      answers := c.answers ++ [.ok none] }
  | refuse {v rest} (h : c.phase = .offering (v :: rest)) (hgone : ∀ hand ∈ c.hands, hand.IsGone) :
    Step settings e c { c with phase := .joining 0 none true }
  | finish (h : c.phase = .offering []) :
    Step settings e c { c with phase := .stopping c.hands.length }
  | sendStop {left} (h : c.phase = .stopping (left + 1))
    (hroom : c.queue.length < settings.capacity) (hheld : ∃ hand ∈ c.hands, ¬hand.IsGone) :
    Step settings e c { c with phase := .stopping left, queue := c.queue ++ [.stop] }
  | refuseStop {left} (h : c.phase = .stopping (left + 1))
    (hgone : ∀ hand ∈ c.hands, hand.IsGone) :
    Step settings e c { c with phase := .joining 0 none false }
  | close (h : c.phase = .stopping 0) :
    Step settings e c { c with phase := .joining 0 none false }
  | merge {next failure refused hand ledger} (h : c.phase = .joining next failure refused)
    (hhand : c.hands[next]? = some hand) (hgone : hand.status = .gone (.ok ledger)) :
    Step settings e c { c with
      phase := .joining (next + 1) failure refused
      ledger := c.ledger.merge e.combine ledger }
  | fail {next failure refused hand fault} (h : c.phase = .joining next failure refused)
    (hhand : c.hands[next]? = some hand) (hgone : hand.status = .gone (.error fault)) :
    Step settings e c { c with
      phase := .joining (next + 1) (failure.or (some (Pool.cause next fault))) refused }
  | answer {failure refused} (h : c.phase = .joining c.hands.length failure refused) :
    Step settings e c { c with
      phase := .returned (Phase.result c.ledger failure refused)
      answers := if refused
        then c.answers ++ [.error (.error (failure.getD .workersGone))] else c.answers }

/-- All orders of steps end, in a session that has returned and has the property. -/
inductive Returns (settings : PoolSettings) (e : Engine α) (post : Session e.State α → Prop) :
    Session e.State α → Prop
  | now {c result} (h : c.phase = .returned result) (hpost : post c) : Returns settings e post c
  | later {c} (hstep : ∃ c', Step settings e c c')
    (hsteps : ∀ c', Step settings e c c' → Returns settings e post c') : Returns settings e post c

end Session

/-! ### Steps of a worker -/

/-- The verdict that a message carries. -/
def Message.verdict? : Message α → Option (Verdict α)
  | .work v => some v
  | .stop => none

/-- The verdicts in a queue. -/
abbrev works (queue : List (Message α)) : List (Verdict α) := queue.filterMap Message.verdict?

theorem works_eq_nil {queue : List (Message α)} (h : ∀ m ∈ queue, m = .stop) :
    works queue = [] := by
  refine List.filterMap_eq_nil_iff.mpr fun m hm => ?_
  rw [h m hm]
  rfl

namespace Hand

variable {e : Engine α} {slowLimit : Nat} {closed : Bool} {queue queue' : List (Message α)}
  {hand hand' : Hand e.State α}

/-- The worker is where a run of its own brings it with the verdicts that it took. -/
def Sound (e : Engine α) (slowLimit : Nat) (hand : Hand e.State α) : Prop :=
  match hand.status with
  | .waiting s => e.runAll (e.startWith slowLimit) hand.taken = .ok s
  | .busy s v => ∃ front, hand.taken = front ++ [v] ∧
      e.runAll (e.startWith slowLimit) front = .ok s
  | .leaving outcome | .gone outcome => Package.ledgerOf e slowLimit hand.taken = outcome

/-- Only a worker that was told to stop hands in a ledger. -/
theorem ledger?_worker_eq_none (h : ¬hand.IsDone) : hand.worker.ledger? = none := by
  obtain ⟨taken, _ | _ | ⟨_ | l⟩ | ⟨_ | l⟩⟩ := hand
  · rfl
  · rfl
  · rfl
  · exact absurd ⟨l, .inl rfl⟩ h
  · rfl
  · exact absurd ⟨l, .inr rfl⟩ h

/-- A worker that failed is where a run of its own failed. -/
theorem Sound.ledgerOf_of_failed {fault : Fault} (h : hand.Sound e slowLimit)
    (hworker : hand.worker = .failed fault) :
    Package.ledgerOf e slowLimit hand.taken = .error fault := by
  obtain ⟨taken, _ | _ | ⟨_ | _⟩ | ⟨_ | _⟩⟩ := hand
  · simp only [worker, reduceCtorEq] at hworker
  · simp only [worker, reduceCtorEq] at hworker
  · exact Worker.failed.inj hworker ▸ h
  · simp only [worker, reduceCtorEq] at hworker
  · exact Worker.failed.inj hworker ▸ h
  · simp only [worker, reduceCtorEq] at hworker

namespace Step

theorem sound (h : Step e closed queue hand queue' hand') (hsound : hand.Sound e slowLimit) :
    hand'.Sound e slowLimit := by
  cases h with
  | take => exact ⟨_, rfl, hsound⟩
  | stop => exact Package.ledgerOf_of_runAll hsound
  | close _ => exact Package.ledgerOf_of_runAll hsound
  | enter h =>
    obtain ⟨front, htaken, hrun⟩ := hsound
    simp only at htaken
    subst htaken
    simp only [Sound, Engine.runAll_append hrun, Engine.runAll, h]
  | fail h =>
    obtain ⟨front, htaken, hrun⟩ := hsound
    simp only at htaken
    subst htaken
    simp only [Sound, Package.ledgerOf, Engine.runAll_append hrun, Engine.runAll, h, Except.map]
  | leave => exact hsound

theorem not_isGone (h : Step e closed queue hand queue' hand') : ¬hand.IsGone := by
  rintro ⟨outcome, hgone⟩
  cases h <;> simp only [reduceCtorEq] at hgone

/-- A verdict is either in the queue or taken. -/
theorem taken_append (h : Step e closed queue hand queue' hand') :
    hand.taken ++ works queue = hand'.taken ++ works queue' := by
  cases h with
  | take => rw [List.append_assoc]; rfl
  | _ => rfl

theorem isSuffix (h : Step e closed queue hand queue' hand') : queue' <:+ queue := by
  cases h with
  | take => exact List.suffix_cons _ _
  | stop => exact List.suffix_cons _ _
  | _ => exact List.suffix_refl _

/-- A worker is told to stop by a message, or by a queue that is closed. -/
theorem isDone (h : Step e closed queue hand queue' hand') (hdone : hand'.IsDone) :
    hand.IsDone ∨ queue = .stop :: queue' ∨ closed = true ∧ queue' = [] := by
  obtain ⟨ledger, hstatus⟩ := hdone
  cases h with
  | take => simp only [reduceCtorEq, or_self] at hstatus
  | stop => exact .inr (.inl rfl)
  | close h => exact .inr (.inr ⟨h, rfl⟩)
  | enter => simp only [reduceCtorEq, or_self] at hstatus
  | fail => simp only [Status.leaving.injEq, reduceCtorEq, or_self] at hstatus
  | leave =>
    simp only [reduceCtorEq, Status.gone.injEq, false_or] at hstatus
    exact .inl ⟨ledger, .inl (congrArg Status.leaving hstatus)⟩

/-- A worker that waits finds a message or a closed queue, and any other one goes on. -/
theorem exists_step (hgone : ¬hand.IsGone) (hqueue : queue ≠ [] ∨ closed = true) :
    ∃ queue' hand', Step e closed queue hand queue' hand' := by
  obtain ⟨taken, status⟩ := hand
  cases status with
  | waiting s =>
    cases queue with
    | nil => exact ⟨_, _, .close (hqueue.resolve_left (fun hne => hne rfl))⟩
    | cons m rest =>
      cases m with
      | work v => exact ⟨_, _, .take⟩
      | stop => exact ⟨_, _, .stop⟩
  | busy s v =>
    rcases hrun : e.run v s with ⟨_ | _, s'⟩
    · exact ⟨_, _, .fail hrun⟩
    · exact ⟨_, _, .enter hrun⟩
  | leaving outcome => exact ⟨_, _, .leave⟩
  | gone outcome => exact absurd ⟨outcome, rfl⟩ hgone

end Step

end Hand

end Percolator
