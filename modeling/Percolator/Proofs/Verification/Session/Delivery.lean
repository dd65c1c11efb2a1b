import Percolator.Proofs.Verification.Session.Pooled
import Percolator.Proofs.Verification.Session.Progress
import Percolator.Verification.Strategy

/-!
# Verdicts reach the workers

A coordinator that has joined its workers has outlived them. As no verdict stands behind a message
to stop, a worker that was told to stop left no verdict in the queue, so that each verdict that was
sent was taken by one worker. Verdicts are left in the queue only if every worker failed.

Where a worker fails is up to the verdicts: any of them may be fatal, so that the sessions with all
lists of verdicts are those in which workers stop at any verdict.

## Main definitions

* `Session.HasJoined` : all workers are joined.

## Main results

* `Session.proceeds_and_delivers` : no session is stuck, and no verdict is lost on the way to a
  worker.
-/

namespace Percolator

variable {α : Type}

/-- The worker stopped by itself and left the queue. -/
def Hand.HasFailed {σ : Type} (hand : Hand σ α) : Prop :=
  ∃ fault, hand.status = .gone (.error fault)

namespace Session

/-- The coordinator has joined all workers. -/
def HasJoined {σ : Type} (c : Session σ α) : Prop :=
  (∃ failure refused, c.phase = .joining c.hands.length failure refused) ∨
    ∃ result, c.phase = .returned result

variable {settings : PoolSettings} {e : Engine α} {ledger : Ledger α} {vs : List (Verdict α)}
  {c : Session e.State α}

/-- Workers that are joined have left. -/
private theorem Invariant.gone_of_hasJoined (hinv : Invariant settings e ledger vs c)
    (h : c.HasJoined) : ∀ hand ∈ c.hands, hand.IsGone := by
  have hphase := hinv.phase
  rcases h with ⟨failure, refused, h⟩ | ⟨result, h⟩
  · simp only [h] at hphase
    have hgone := hphase.gone
    rwa [List.take_length] at hgone
  · simp only [h] at hphase
    exact hphase.gone

/-- Workers that have left took all verdicts between them, or all of them failed. -/
private theorem Invariant.taken_or_failed (hinv : Invariant settings e ledger vs c)
    (hgone : ∀ hand ∈ c.hands, hand.IsGone) :
    c.sent.Perm (c.hands.flatMap Hand.taken) ∨ ∀ hand ∈ c.hands, hand.HasFailed := by
  by_cases hdone : ∃ hand ∈ c.hands, hand.IsDone
  · have hspread := hinv.spread
    rw [hinv.drained hdone, List.append_nil] at hspread
    exact .inl hspread
  · refine .inr fun hand hhand => ?_
    obtain ⟨fault | l, hstatus⟩ := hgone hand hhand
    · exact ⟨fault, hstatus⟩
    · exact absurd ⟨hand, hhand, l, .inr hstatus⟩ hdone

/-- In whatever order the coordinator and the workers have taken their steps, and wherever workers
have stopped, a session that has not returned can take another step. Once all workers are joined,
all of them have left, and each verdict that was sent was taken by one worker, unless every worker
stopped by itself. -/
theorem proceeds_and_delivers (hthreads : 0 < settings.threads) (hcapacity : 0 < settings.capacity)
    (h : Steps settings e (begin e.State ledger vs) c) :
    ((∃ result, c.phase = .returned result) ∨ ∃ c', Step settings e c c') ∧
      (c.HasJoined → (∀ hand ∈ c.hands, hand.IsGone) ∧
        (c.sent.Perm (c.hands.flatMap Hand.taken) ∨ ∀ hand ∈ c.hands, hand.HasFailed)) := by
  have hinv : Invariant settings e ledger vs c := Invariant.begin.steps hthreads h
  refine ⟨hinv.exists_step hcapacity, fun hjoined => ?_⟩
  have hgone := hinv.gone_of_hasJoined hjoined
  exact ⟨hgone, hinv.taken_or_failed hgone⟩

/-- A verdict that kills the worker that takes it, and two others. -/
def oneDeadly : List (Verdict Unit) :=
  [⟨"q", .error .crash, 0⟩, ⟨"r", .ok (some ()), 0⟩, ⟨"s", .ok none, 0⟩]

/-- Two workers at a queue with room for one message, one of which dies. -/
theorem proceeds_and_delivers_oneDeadly : 0 < (⟨2, 1⟩ : PoolSettings).threads ∧
    0 < (⟨2, 1⟩ : PoolSettings).capacity ∧
    ∃ c, Steps ⟨2, 1⟩ (.direct Strategy.simple.combine)
        (begin (Ledger Unit) (({} : Ledger Unit).limit 0) oneDeadly) c ∧
      c.HasJoined ∧ (∀ hand ∈ c.hands, hand.IsGone) ∧
        (c.sent.Perm (c.hands.flatMap Hand.taken) ∨ ∀ hand ∈ c.hands, hand.HasFailed) := by
  have hthreads : 0 < (⟨2, 1⟩ : PoolSettings).threads := by decide
  have hcapacity : 0 < (⟨2, 1⟩ : PoolSettings).capacity := by decide
  obtain ⟨c, hsteps, hreturned⟩ := @exists_steps_pooled Unit ⟨2, 1⟩
    (.direct Strategy.simple.combine) 0 oneDeadly hthreads hcapacity
  have hjoined : c.HasJoined := .inr ⟨_, hreturned⟩
  exact ⟨hthreads, hcapacity, c, hsteps, hjoined,
    (proceeds_and_delivers hthreads hcapacity hsteps).2 hjoined⟩

end Session

end Percolator
