import Mathlib
import Percolator.Proofs.Verification.Session.Invariant

/-!
# Every session returns

A session that has not returned can always take a step: a coordinator that waits for room waits for
a worker that holds the queue, and this worker finds a message. Every step makes a session lighter,
so that each order of steps ends.

## Main results

* `Session.Invariant.exists_step` : no session is stuck.
* `Session.Invariant.weight_lt` : every step makes a session lighter.
* `Session.Invariant.returns` : every session returns what its workers came to.
-/

namespace Percolator

variable {α : Type}

namespace Session

variable {settings : PoolSettings} {e : Engine α} {ledger : Ledger α} {vs : List (Verdict α)}
  {c c' : Session e.State α}

/-- A worker that holds the queue can go on if there is a message, or none to come. -/
private theorem exists_step_of_held (hheld : ∃ hand ∈ c.hands, ¬hand.IsGone)
    (hqueue : c.queue ≠ [] ∨ c.phase.isClosed = true) : ∃ c', Step settings e c c' := by
  obtain ⟨hand, hhand, hgone⟩ := hheld
  obtain ⟨front, behind, hhands⟩ := List.append_of_mem hhand
  obtain ⟨queue', hand', h⟩ := Hand.Step.exists_step hgone hqueue
  exact ⟨_, .hand hhands h⟩

/-- A queue without room has a message, so that the workers can go on until there is room. -/
private theorem exists_step_of_full (hcapacity : 0 < settings.capacity)
    (hheld : ∃ hand ∈ c.hands, ¬hand.IsGone) (hfull : ¬c.queue.length < settings.capacity) :
    ∃ c', Step settings e c c' := by
  refine exists_step_of_held hheld (.inl fun hnil => hfull ?_)
  rw [hnil]
  exact hcapacity

/-- A worker holds the queue, or all have left. -/
private theorem held_or_gone (c : Session e.State α) :
    (∃ hand ∈ c.hands, ¬hand.IsGone) ∨ ∀ hand ∈ c.hands, hand.IsGone := by
  by_cases hheld : ∃ hand ∈ c.hands, ¬hand.IsGone
  · exact .inl hheld
  · exact .inr fun hand hhand => Classical.byContradiction fun hnot => hheld ⟨hand, hhand, hnot⟩

/-- No session is stuck before it has returned. -/
theorem Invariant.exists_step (hcapacity : 0 < settings.capacity)
    (hinv : Invariant settings e ledger vs c) :
    (∃ result, c.phase = .returned result) ∨ ∃ c', Step settings e c c' := by
  have hphase := hinv.phase
  cases h : c.phase with
  | fresh rest =>
    cases rest with
    | nil => exact .inr ⟨_, .idle h⟩
    | cons v rest => exact .inr ⟨_, .start h⟩
  | offering rest =>
    cases rest with
    | nil => exact .inr ⟨_, .finish h⟩
    | cons v rest =>
      rcases c.held_or_gone with hheld | hgone
      · by_cases hroom : c.queue.length < settings.capacity
        · exact .inr ⟨_, .send h hroom hheld⟩
        · exact .inr (exists_step_of_full hcapacity hheld hroom)
      · exact .inr ⟨_, .refuse h hgone⟩
  | stopping left =>
    cases left with
    | zero => exact .inr ⟨_, .close h⟩
    | succ left =>
      rcases c.held_or_gone with hheld | hgone
      · by_cases hroom : c.queue.length < settings.capacity
        · exact .inr ⟨_, .sendStop h hroom hheld⟩
        · exact .inr (exists_step_of_full hcapacity hheld hroom)
      · exact .inr ⟨_, .refuseStop h hgone⟩
  | joining next failure refused =>
    simp only [h] at hphase
    rcases c.held_or_gone with hheld | hgone
    · exact .inr (exists_step_of_held hheld (.inr (congrArg Phase.isClosed h)))
    · rcases Nat.lt_or_eq_of_le hphase.next_le with hlt | rfl
      · have hhand := List.getElem?_eq_getElem hlt
        obtain ⟨⟨fault⟩ | ⟨l⟩, hstatus⟩ := hgone _ (List.getElem_mem hlt)
        · exact .inr ⟨_, .fail h hhand hstatus⟩
        · exact .inr ⟨_, .merge h hhand hstatus⟩
      · exact .inr ⟨_, .answer h⟩
  | returned result => exact .inl ⟨result, rfl⟩

end Session

/-! ### Every session ends -/

/-- How far a worker that holds a verdict or none is from having left. -/
def Status.weight {σ : Type} : Status σ α → Nat
  | .busy _ _ => 3
  | .waiting _ => 2
  | .leaving _ => 1
  | .gone _ => 0

/-- How much a coordinator of `threads` workers has left to do. -/
def Phase.weight (threads : Nat) : Phase α → Nat
  | .fresh rest => 3 * rest.length + 6 * threads + 4
  | .offering rest => 3 * rest.length + 4 * threads + 3
  | .stopping left => 3 * left + threads + 2
  | .joining next _ _ => threads - next + 1
  | .returned _ => 0

theorem Hand.Step.weight_lt {e : Engine α} {closed : Bool} {queue queue' : List (Message α)}
    {hand hand' : Hand e.State α} (h : Hand.Step e closed queue hand queue' hand') :
    2 * queue'.length + hand'.status.weight < 2 * queue.length + hand.status.weight := by
  cases h <;> simp only [List.length_cons, List.length_nil, Status.weight] <;> omega

namespace Session

variable {settings : PoolSettings} {e : Engine α} {ledger : Ledger α} {vs : List (Verdict α)}
  {c c' : Session e.State α}

/-- How much is left to do: a step of the coordinator or of a worker makes a session lighter. A
message is heavy enough to pay for the worker that takes it, and what the coordinator has left to do
is heavy enough to pay for the messages that it sends. -/
def weight (settings : PoolSettings) (c : Session e.State α) : Nat :=
  c.phase.weight settings.threads + 2 * c.queue.length + (c.hands.map fun h => h.status.weight).sum

/-- Every step makes a session lighter. -/
theorem Invariant.weight_lt (hinv : Invariant settings e ledger vs c) (h : Step settings e c c') :
    c'.weight settings < c.weight settings := by
  have hphase := hinv.phase
  cases h with
  | hand hhands h =>
    have hlt := h.weight_lt
    simp only [weight, hhands, List.map_append, List.map_cons, List.sum_append, List.sum_cons]
    omega
  | start h =>
    simp only [h] at hphase
    simp only [weight, h, hphase.hands, Phase.weight, List.map_replicate, List.sum_replicate_nat,
      Status.weight, List.length_cons, List.map_nil, List.sum_nil]
    omega
  | merge h hhand hgone =>
    simp only [h] at hphase
    have hlength := hphase.length
    obtain ⟨hlt, -⟩ := List.getElem?_eq_some_iff.mp hhand
    simp only [weight, h, Phase.weight]
    omega
  | fail h hhand hgone =>
    simp only [h] at hphase
    have hlength := hphase.length
    obtain ⟨hlt, -⟩ := List.getElem?_eq_some_iff.mp hhand
    simp only [weight, h, Phase.weight]
    omega
  | finish h =>
    simp only [h] at hphase
    have hlength := hphase.length
    simp only [weight, h, Phase.weight, List.length_nil]
    omega
  | idle h | send h _ _ | refuse h _ | sendStop h _ _ | refuseStop h _ | close h | answer h =>
    simp only [weight, h, Phase.weight, List.length_append, List.length_cons, List.length_nil]
    omega

/-- Every session returns, with what its workers came to. -/
theorem Invariant.returns {post : Session e.State α → Prop} (hthreads : 0 < settings.threads)
    (hcapacity : 0 < settings.capacity)
    (hpost : ∀ c' result, c'.phase = .returned result →
      Outcome e ledger vs c'.answers result → post c')
    (hinv : Invariant settings e ledger vs c) : Returns settings e post c := by
  induction hweight : c.weight settings using Nat.strongRecOn generalizing c with
  | ind n ih =>
    rcases hinv.exists_step hcapacity with ⟨result, h⟩ | hstep
    · have hphase := hinv.phase
      simp only [h] at hphase
      exact .now h (hpost c result h hphase.outcome)
    · refine .later hstep fun c' h => ?_
      exact ih _ (hweight ▸ hinv.weight_lt h) (hinv.step hthreads h) rfl

end Session

end Percolator
