import Mathlib.Logic.Relation
import Percolator.Proofs.Verification.Session.Invariant

/-!
# The pooled engine as a session

The pooled engine settles in which order the coordinator and the workers take their steps: the first
worker that runs takes a message when there is no room in the queue, enters it and leaves at once if
it stops, and all messages are taken before the workers are joined. What it comes to is therefore
what a session returns.

## Main definitions

* `Session.Mirrors` : a session between the steps of the pooled engine.

## Main results

* `Session.exists_steps_pooled` : the run of the pooled engine is a session.
-/

namespace Percolator

variable {α : Type}

/-! ### Pools -/

namespace Pool

variable {e : Engine α} {p : Pool e.State α}

private theorem exists_append_of_getElem? {β : Type} {l : List β} {i : Nat} {a : β}
    (h : l[i]? = some a) :
    ∃ front behind, l = front ++ a :: behind ∧ ∀ b, l.set i b = front ++ b :: behind := by
  induction l generalizing i with
  | nil => simp only [List.getElem?_nil, reduceCtorEq] at h
  | cons b rest ih =>
    cases i with
    | zero =>
      obtain rfl := Option.some.inj h
      exact ⟨[], rest, rfl, fun _ => rfl⟩
    | succ i =>
      obtain ⟨front, behind, hrest, hset⟩ := ih h
      exact ⟨b :: front, behind, congrArg (b :: ·) hrest, fun c => congrArg (b :: ·) (hset c)⟩

/-- The first worker that runs takes a message, unless there is no such worker or no message. -/
private theorem stepFirst_cases (e : Engine α) (p : Pool e.State α) :
    (p.stepFirst e = p ∧ (p.isDead = true ∨ p.queue = [])) ∨
      ∃ front s behind m rest, p.workers = front ++ .running s :: behind ∧ p.queue = m :: rest ∧
        p.stepFirst e =
          { p with queue := rest, workers := front ++ receive e s m :: behind } := by
  rw [stepFirst]
  cases hfind : p.workers.findIdx? Worker.isRunning with
  | none =>
    refine .inl ⟨rfl, .inl ?_⟩
    rw [isDead, List.all_eq_true]
    intro w hw
    rw [List.findIdx?_eq_none_iff.mp hfind w hw]
    rfl
  | some i =>
    rw [List.findIdx?_eq_some_iff_getElem] at hfind
    obtain ⟨hlt, hrunning, -⟩ := hfind
    have hget := List.getElem?_eq_getElem hlt
    rw [Option.bind_some, step?, hget]
    cases hw : p.workers[i] with
    | done ledger => simp only [hw, Worker.isRunning, Bool.false_eq_true] at hrunning
    | failed fault => simp only [hw, Worker.isRunning, Bool.false_eq_true] at hrunning
    | running s =>
      cases hqueue : p.queue with
      | nil => exact .inl ⟨rfl, .inr rfl⟩
      | cons m rest =>
        obtain ⟨front, behind, hworkers, hset⟩ := exists_append_of_getElem? (hw ▸ hget)
        refine .inr ⟨front, s, behind, m, rest, hworkers, rfl, ?_⟩
        rw [Option.getD_some, hset]

/-- How many workers take messages. -/
def running {σ : Type} (p : Pool σ α) : Nat := p.workers.countP Worker.isRunning

/-- How many messages to stop wait in the queue. -/
def stops {σ : Type} (p : Pool σ α) : Nat := p.queue.countP fun m => m matches .stop

private theorem running_eq_zero_iff : p.running = 0 ↔ p.isDead = true := by
  rw [running, List.countP_eq_zero, isDead, List.all_eq_true]
  simp only [Bool.not_eq_true, Bool.not_eq_eq_eq_not, Bool.not_true]

/-- A message to stop that is taken stops a worker. -/
private theorem running_stepFirst_le {n : Nat} (h : p.running ≤ p.stops + n) :
    (p.stepFirst e).running ≤ (p.stepFirst e).stops + n := by
  rcases stepFirst_cases e p with ⟨heq, -⟩ | ⟨front, s, behind, m, rest, hworkers, hqueue, heq⟩
  · rwa [heq]
  · rw [heq]
    simp only [running, stops, hworkers, hqueue, List.countP_append, List.countP_cons] at h ⊢
    cases m with
    | work v =>
      cases receive e s (.work v) <;>
        simp only [Worker.isRunning, if_true, Bool.false_eq_true, if_false] at h ⊢ <;> omega
    | stop =>
      simp only [receive, Worker.isRunning, if_true, Bool.false_eq_true, if_false] at h ⊢
      omega

/-- The queue has no more messages than there is room for. -/
structure Bounded {σ : Type} (settings : PoolSettings) (p : Pool σ α) : Prop where
  capacity : p.capacity = settings.capacity
  length_le : p.queue.length ≤ settings.capacity

/-- The pool that the next message is put into. -/
def makeRoom (e : Engine α) (p : Pool e.State α) : Pool e.State α :=
  if p.hasRoom then p else p.stepFirst e

variable {settings : PoolSettings}

theorem Bounded.stepFirst (h : Bounded settings p) : Bounded settings (p.stepFirst e) := by
  rcases stepFirst_cases e p with ⟨heq, -⟩ | ⟨_, _, _, _, rest, -, hqueue, heq⟩
  · rwa [heq]
  · have hle := h.length_le
    rw [hqueue, List.length_cons] at hle
    rw [heq]
    exact ⟨h.capacity, Nat.le_of_succ_le hle⟩

private theorem Bounded.makeRoom (h : Bounded settings p) : Bounded settings (p.makeRoom e) := by
  rw [Pool.makeRoom]
  split
  · exact h
  · exact h.stepFirst

private theorem Bounded.hasRoom_iff (h : Bounded settings p) (hcapacity : 0 < settings.capacity) :
    p.hasRoom = true ↔ p.queue.length < settings.capacity := by
  rw [hasRoom, h.capacity, Bool.or_eq_true, decide_eq_true_iff, List.isEmpty_iff]
  refine ⟨fun hroom => hroom.elim (fun hnil => ?_) id, .inr⟩
  rwa [hnil]

/-- There is room for the next message, unless no worker is left. -/
private theorem Bounded.hasRoom_makeRoom (h : Bounded settings p)
    (hcapacity : 0 < settings.capacity) :
    (p.makeRoom e).isDead = true ∨ (p.makeRoom e).hasRoom = true := by
  rw [Pool.makeRoom]
  split
  · next hroom => exact .inr hroom
  · next hroom =>
    rcases stepFirst_cases e p with ⟨heq, hdead | hnil⟩ | ⟨_, _, _, _, rest, -, hqueue, heq⟩
    · exact .inl (by rwa [heq])
    · exact absurd (by rw [hasRoom, hnil]; rfl) hroom
    · refine .inr ((h.stepFirst.hasRoom_iff hcapacity).mpr ?_)
      have hle := h.length_le
      rw [hqueue, List.length_cons] at hle
      rw [heq]
      exact hle

/-- A message is sent, or no worker is left. -/
private theorem Bounded.sendSoon?_cases (h : Bounded settings p) (hcapacity : 0 < settings.capacity)
    (m : Message α) :
    ((p.makeRoom e).isDead = true ∧ sendSoon? e m p = none) ∨
      ((p.makeRoom e).isDead = false ∧ (p.makeRoom e).queue.length < settings.capacity ∧
        sendSoon? e m p =
          some { p.makeRoom e with queue := (p.makeRoom e).queue ++ [m] }) := by
  have hsend : sendSoon? e m p = send? m (p.makeRoom e) := rfl
  rw [hsend, send?]
  cases hdead : (p.makeRoom e).isDead with
  | true => exact .inl ⟨rfl, rfl⟩
  | false =>
    have hroom := (h.hasRoom_makeRoom hcapacity).resolve_left (Bool.eq_false_iff.mp hdead)
    rw [hroom]
    exact .inr ⟨rfl, (h.makeRoom.hasRoom_iff hcapacity).mp hroom, rfl⟩

private theorem running_makeRoom_le {n : Nat} (h : p.running ≤ p.stops + n) :
    (p.makeRoom e).running ≤ (p.makeRoom e).stops + n := by
  rw [makeRoom]
  split
  · exact h
  · exact running_stepFirst_le h

theorem Bounded.send (h : Bounded settings p) (hroom : p.queue.length < settings.capacity)
    (m : Message α) : Bounded settings { p with queue := p.queue ++ [m] } :=
  ⟨h.capacity, by rwa [List.length_append]⟩

/-- Each worker that runs finds a message to stop. -/
private theorem Bounded.running_sendStops_le (h : Bounded settings p)
    (hcapacity : 0 < settings.capacity) {n : Nat} (hrunning : p.running ≤ p.stops + n) :
    (sendStops e n p).running ≤ (sendStops e n p).stops := by
  induction n generalizing p with
  | zero => exact hrunning
  | succ n ih =>
    have hnext := @running_makeRoom_le _ e _ _ hrunning
    rcases @Bounded.sendSoon?_cases _ e _ _ h hcapacity .stop with
      ⟨hdead, hsend⟩ | ⟨-, hroom, hsend⟩
    · rw [sendStops, hsend]
      show (p.makeRoom e).running ≤ _
      rw [running_eq_zero_iff.mpr hdead]
      exact Nat.zero_le _
    · rw [sendStops, hsend]
      refine ih (h.makeRoom.send hroom .stop) ?_
      simp only [running, stops, List.countP_append, List.countP_singleton, if_true] at hnext ⊢
      omega

private theorem drain_of_stepFirst_eq (h : p.stepFirst e = p) (n : Nat) : drain e n p = p := by
  induction n with
  | zero => rfl
  | succ n ih => rw [drain, h, ih]

/-- Workers take messages until no message or no worker is left. -/
private theorem drain_cases {n : Nat} (hn : p.queue.length ≤ n) :
    (drain e n p).isDead = true ∨ (drain e n p).queue = [] := by
  induction n generalizing p with
  | zero => exact .inr (List.eq_nil_of_length_eq_zero (Nat.le_zero.mp hn))
  | succ n ih =>
    rcases stepFirst_cases e p with ⟨heq, hstuck⟩ | ⟨_, _, _, _, rest, -, hqueue, heq⟩
    · rwa [drain_of_stepFirst_eq heq]
    · rw [hqueue, List.length_cons] at hn
      rw [drain, heq]
      exact ih (Nat.le_of_succ_le_succ hn)

private theorem running_drain_le (h : p.running ≤ p.stops) (n : Nat) :
    (drain e n p).running ≤ (drain e n p).stops := by
  induction n generalizing p with
  | zero => exact h
  | succ n ih => exact ih (@running_stepFirst_le _ e p 0 h)

/-- No worker is left when all of them were told to stop. -/
private theorem Bounded.isDead_drain_sendStops (h : Bounded settings p)
    (hcapacity : 0 < settings.capacity) :
    (drain e (sendStops e p.workers.length p).queue.length
      (sendStops e p.workers.length p)).isDead = true := by
  have hrunning : p.running ≤ p.stops + p.workers.length :=
    Nat.le_add_left_of_le List.countP_le_length
  have hle := running_drain_le (@Bounded.running_sendStops_le _ e _ _ h hcapacity _ hrunning)
    (sendStops e p.workers.length p).queue.length
  rcases @drain_cases _ e _ _ (Nat.le_refl (sendStops e p.workers.length p).queue.length) with
    hdead | hnil
  · exact hdead
  · rw [stops, hnil, List.countP_nil] at hle
    exact running_eq_zero_iff.mp (Nat.le_zero.mp hle)

/-- A pool without workers left is joined as it is. -/
private theorem join_of_isDead (h : Bounded settings p) (hcapacity : 0 < settings.capacity)
    (hworkers : p.workers ≠ []) (hdead : (p.makeRoom e).isDead = true) (l : Ledger α) :
    join e l p = collect e.combine l 0 (p.makeRoom e).workers := by
  have hstops : sendStops e p.workers.length p = p.makeRoom e := by
    obtain ⟨n, hn⟩ := Nat.exists_eq_succ_of_ne_zero (mt List.eq_nil_of_length_eq_zero hworkers)
    rw [hn, sendStops]
    rcases @Bounded.sendSoon?_cases _ e _ _ h hcapacity .stop with ⟨-, hsend⟩ | ⟨hlive, -⟩
    · rw [hsend]
      rfl
    · simp only [hdead, Bool.true_eq_false] at hlive
  have hstuck : (p.makeRoom e).stepFirst e = p.makeRoom e := by
    rcases stepFirst_cases e (p.makeRoom e) with ⟨heq, -⟩ | ⟨_, s, _, _, _, hfirst, -, -⟩
    · exact heq
    · rw [isDead, List.all_eq_true] at hdead
      have hrunning := hdead (.running s)
        (hfirst ▸ List.mem_append_right _ List.mem_cons_self)
      simp only [Worker.isRunning, Bool.not_true, Bool.false_eq_true] at hrunning
  rw [join, hstops, drain_of_stepFirst_eq hstuck]

end Pool

/-! ### Sessions that mirror pools -/

/-- The worker neither has a verdict to enter nor is about to leave. -/
def Hand.Settled {σ : Type} (hand : Hand σ α) : Prop :=
  (∃ s, hand.status = .waiting s) ∨ hand.IsGone

namespace Session

variable {settings : PoolSettings} {e : Engine α} {phase : Phase α} {ledger : Ledger α}
  {p : Pool e.State α} {c : Session e.State α}

/-- Some steps. -/
abbrev Steps (settings : PoolSettings) (e : Engine α) :
    Session e.State α → Session e.State α → Prop :=
  Relation.ReflTransGen (Step settings e)

/-- The session is where the pooled engine has brought the pool. -/
structure Mirrors (phase : Phase α) (ledger : Ledger α) (p : Pool e.State α)
    (c : Session e.State α) : Prop where
  phase : c.phase = phase
  ledger : c.ledger = ledger
  queue : c.queue = p.queue
  workers : c.hands.map Hand.worker = p.workers
  settled : ∀ hand ∈ c.hands, hand.Settled

/-- A pool begins where the workers of a session do. -/
theorem Mirrors.fresh {rest : List (Verdict α)} (hqueue : c.queue = [])
    (hledger : c.ledger = ledger) (s : e.State) :
    Mirrors (.offering rest) ledger (.fresh settings s) { c with
      phase := .offering rest
      hands := .replicate settings.threads { status := .waiting s } } where
  phase := rfl
  ledger := hledger
  queue := hqueue
  workers := List.map_replicate
  settled _ hhand := .inl ⟨s, congrArg Hand.status (List.eq_of_mem_replicate hhand)⟩

/-- A worker takes a message, and goes on until it waits or has left. -/
private theorem exists_steps_receive {front behind : List (Hand e.State α)}
    {taken : List (Verdict α)} {s : e.State} {m : Message α} {rest : List (Message α)}
    (hqueue : c.queue = m :: rest) (hhands : c.hands = front ++ ⟨taken, .waiting s⟩ :: behind) :
    ∃ hand', Steps settings e c { c with queue := rest, hands := front ++ hand' :: behind } ∧
      hand'.worker = Pool.receive e s m ∧ hand'.Settled := by
  cases m with
  | work v =>
    have htake : Step settings e c
        { c with queue := rest, hands := front ++ ⟨taken ++ [v], .busy s v⟩ :: behind } :=
      .hand hhands (hqueue ▸ .take)
    rcases hrun : e.run v s with ⟨fault | ⟨⟩, s'⟩
    · refine ⟨⟨taken ++ [v], .gone (.error fault)⟩, ?_, ?_, .inr ⟨_, rfl⟩⟩
      · exact .tail (.tail (.single htake) (.hand rfl (.fail hrun))) (.hand rfl .leave)
      · simp only [Pool.receive, hrun, Hand.worker]
    · refine ⟨⟨taken ++ [v], .waiting s'⟩, .tail (.single htake) (.hand rfl (.enter hrun)), ?_,
        .inl ⟨s', rfl⟩⟩
      simp only [Pool.receive, hrun, Hand.worker]
  | stop =>
    have hstop : Step settings e c { c with
        queue := rest
        hands := front ++ ⟨taken, .leaving (.ok (e.ledger s))⟩ :: behind } :=
      .hand hhands (hqueue ▸ .stop)
    exact ⟨⟨taken, .gone (.ok (e.ledger s))⟩, .tail (.single hstop) (.hand rfl .leave), rfl,
      .inr ⟨_, rfl⟩⟩

private theorem Mirrors.isDead_iff (h : Mirrors phase ledger p c) :
    p.isDead = true ↔ ∀ hand ∈ c.hands, hand.IsGone := by
  rw [Pool.isDead, ← h.workers, List.all_eq_true]
  constructor
  · intro hdead hand hhand
    rcases h.settled hand hhand with ⟨s, hs⟩ | hgone
    · have hrunning := hdead hand.worker (List.mem_map_of_mem hhand)
      simp only [Hand.worker, hs, Worker.isRunning, Bool.not_true, Bool.false_eq_true] at hrunning
    · exact hgone
  · intro hgone w hw
    obtain ⟨hand, hhand, rfl⟩ := List.mem_map.mp hw
    obtain ⟨fault | l, hs⟩ := hgone hand hhand
    · simp only [Hand.worker, hs, Worker.isRunning, Bool.not_false]
    · simp only [Hand.worker, hs, Worker.isRunning, Bool.not_false]

theorem Mirrors.stepFirst (h : Mirrors phase ledger p c) :
    ∃ c', Steps settings e c c' ∧ Mirrors phase ledger (p.stepFirst e) c' := by
  rcases Pool.stepFirst_cases e p with ⟨heq, -⟩ | ⟨front, s, behind, m, rest, hworkers, hqueue, heq⟩
  · exact ⟨c, .refl, by rwa [heq]⟩
  · have hmap := h.workers
    rw [hworkers] at hmap
    obtain ⟨front', behind', hhands, rfl, hbehind⟩ := List.map_eq_append_iff.mp hmap
    obtain ⟨hand, behind'', rfl, hworker, rfl⟩ := List.map_eq_cons_iff.mp hbehind
    have hsettled := h.settled
    rw [hhands] at hsettled
    obtain ⟨hfront, hrest⟩ := List.forall_mem_append.mp hsettled
    obtain ⟨hhand, hbehind'⟩ := List.forall_mem_cons.mp hrest
    obtain ⟨taken, status⟩ := hand
    rcases hhand with ⟨s', rfl⟩ | ⟨fault | l, rfl⟩
    · obtain rfl := Worker.running.inj hworker
      obtain ⟨hand', hsteps, hreceived, hhand'⟩ :=
        @exists_steps_receive _ settings _ _ _ _ _ _ _ _ (h.queue.trans hqueue) hhands
      refine ⟨_, hsteps, heq ▸ ⟨h.phase, h.ledger, rfl, ?_, ?_⟩⟩
      · rw [List.map_append, List.map_cons, hreceived]
      · exact List.forall_mem_append.mpr ⟨hfront, List.forall_mem_cons.mpr ⟨hhand', hbehind'⟩⟩
    · simp only [Hand.worker, reduceCtorEq] at hworker
    · simp only [Hand.worker, reduceCtorEq] at hworker

private theorem Mirrors.makeRoom (h : Mirrors phase ledger p c) :
    ∃ c', Steps settings e c c' ∧ Mirrors phase ledger (p.makeRoom e) c' := by
  rw [Pool.makeRoom]
  split
  · exact ⟨c, .refl, h⟩
  · exact h.stepFirst

theorem Mirrors.drain (h : Mirrors phase ledger p c) (n : Nat) :
    ∃ c', Steps settings e c c' ∧ Mirrors phase ledger (Pool.drain e n p) c' := by
  induction n generalizing p c with
  | zero => exact ⟨c, .refl, h⟩
  | succ n ih =>
    obtain ⟨c₁, hsteps, h₁⟩ := h.stepFirst
    obtain ⟨c₂, hsteps', h₂⟩ := ih h₁
    exact ⟨c₂, hsteps.trans hsteps', h₂⟩

private theorem Mirrors.exists_held (h : Mirrors phase ledger p c) (hdead : p.isDead = false) :
    ∃ hand ∈ c.hands, ¬hand.IsGone := by
  by_contra hnone
  push Not at hnone
  rw [h.isDead_iff.mpr hnone] at hdead
  simp only [Bool.true_eq_false] at hdead

/-- The coordinator tells the workers to stop. -/
theorem Mirrors.sendStops (hbounded : p.Bounded settings) (hcapacity : 0 < settings.capacity)
    {n : Nat} (h : Mirrors (.stopping n) ledger p c) :
    ∃ c', Steps settings e c c' ∧
      Mirrors (.joining 0 none false) ledger (Pool.sendStops e n p) c' := by
  induction n generalizing p c with
  | zero => exact ⟨_, .single (.close h.phase), ⟨rfl, h.ledger, h.queue, h.workers, h.settled⟩⟩
  | succ n ih =>
    obtain ⟨c₁, hsteps, h₁⟩ : ∃ c', Steps settings e c c' ∧ _ := h.makeRoom
    rcases hbounded.sendSoon?_cases (e := e) hcapacity .stop with
      ⟨hdead, hsend⟩ | ⟨hdead, hroom, hsend⟩
    · rw [Pool.sendStops, hsend]
      refine ⟨_, hsteps.tail (.refuseStop h₁.phase (h₁.isDead_iff.mp hdead)), ?_⟩
      exact ⟨rfl, h₁.ledger, h₁.queue, h₁.workers, h₁.settled⟩
    · rw [Pool.sendStops, hsend]
      have hroom' : c₁.queue.length < settings.capacity := h₁.queue ▸ hroom
      have hstep := Step.sendStop h₁.phase hroom' (h₁.exists_held hdead)
      obtain ⟨c₂, hsteps', h₂⟩ := ih (hbounded.makeRoom.send hroom .stop)
        (c := { c₁ with phase := .stopping n, queue := c₁.queue ++ [.stop] })
        ⟨rfl, h₁.ledger, congrArg (· ++ [.stop]) h₁.queue, h₁.workers, h₁.settled⟩
      exact ⟨c₂, (hsteps.tail hstep).trans hsteps', h₂⟩

/-- The coordinator joins workers that have all left. -/
private theorem exists_steps_collect {front behind : List (Hand e.State α)} {failure : Option Error}
    {refused : Bool} (hphase : c.phase = .joining front.length failure refused)
    (hhands : c.hands = front ++ behind) (hgone : ∀ hand ∈ behind, hand.IsGone) :
    ∃ c', Steps settings e c c' ∧ c'.phase = .returned (Phase.result
      (Pool.collect e.combine c.ledger front.length (behind.map Hand.worker)).2
      (failure.or (Pool.collect e.combine c.ledger front.length (behind.map Hand.worker)).1)
      refused) ∧
      (refused = true → .error (.error ((failure.or (Pool.collect e.combine c.ledger front.length
        (behind.map Hand.worker)).1).getD .workersGone)) ∈ c'.answers) := by
  induction behind generalizing c front failure with
  | nil =>
    rw [List.append_nil] at hhands
    refine ⟨_, .single (.answer (hhands ▸ hphase)), ?_, fun hrefused => ?_⟩
    · rw [List.map_nil, Pool.collect, Option.or_none]
    · rw [List.map_nil, Pool.collect, Option.or_none]
      simp only [hrefused, if_true]
      exact List.mem_append_right _ List.mem_cons_self
  | cons hand rest ih =>
    obtain ⟨hhand, hrest⟩ := List.forall_mem_cons.mp hgone
    have hget : c.hands[front.length]? = some hand := by
      rw [hhands, List.getElem?_append_right (Nat.le_refl _), Nat.sub_self, List.getElem?_cons_zero]
    have hsplit : c.hands = (front ++ [hand]) ++ rest := by
      rw [hhands, List.append_assoc, List.singleton_append]
    have hlength : front.length + 1 = (front ++ [hand]).length := by
      rw [List.length_append, List.length_singleton]
    obtain ⟨fault | l, hstatus⟩ := hhand
    · have hworker : hand.worker = .failed fault := by rw [Hand.worker, hstatus]
      have hstep : Step settings e c _ := .fail hphase hget hstatus
      obtain ⟨c', hsteps, hreturned⟩ := ih (c := { c with
          phase := .joining (front.length + 1)
            (failure.or (some (Pool.cause front.length fault))) refused })
        (congrArg (Phase.joining · _ refused) hlength) hsplit hrest
      refine ⟨c', .head hstep hsteps, ?_⟩
      rw [List.map_cons, hworker, Pool.collect]
      rwa [← hlength, Option.or_assoc, Option.some_or] at hreturned
    · have hworker : hand.worker = .done l := by rw [Hand.worker, hstatus]
      have hstep : Step settings e c _ := .merge hphase hget hstatus
      obtain ⟨c', hsteps, hreturned⟩ := ih (c := { c with
          phase := .joining (front.length + 1) failure refused
          ledger := c.ledger.merge e.combine l })
        (congrArg (Phase.joining · failure refused) hlength) hsplit hrest
      refine ⟨c', .head hstep hsteps, ?_⟩
      rw [List.map_cons, hworker, Pool.collect]
      rwa [← hlength] at hreturned

/-- The coordinator stops the workers and joins them. -/
theorem Mirrors.join (hbounded : p.Bounded settings) (hcapacity : 0 < settings.capacity)
    (h : Mirrors (.stopping p.workers.length) ledger p c) :
    ∃ c', Steps settings e c c' ∧ c'.phase =
      .returned (Phase.result (p.join e ledger).2 (p.join e ledger).1 false) := by
  obtain ⟨c₁, hsteps₁, h₁⟩ := h.sendStops hbounded hcapacity
  obtain ⟨c₂, hsteps₂, h₂⟩ : ∃ c', Steps settings e c₁ c' ∧ _ :=
    h₁.drain (Pool.sendStops e p.workers.length p).queue.length
  have hgone := h₂.isDead_iff.mp (hbounded.isDead_drain_sendStops hcapacity)
  obtain ⟨c₃, hsteps₃, h₃, -⟩ : ∃ c', Steps settings e c₂ c' ∧ _ :=
    @exists_steps_collect _ settings e c₂ [] c₂.hands none false h₂.phase rfl hgone
  refine ⟨c₃, (hsteps₁.trans hsteps₂).trans hsteps₃, h₃.trans ?_⟩
  rw [h₂.ledger, h₂.workers]
  rfl

theorem Invariant.steps {vs : List (Verdict α)} (hthreads : 0 < settings.threads)
    (hinv : Invariant settings e ledger vs c) {c' : Session e.State α}
    (h : Steps settings e c c') : Invariant settings e ledger vs c' := by
  induction h with
  | refl => exact hinv
  | tail _ hstep ih => exact ih.step hthreads hstep

/-- A worker fails only with a fault that ends a run. -/
theorem Invariant.isFatal_collect {vs : List (Verdict α)}
    (hinv : Invariant settings e ledger vs c) (l : Ledger α) (i : Nat) :
    (((Pool.collect e.combine l i (c.hands.map Hand.worker)).1).getD .workersGone).isFatal =
      true := by
  rcases @Pool.collect_fst _ _ e.combine l i (c.hands.map Hand.worker) with
    ⟨-, hfst⟩ | ⟨j, fault, hmem, hfst⟩
  · rw [hfst]
    rfl
  · rw [hfst, Option.getD_some]
    obtain ⟨hand, hhand, hworker⟩ := List.mem_map.mp hmem
    have hfault := Package.isFatal_of_ledgerOf ((hinv.sound hand hhand).ledgerOf_of_failed hworker)
    exact (Fault.isFatal_toError rfl).trans hfault

/-- The pooled engine takes a verdict as a session does: the verdict is sent, or it is refused and
nothing is merged. -/
theorem Mirrors.accept {vs rest : List (Verdict α)} {v : Verdict α}
    (hthreads : 0 < settings.threads) (hcapacity : 0 < settings.capacity)
    (hinv : Invariant settings e ledger vs c) (hbounded : p.Bounded settings)
    (h : Mirrors (.offering (v :: rest)) ledger p c) :
    (∃ p' c', (Engine.pooled settings e).accept v { ledger, pool := some p } =
        (.ok none, { ledger, pool := some p' }) ∧ p'.Bounded settings ∧ Steps settings e c c' ∧
          Mirrors (.offering rest) ledger p' c') ∨
      ∃ fault c', (Engine.pooled settings e).accept v { ledger, pool := some p } =
        (.error fault, { ledger }) ∧ fault.isFatal = true ∧ Steps settings e c c' ∧
          c'.phase = .returned (.error fault) ∧ .error fault ∈ c'.answers := by
  obtain ⟨c₁, hsteps, h₁⟩ : ∃ c', Steps settings e c c' ∧ _ := h.makeRoom
  have hinv₁ := hinv.steps hthreads hsteps
  rcases hbounded.sendSoon?_cases (e := e) hcapacity (.work v) with
    ⟨hdead, hsend⟩ | ⟨hdead, hroom, hsend⟩
  · have hphase := hinv₁.phase
    simp only [h₁.phase] at hphase
    have hworkers : p.workers ≠ [] := by
      have hphase := hinv.phase
      simp only [h.phase] at hphase
      rw [← h.workers, ne_eq, List.map_eq_nil_iff, ← List.length_eq_zero_iff, hphase.length]
      exact Nat.ne_of_gt hthreads
    have hnone : ∀ w ∈ (p.makeRoom e).workers, w.ledger? = none := by
      rw [← h₁.workers]
      refine List.forall_mem_map.mpr fun hand hhand => ?_
      exact Hand.ledger?_worker_eq_none (hphase.undone hand hhand)
    have hledger : (p.join e ledger).2 = ledger := by
      rw [Pool.join_of_isDead hbounded hcapacity hworkers hdead ledger]
      exact Pool.collect_snd_of_ledger?_eq_none hnone
    have hgone := h₁.isDead_iff.mp hdead
    have hstep : Step settings e c₁ _ := .refuse h₁.phase hgone
    obtain ⟨c₂, hsteps', hreturned, hanswers⟩ : ∃ c', Steps settings e _ c' ∧ _ :=
      @exists_steps_collect _ settings e { c₁ with phase := .joining 0 none true } [] c₁.hands
        none true rfl rfl hgone
    have hfatal := hinv₁.isFatal_collect ledger 0
    simp only [List.length_nil, h₁.ledger, h₁.workers, Option.none_or, forall_const]
      at hfatal hreturned hanswers
    rw [← Pool.join_of_isDead hbounded hcapacity hworkers hdead ledger]
      at hfatal hreturned hanswers
    refine .inr ⟨.error ((p.join e ledger).1.getD .workersGone), c₂, ?_, hfatal,
      (hsteps.tail hstep).trans hsteps', hreturned.trans ?_, hanswers⟩
    · simp only [Engine.pooled, Option.getD_some, hsend, hledger]
    · rcases p.join e ledger with ⟨_ | error, l⟩ <;> rfl
  · have hroom' : c₁.queue.length < settings.capacity := h₁.queue ▸ hroom
    have hstep := Step.send h₁.phase hroom' (h₁.exists_held hdead)
    refine .inl ⟨_, _, ?_, hbounded.makeRoom.send hroom (.work v), hsteps.tail hstep,
      ⟨rfl, h₁.ledger, congrArg (· ++ [.work v]) h₁.queue, h₁.workers, h₁.settled⟩⟩
    simp only [Engine.pooled, Option.getD_some, hsend]

/-- From a pool on, the pooled engine does what a session does. -/
theorem Mirrors.exists_steps {vs rest : List (Verdict α)} (hthreads : 0 < settings.threads)
    (hcapacity : 0 < settings.capacity) (hinv : Invariant settings e ledger vs c)
    (hbounded : p.Bounded settings) (h : Mirrors (.offering rest) ledger p c) :
    ∃ c', Steps settings e c c' ∧ c'.phase =
      .returned ((Engine.pooled settings e).conclude { ledger, pool := some p } rest) := by
  induction rest generalizing p c with
  | nil =>
    have hfinish : Mirrors (.stopping p.workers.length) ledger p
        { c with phase := .stopping c.hands.length } := by
      refine ⟨?_, h.ledger, h.queue, h.workers, h.settled⟩
      rw [← h.workers, List.length_map]
    obtain ⟨c', hsteps, hreturned⟩ := hfinish.join hbounded hcapacity
    refine ⟨c', .head (.finish h.phase) hsteps, hreturned.trans (congrArg Phase.returned ?_)⟩
    simp only [Engine.conclude, Engine.runAll, Except.bind, Engine.pooled]
    rcases p.join e ledger with ⟨_ | error, l⟩ <;> rfl
  | cons v rest ih =>
    rcases h.accept hthreads hcapacity hinv hbounded with
      ⟨p', c₁, haccept, hbounded', hsteps, h₁⟩ | ⟨fault, c₁, haccept, hfatal, hsteps, hreturned, -⟩
    · obtain ⟨c₂, hsteps', h₂⟩ := ih (hinv.steps hthreads hsteps) hbounded' h₁
      refine ⟨c₂, hsteps.trans hsteps', h₂.trans (congrArg Phase.returned ?_)⟩
      simp only [Engine.conclude, Engine.runAll, Engine.run, haccept]
    · refine ⟨c₁, hsteps, hreturned.trans (congrArg Phase.returned ?_)⟩
      simp only [Engine.conclude, Engine.runAll, Engine.run_of_accept_fatal haccept hfatal,
        Except.bind]

/-- The run of the pooled engine is a session. -/
theorem exists_steps_pooled {slowLimit : Nat} {vs : List (Verdict α)}
    (hthreads : 0 < settings.threads) (hcapacity : 0 < settings.capacity) :
    ∃ c', Steps settings e (begin e.State (({} : Ledger α).limit slowLimit) vs) c' ∧
      c'.phase = .returned ((Engine.pooled settings e).conclude
        ((Engine.pooled settings e).startWith slowLimit) vs) := by
  cases vs with
  | nil => exact ⟨_, .single (.idle rfl), rfl⟩
  | cons v rest =>
    have hinv : Invariant settings e (({} : Ledger α).limit slowLimit) (v :: rest) _ := .begin
    have hstep : Step settings e (begin e.State (({} : Ledger α).limit slowLimit) (v :: rest)) _ :=
      .start rfl
    have hfresh : Mirrors (.offering (v :: rest)) (({} : Ledger α).limit slowLimit)
        (.fresh settings (e.startWith slowLimit)) _ :=
      .fresh (c := begin e.State _ (v :: rest)) rfl rfl _
    obtain ⟨c', hsteps, hreturned⟩ := hfresh.exists_steps hthreads hcapacity
      (hinv.step hthreads hstep) ⟨rfl, Nat.zero_le _⟩
    exact ⟨c', .head hstep hsteps, hreturned⟩

end Session

end Percolator
