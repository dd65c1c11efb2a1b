import Mathlib.Data.List.Perm.Basic
import Percolator.Proofs.Verification.Session.Basic

/-!
# What holds in every session

A verdict that was sent waits in the queue or was taken by one worker. No verdict stands behind a
message to stop, so that a worker is told to stop only when all verdicts are taken. A session that
returns a ledger has therefore merged the ledgers of runs that together took all verdicts, and any
other session returns an error that ended the run of a worker.

## Main definitions

* `Session.Outcome` : what a session may return.
* `Session.Invariant` : what holds in every session.

## Main results

* `Session.Invariant.step_hand`, `Session.Invariant.step` : every step keeps the invariant.
-/

namespace Percolator

variable {α : Type}

namespace Session

/-- What a session may return: the merged ledgers of runs that share the verdicts between them, or
the fault of a run with some of the verdicts. -/
inductive Outcome (e : Engine α) (ledger : Ledger α) (vs : List (Verdict α)) :
    List (Except Fault (Option (Match α))) → Except Fault (Ledger α) → Prop
  | merged (runs : List (List (Verdict α) × Ledger α)) (hparts : (runs.flatMap (·.1)).Perm vs)
    (hruns : ∀ run ∈ runs, Package.ledgerOf e ledger.slowLimit run.1 = .ok run.2) :
    Outcome e ledger vs (vs.map fun _ => .ok none)
      (.ok ((runs.map (·.2)).foldl (fun l other => l.merge e.combine other) ledger))
  | failed {answers} (part : List (Verdict α)) (hpart : ∀ v ∈ part, v ∈ vs) {fault : Fault}
    (hrun : Package.ledgerOf e ledger.slowLimit part = .error fault) (i : Nat) :
    Outcome e ledger vs answers (.error (.error (Pool.cause i fault)))

/-- If no run with some of the verdicts fails, a session returns the merged ledgers of runs. -/
theorem Outcome.exists_runs {e : Engine α} {ledger : Ledger α} {vs : List (Verdict α)}
    {answers : List (Except Fault (Option (Match α)))} {result : Except Fault (Ledger α)}
    (h : Outcome e ledger vs answers result) (hruns : ∀ part, (∀ v ∈ part, v ∈ vs) →
      ∃ l, Package.ledgerOf e ledger.slowLimit part = .ok l) :
    ∃ runs : List (List (Verdict α) × Ledger α), (runs.flatMap (·.1)).Perm vs ∧
      (∀ run ∈ runs, Package.ledgerOf e ledger.slowLimit run.1 = .ok run.2) ∧
        result = .ok ((runs.map (·.2)).foldl (fun l other => l.merge e.combine other) ledger) := by
  cases h with
  | merged runs hparts hledgers => exact ⟨runs, hparts, hledgers, rfl⟩
  | failed part hpart hrun i =>
    obtain ⟨l, hl⟩ := hruns part hpart
    simp only [hl, reduceCtorEq] at hrun

/-- No verdict was offered. -/
structure Fresh {σ : Type} (ledger : Ledger α) (vs rest : List (Verdict α)) (c : Session σ α) :
    Prop where
  rest : rest = vs
  ledger : c.ledger = ledger
  queue : c.queue = []
  hands : c.hands = []
  sent : c.sent = []
  answers : c.answers = []

/-- Verdicts are offered, and no worker was told to stop. -/
structure Offering {σ : Type} (settings : PoolSettings) (ledger : Ledger α)
    (vs rest : List (Verdict α)) (c : Session σ α) : Prop where
  offered : c.sent ++ rest = vs
  ledger : c.ledger = ledger
  length : c.hands.length = settings.threads
  unstopped : .stop ∉ c.queue
  undone : ∀ hand ∈ c.hands, ¬hand.IsDone
  answers : c.answers = c.sent.map fun _ => .ok none

/-- All verdicts are sent. -/
structure Stopping {σ : Type} (settings : PoolSettings) (ledger : Ledger α)
    (vs : List (Verdict α)) (c : Session σ α) : Prop where
  sent : c.sent = vs
  ledger : c.ledger = ledger
  length : c.hands.length = settings.threads
  answers : c.answers = c.sent.map fun _ => .ok none

/-- The workers before the one with the number `next` are joined. A run in which a verdict was
refused is one in which all workers failed. -/
structure Joining {σ : Type} (settings : PoolSettings) (combine : Match α → Match α → Match α)
    (ledger : Ledger α) (vs : List (Verdict α)) (next : Nat) (failure : Option Error)
    (refused : Bool) (c : Session σ α) : Prop where
  sent : c.sent <+: vs
  length : c.hands.length = settings.threads
  next_le : next ≤ c.hands.length
  gone : ∀ hand ∈ c.hands.take next, hand.IsGone
  collected : Pool.collect combine ledger 0 ((c.hands.take next).map Hand.worker) =
    (failure, c.ledger)
  undone : refused = true → ∀ hand ∈ c.hands, hand.IsGone ∧ ¬hand.IsDone
  answers : refused = false → c.sent = vs ∧ c.answers = c.sent.map fun _ => .ok none

/-- The session is over. -/
structure Returned (e : Engine α) (ledger : Ledger α) (vs : List (Verdict α))
    (result : Except Fault (Ledger α)) (c : Session e.State α) : Prop where
  outcome : Outcome e ledger vs c.answers result
  gone : ∀ hand ∈ c.hands, hand.IsGone

/-- What holds in a session with the verdicts `vs` that began with the ledger. -/
structure Invariant (settings : PoolSettings) (e : Engine α) (ledger : Ledger α)
    (vs : List (Verdict α)) (c : Session e.State α) : Prop where
  sound : ∀ hand ∈ c.hands, hand.Sound e ledger.slowLimit
  /-- Every verdict that was sent waits in the queue or was taken by one worker. -/
  spread : c.sent.Perm (c.hands.flatMap Hand.taken ++ works c.queue)
  ordered : c.queue.Pairwise fun m m' => m = .stop → m' = .stop
  /-- A worker is done only when no verdict waits. -/
  drained : (∃ hand ∈ c.hands, hand.IsDone) → works c.queue = []
  phase : match c.phase with
    | .fresh rest => Fresh ledger vs rest c
    | .offering rest => Offering settings ledger vs rest c
    | .stopping _ => Stopping settings ledger vs c
    | .joining next failure refused =>
      Joining settings e.combine ledger vs next failure refused c
    | .returned result => Returned e ledger vs result c

/-! ### Steps -/

section Steps

variable {settings : PoolSettings} {e : Engine α} {ledger : Ledger α} {vs : List (Verdict α)}
  {c c' : Session e.State α}

theorem Invariant.begin : Invariant settings e ledger vs (begin e.State ledger vs) where
  sound _ h := absurd h List.not_mem_nil
  spread := .refl _
  ordered := .nil
  drained := fun _ => rfl
  phase := ⟨rfl, rfl, rfl, rfl, rfl, rfl⟩

/-! #### Steps of a worker -/

section Hand

variable {front behind : List (Hand e.State α)} {hand hand' : Hand e.State α}
  {queue : List (Message α)}

private theorem take_append_cons {n : Nat}
    (hgone : ∀ h ∈ (front ++ hand :: behind).take n, h.IsGone) (hnot : ¬hand.IsGone) :
    (front ++ hand' :: behind).take n = (front ++ hand :: behind).take n := by
  rcases Nat.lt_or_ge front.length n with hlt | hle
  · refine absurd (hgone hand ?_) hnot
    obtain ⟨k, rfl⟩ := Nat.exists_eq_add_of_lt hlt
    rw [Nat.add_assoc, List.take_length_add_append, List.take_succ_cons]
    exact List.mem_append_right _ List.mem_cons_self
  · rw [List.take_append_of_le_length hle, List.take_append_of_le_length hle]

private theorem mem_of_mem_replaced {other : Hand e.State α}
    (h : other ∈ front ++ hand' :: behind) : other = hand' ∨ other ∈ front ++ hand :: behind := by
  rcases List.mem_append.mp h with hfront | hbehind
  · exact .inr (List.mem_append_left _ hfront)
  · rcases List.mem_cons.mp hbehind with heq | hbehind
    · exact .inl heq
    · exact .inr (List.mem_append_right _ (List.mem_cons_of_mem _ hbehind))

/-- The verdict that a worker takes moves from the queue to what the worker took. -/
private theorem perm_taken_replaced {waiting waiting' : List (Verdict α)}
    (h : hand.taken ++ waiting = hand'.taken ++ waiting') :
    ((front ++ hand :: behind).flatMap Hand.taken ++ waiting).Perm
      ((front ++ hand' :: behind).flatMap Hand.taken ++ waiting') := by
  have hrearrange : ∀ taken waiting : List (Verdict α),
      (front.flatMap Hand.taken ++ (taken ++ behind.flatMap Hand.taken) ++ waiting).Perm
        (front.flatMap Hand.taken ++ (behind.flatMap Hand.taken ++ (taken ++ waiting))) := by
    intro taken waiting
    rw [List.append_assoc, ← List.append_assoc (behind.flatMap _)]
    exact (List.perm_append_comm.append_right waiting).append_left _
  rw [List.flatMap_append, List.flatMap_cons, List.flatMap_append, List.flatMap_cons]
  refine (hrearrange _ _).trans ?_
  rw [h]
  exact (hrearrange _ _).symm

/-- A worker that is done after a step leaves no verdict in the queue. -/
private theorem Invariant.works_eq_nil_of_isDone (hinv : Invariant settings e ledger vs c)
    (hmem : hand ∈ c.hands) (h : Hand.Step e c.phase.isClosed c.queue hand queue hand')
    (hdone : hand'.IsDone ∨ ∃ other ∈ c.hands, other.IsDone) : works queue = [] := by
  have hworks : works c.queue = [] → works queue = [] := by
    intro hnil
    obtain ⟨taken, hqueue⟩ := h.isSuffix
    rw [← hqueue, works, List.filterMap_append, List.append_eq_nil_iff] at hnil
    exact hnil.2
  rcases hdone with hdone | hdone
  · rcases h.isDone hdone with hdone | hstop | ⟨-, hnil⟩
    · exact hworks (hinv.drained ⟨hand, hmem, hdone⟩)
    · have hordered := hinv.ordered
      rw [hstop, List.pairwise_cons] at hordered
      exact works_eq_nil fun m hm => hordered.1 m hm rfl
    · exact congrArg works hnil
  · exact hworks (hinv.drained hdone)

/-- A step of a worker keeps the invariant. -/
theorem Invariant.step_hand (hinv : Invariant settings e ledger vs c)
    (hhands : c.hands = front ++ hand :: behind)
    (h : Hand.Step e c.phase.isClosed c.queue hand queue hand') :
    Invariant settings e ledger vs
      { c with queue := queue, hands := front ++ hand' :: behind } := by
  have hmem : hand ∈ c.hands := hhands ▸ List.mem_append_right _ List.mem_cons_self
  have hothers : ∀ other ∈ front ++ hand' :: behind, other = hand' ∨ other ∈ c.hands :=
    fun other hother => hhands ▸ mem_of_mem_replaced hother
  have hlength : (front ++ hand' :: behind).length = c.hands.length := by
    rw [hhands, List.length_append, List.length_append, List.length_cons, List.length_cons]
  have hphase := hinv.phase
  refine ⟨?_, ?_, hinv.ordered.sublist h.isSuffix.sublist, ?_, ?_⟩
  · intro other hother
    rcases hothers other hother with rfl | hother
    · exact h.sound (hinv.sound hand hmem)
    · exact hinv.sound other hother
  · exact (hhands ▸ hinv.spread).trans (perm_taken_replaced h.taken_append)
  · rintro ⟨other, hother, hdone⟩
    refine hinv.works_eq_nil_of_isDone hmem h ?_
    rcases hothers other hother with rfl | hother
    · exact .inl hdone
    · exact .inr ⟨other, hother, hdone⟩
  · cases hp : c.phase with
    | fresh rest =>
      simp only [hp] at hphase
      exact absurd (hphase.hands ▸ hmem) List.not_mem_nil
    | offering rest =>
      simp only [hp] at hphase h ⊢
      refine { hphase with
        length := hlength.trans hphase.length
        unstopped := fun hstop => hphase.unstopped (h.isSuffix.subset hstop)
        undone := fun other hother hdone => ?_ }
      rcases hothers other hother with rfl | hother
      · rcases h.isDone hdone with hdone | hstop | ⟨hclosed, -⟩
        · exact hphase.undone hand hmem hdone
        · exact hphase.unstopped (hstop ▸ List.mem_cons_self)
        · simp only [Phase.isClosed, Bool.false_eq_true] at hclosed
      · exact hphase.undone other hother hdone
    | stopping left =>
      simp only [hp] at hphase ⊢
      exact { hphase with length := hlength.trans hphase.length }
    | joining next failure refused =>
      simp only [hp] at hphase ⊢
      -- The workers that are joined have left, so that none of them takes a step.
      have htake : (front ++ hand' :: behind).take next = c.hands.take next := by
        rw [hhands]
        exact take_append_cons (hhands ▸ hphase.gone) h.not_isGone
      refine { hphase with
        length := hlength.trans hphase.length
        next_le := hlength ▸ hphase.next_le
        gone := htake ▸ hphase.gone
        collected := htake ▸ hphase.collected
        undone := fun hrefused => absurd (hphase.undone hrefused hand hmem).1 h.not_isGone }
    | returned result =>
      simp only [hp] at hphase
      exact absurd (hphase.gone hand hmem) h.not_isGone

end Hand

/-! #### Steps of the coordinator -/

theorem exists_runs {slowLimit : Nat} {hands : List (Hand e.State α)}
    (h : ∀ hand ∈ hands, hand.Sound e slowLimit ∧ ∃ l, hand.status = .gone (.ok l)) :
    ∃ runs : List (List (Verdict α) × Ledger α), runs.flatMap (·.1) = hands.flatMap Hand.taken ∧
      (∀ run ∈ runs, Package.ledgerOf e slowLimit run.1 = .ok run.2) ∧
      runs.map (·.2) = (hands.map Hand.worker).filterMap Worker.ledger? := by
  induction hands with
  | nil => exact ⟨[], rfl, fun _ hrun => absurd hrun List.not_mem_nil, rfl⟩
  | cons hand rest ih =>
    obtain ⟨⟨hsound, l, hgone⟩, hrest⟩ := List.forall_mem_cons.mp h
    obtain ⟨runs, htaken, hruns, hledgers⟩ := ih hrest
    have hrun : Package.ledgerOf e slowLimit hand.taken = .ok l := by
      rwa [Hand.Sound, hgone] at hsound
    have hworker : hand.worker = .done l := by rw [Hand.worker, hgone]
    refine ⟨(hand.taken, l) :: runs, ?_, List.forall_mem_cons.mpr ⟨hrun, hruns⟩, ?_⟩
    · rw [List.flatMap_cons, htaken, List.flatMap_cons]
    · rw [List.map_cons, hledgers, List.map_cons, hworker, List.filterMap_cons, Worker.ledger?]

private theorem Invariant.mem_of_mem_taken (hinv : Invariant settings e ledger vs c)
    {hand : Hand e.State α} (hhand : hand ∈ c.hands) {v : Verdict α} (hv : v ∈ hand.taken) :
    v ∈ c.sent :=
  hinv.spread.mem_iff.mpr (List.mem_append_left _ (List.mem_flatMap.mpr ⟨hand, hhand, hv⟩))

/-- Once all workers are joined, the coordinator knows what the run came to. -/
theorem Invariant.outcome (hthreads : 0 < settings.threads)
    (hinv : Invariant settings e ledger vs c) {failure : Option Error} {refused : Bool}
    (h : c.phase = .joining c.hands.length failure refused) :
    Outcome e ledger vs
      (if refused then c.answers ++ [.error (.error (failure.getD .workersGone))] else c.answers)
      (Phase.result c.ledger failure refused) := by
  have hphase := hinv.phase
  simp only [h] at hphase
  have hgone := hphase.gone
  have hcollected := hphase.collected
  rw [List.take_length] at hgone hcollected
  obtain ⟨some, hsome⟩ : ∃ hand, hand ∈ c.hands :=
    List.exists_mem_of_length_pos (hphase.length ▸ hthreads)
  rcases @Pool.collect_fst _ _ e.combine ledger 0 (c.hands.map Hand.worker) with
    ⟨hnone, hfst⟩ | ⟨j, fault, hmem, hfst⟩
  · rw [hcollected] at hfst
    obtain rfl : failure = none := hfst
    have hdone : ∀ hand ∈ c.hands, ∃ l, hand.status = .gone (.ok l) := by
      intro hand hhand
      obtain ⟨⟨fault⟩ | ⟨l⟩, hstatus⟩ := hgone hand hhand
      · refine absurd (List.mem_map.mpr ⟨hand, hhand, ?_⟩) (hnone fault)
        rw [Hand.worker, hstatus]
      · exact ⟨l, hstatus⟩
    obtain ⟨l, hstatus⟩ := hdone some hsome
    have hisDone : some.IsDone := ⟨l, .inr hstatus⟩
    cases refused with
    | true => exact absurd hisDone (hphase.undone rfl some hsome).2
    | false =>
      obtain ⟨hsent, hanswers⟩ := hphase.answers rfl
      obtain ⟨runs, htaken, hruns, hledgers⟩ :=
        exists_runs fun hand hhand => ⟨hinv.sound hand hhand, hdone hand hhand⟩
      have hspread := hinv.spread
      rw [hinv.drained ⟨some, hsome, hisDone⟩, List.append_nil, hsent, ← htaken] at hspread
      have hledger : c.ledger = _ := (congrArg Prod.snd hcollected).symm.trans Pool.collect_snd
      rw [← hledgers] at hledger
      rw [hanswers, hsent, hledger]
      exact .merged runs hspread.symm hruns
  · rw [hcollected] at hfst
    obtain rfl : failure = .some (Pool.cause j fault) := hfst
    obtain ⟨hand, hhand, hworker⟩ := List.mem_map.mp hmem
    have hpart : ∀ v ∈ hand.taken, v ∈ vs := fun v hv =>
      hphase.sent.subset (hinv.mem_of_mem_taken hhand hv)
    have hrun := (hinv.sound hand hhand).ledgerOf_of_failed hworker
    cases refused <;> exact .failed hand.taken hpart hrun j

theorem Invariant.start (hinv : Invariant settings e ledger vs c) {rest : List (Verdict α)}
    (h : c.phase = .fresh rest) :
    Invariant settings e ledger vs { c with
      phase := .offering rest
      hands := .replicate settings.threads
        { status := .waiting (e.startWith c.ledger.slowLimit) } } := by
  have hphase := hinv.phase
  simp only [h] at hphase
  have hqueue := hphase.queue
  have hsent := hphase.sent
  refine ⟨?_, ?_, hinv.ordered, ?_, ?_⟩
  · intro hand hhand
    obtain rfl := List.eq_of_mem_replicate hhand
    rw [hphase.ledger]
    rfl
  · have htaken : (List.replicate settings.threads
        ({ status := .waiting (e.startWith c.ledger.slowLimit) } : Hand e.State α)).flatMap
          Hand.taken = [] :=
      List.flatMap_eq_nil_iff.mpr fun hand hhand => List.eq_of_mem_replicate hhand ▸ rfl
    rw [htaken, hqueue, hsent]
    rfl
  · exact fun _ => congrArg works hqueue
  · exact {
      offered := by rw [hsent, hphase.rest, List.nil_append]
      ledger := hphase.ledger
      length := List.length_replicate
      unstopped := hqueue ▸ List.not_mem_nil
      undone := fun hand hhand ⟨l, hdone⟩ => by
        rw [List.eq_of_mem_replicate hhand] at hdone
        simp only [reduceCtorEq, or_self] at hdone
      answers := by rw [hphase.answers, hsent, List.map_nil] }

theorem Invariant.send (hinv : Invariant settings e ledger vs c) {v : Verdict α}
    {rest : List (Verdict α)} (h : c.phase = .offering (v :: rest)) :
    Invariant settings e ledger vs { c with
      phase := .offering rest
      queue := c.queue ++ [.work v]
      sent := c.sent ++ [v]
      answers := c.answers ++ [.ok none] } := by
  have hphase := hinv.phase
  simp only [h] at hphase
  refine ⟨hinv.sound, ?_, ?_, ?_, ?_⟩
  · rw [works, List.filterMap_append, ← List.append_assoc]
    exact hinv.spread.append_right [v]
  · refine List.pairwise_append.mpr ⟨hinv.ordered, List.pairwise_singleton _ _, ?_⟩
    exact fun m hm m' _ hstop => absurd (hstop ▸ hm) hphase.unstopped
  · rintro ⟨hand, hhand, hdone⟩
    exact absurd hdone (hphase.undone hand hhand)
  · refine { hphase with offered := ?_, unstopped := ?_, answers := ?_ }
    · rw [List.append_assoc, List.singleton_append, hphase.offered]
    · intro hstop
      rcases List.mem_append.mp hstop with hstop | hstop
      · exact hphase.unstopped hstop
      · exact absurd (List.mem_singleton.mp hstop) nofun
    · rw [hphase.answers, List.map_append, List.map_singleton]

theorem Invariant.sendStop (hinv : Invariant settings e ledger vs c) {left left' : Nat}
    (h : c.phase = .stopping left) :
    Invariant settings e ledger vs
      { c with phase := .stopping left', queue := c.queue ++ [.stop] } := by
  have hphase := hinv.phase
  simp only [h] at hphase
  have hworks : works (c.queue ++ [.stop]) = works c.queue := by
    rw [works, List.filterMap_append]
    exact List.append_nil _
  refine ⟨hinv.sound, hworks ▸ hinv.spread, ?_, hworks ▸ hinv.drained, { hphase with }⟩
  refine List.pairwise_append.mpr ⟨hinv.ordered, List.pairwise_singleton _ _, ?_⟩
  exact fun _ _ m' hm' _ => List.mem_singleton.mp hm'

/-- The coordinator begins to join the workers. -/
private theorem Invariant.beginJoining (hinv : Invariant settings e ledger vs c) {left : Nat}
    (h : c.phase = .stopping left) :
    Invariant settings e ledger vs { c with phase := .joining 0 none false } := by
  have hphase := hinv.phase
  simp only [h] at hphase
  exact { hinv with
    phase := {
      sent := hphase.sent ▸ List.prefix_refl _
      length := hphase.length
      next_le := Nat.zero_le _
      gone := fun _ hhand => absurd hhand List.not_mem_nil
      collected := congrArg _ hphase.ledger.symm
      undone := nofun
      answers := fun _ => ⟨hphase.sent, hphase.answers⟩ } }

/-- The coordinator joins a worker. -/
theorem Invariant.join (hinv : Invariant settings e ledger vs c) {next : Nat}
    {failure failure' : Option Error} {refused : Bool} {hand : Hand e.State α} {l : Ledger α}
    (h : c.phase = .joining next failure refused) (hhand : c.hands[next]? = some hand)
    (hgone : hand.IsGone)
    (hcollect : Pool.collect e.combine ledger 0 ((c.hands.take next).map Hand.worker) =
        (failure, c.ledger) →
      Pool.collect e.combine ledger 0 ((c.hands.take next).map Hand.worker ++ [hand.worker]) =
        (failure', l)) :
    Invariant settings e ledger vs
      { c with phase := .joining (next + 1) failure' refused, ledger := l } := by
  have hphase := hinv.phase
  simp only [h] at hphase
  have htake : c.hands.take (next + 1) = c.hands.take next ++ [hand] := by
    rw [List.take_add_one, hhand, Option.toList_some]
  obtain ⟨hlt, -⟩ := List.getElem?_eq_some_iff.mp hhand
  refine { hinv with phase := { hphase with next_le := hlt, gone := ?_, collected := ?_ } }
  · rw [htake]
    exact List.forall_mem_append.mpr ⟨hphase.gone, List.forall_mem_singleton.mpr hgone⟩
  · rw [htake, List.map_append]
    exact hcollect hphase.collected

/-- Every step keeps the invariant. -/
theorem Invariant.step (hthreads : 0 < settings.threads) (hinv : Invariant settings e ledger vs c)
    (h : Step settings e c c') : Invariant settings e ledger vs c' := by
  have hphase := hinv.phase
  cases h with
  | hand hhands h => exact hinv.step_hand hhands h
  | start h => exact hinv.start h
  | idle h =>
    simp only [h] at hphase
    refine { hinv with phase := ⟨?_, fun hand hhand => ?_⟩ }
    · rw [hphase.answers, ← hphase.rest, hphase.ledger]
      exact .merged [] (.refl []) fun _ hrun => absurd hrun List.not_mem_nil
    · exact absurd (hphase.hands ▸ hhand) List.not_mem_nil
  | send h hroom hheld => exact hinv.send h
  | refuse h hgone =>
    simp only [h] at hphase
    exact { hinv with
      phase := {
        sent := ⟨_, hphase.offered⟩
        length := hphase.length
        next_le := Nat.zero_le _
        gone := fun _ hhand => absurd hhand List.not_mem_nil
        collected := congrArg _ hphase.ledger.symm
        undone := fun _ hand hhand => ⟨hgone hand hhand, hphase.undone hand hhand⟩
        answers := nofun } }
  | finish h =>
    simp only [h] at hphase
    have hsent := hphase.offered
    rw [List.append_nil] at hsent
    exact { hinv with phase := { hphase with sent := hsent } }
  | sendStop h hroom hheld => exact hinv.sendStop h
  | refuseStop h hgone => exact hinv.beginJoining h
  | close h => exact hinv.beginJoining h
  | merge h hhand hgone =>
    refine hinv.join h hhand ⟨_, hgone⟩ fun hcollected => ?_
    rw [Hand.worker, hgone]
    exact Pool.collect_concat_done.trans (by rw [hcollected])
  | fail h hhand hgone =>
    simp only [h] at hphase
    refine hinv.join h hhand ⟨_, hgone⟩ fun hcollected => ?_
    rw [Hand.worker, hgone]
    refine Pool.collect_concat_failed.trans ?_
    obtain ⟨hlt, -⟩ := List.getElem?_eq_some_iff.mp hhand
    rw [hcollected, List.length_map, List.length_take_of_le (Nat.le_of_lt hlt), Nat.zero_add]
  | answer h =>
    simp only [h] at hphase
    refine { hinv with phase := ⟨hinv.outcome hthreads h, ?_⟩ }
    have hgone := hphase.gone
    rwa [List.take_length] at hgone

end Steps

end Session

end Percolator
