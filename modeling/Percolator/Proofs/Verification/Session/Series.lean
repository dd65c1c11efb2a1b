import Percolator.Proofs.Verification.Session.Agreement
import Percolator.Proofs.Verification.Session.Delivery

/-!
# Callers that go on

A caller offers one verdict after the other, and may enter failures between its calls. When a call
is refused, all workers had failed, the pool is given up and the call is answered with a fatal
fault; but the caller may go on, and the next call begins another session with the ledger that is
there. So the life of a coordinator is a series of sessions, of which all but the last one ended
with a call that was refused.

What the last session returns tells nothing of the sessions before. It holds the failures that the
caller entered, and all verdicts that were accepted since the last call that was refused.

## Main definitions

* `Series` : a session with those before it, and what the caller did.
* `Session.Refused` : a session that ended with a call that was refused.
* `Series.Step`, `Series.Reaches` : one step of the caller or of a session, and what they lead to.

## Main results

* `Series.Invariant.step` : every step keeps the invariant of a series.
* `Series.exists_reaches_finish` : the pooled engine does what a series does.
* `Series.keeps_accepted` : what a series returns.
-/

namespace Percolator

variable {α : Type} {σ : Type}

/-! ### Calls -/

/-- The coordinator waits for a call. -/
inductive Phase.Idle : Phase α → Prop
  | fresh : Idle (.fresh [])
  | offering : Idle (.offering [])

/-- The coordinator is offered another verdict. -/
def Phase.offer (v : Verdict α) : Phase α → Phase α
  | .fresh rest => .fresh (rest ++ [v])
  | .offering rest => .offering (rest ++ [v])
  | phase => phase

namespace Session

/-- The session in which another verdict is offered. -/
def offer (v : Verdict α) (c : Session σ α) : Session σ α := { c with phase := c.phase.offer v }

/-- The session in which the caller enters a failure. -/
def report (f : Failure) (c : Session σ α) : Session σ α := { c with ledger := c.ledger.report f }

/-- The last call was refused, and answered with the fatal fault that the session came to. All
workers had failed. -/
structure Refused (c : Session σ α) : Prop where
  failed : ∀ hand ∈ c.hands, hand.HasFailed
  answered : ∃ accepted fault, fault.isFatal = true ∧ c.phase = .returned (.error fault) ∧
    c.answers = accepted ++ [.error fault] ∧ ∀ answer ∈ accepted, answer = .ok none

/-- All calls so far were accepted, or the last one was refused and nothing was merged. -/
def Answered (ledger : Ledger α) (c : Session σ α) : Prop :=
  (∀ answer ∈ c.answers, answer = .ok none) ∨ c.Refused ∧ c.ledger = ledger

section Invariant

variable {settings : PoolSettings} {e : Engine α} {ledger : Ledger α} {vs : List (Verdict α)}
  {c c' : Session e.State α}

private theorem Invariant.offer (hinv : Invariant settings e ledger vs c) (h : c.phase.Idle)
    (v : Verdict α) : Invariant settings e ledger (vs ++ [v]) (c.offer v) := by
  have hphase := hinv.phase
  refine ⟨hinv.sound, hinv.spread, hinv.ordered, hinv.drained, ?_⟩
  rw [Session.offer]
  cases hp : c.phase with
  | fresh rest =>
    simp only [hp] at hphase
    simp only [Phase.offer]
    exact { hphase with rest := congrArg (· ++ [v]) hphase.rest }
  | offering rest =>
    simp only [hp] at hphase
    simp only [Phase.offer]
    have hoffered : c.sent ++ (rest ++ [v]) = vs ++ [v] := by
      rw [← List.append_assoc, hphase.offered]
    exact { hphase with offered := hoffered }
  | _ => rw [hp] at h; cases h

theorem Invariant.report (hinv : Invariant settings e ledger vs c) (h : c.phase.Idle)
    (f : Failure) : Invariant settings e (ledger.report f) vs (c.report f) := by
  have hphase := hinv.phase
  refine ⟨hinv.sound, hinv.spread, hinv.ordered, hinv.drained, ?_⟩
  rw [Session.report]
  cases hp : c.phase with
  | fresh rest =>
    simp only [hp] at hphase ⊢
    exact { hphase with ledger := congrArg (Ledger.report f) hphase.ledger }
  | offering rest =>
    simp only [hp] at hphase ⊢
    exact { hphase with ledger := congrArg (Ledger.report f) hphase.ledger }
  | _ => rw [hp] at h; cases h

/-- A session that has returned takes no more steps. -/
private theorem Invariant.not_step (hinv : Invariant settings e ledger vs c)
    {result : Except Fault (Ledger α)} (h : c.phase = .returned result) :
    ¬Step settings e c c' := by
  have hphase := hinv.phase
  simp only [h] at hphase
  intro hstep
  cases hstep with
  | @hand front hand behind _ _ hhands hhand =>
    have hmem : hand ∈ c.hands := hhands ▸ List.mem_append_right front List.mem_cons_self
    exact hhand.not_isGone (hphase.gone hand hmem)
  | _ => simp_all only [reduceCtorEq]

/-- A call that is refused is answered with the fault of a worker, and nothing is merged. -/
theorem Invariant.refused (hinv : Invariant settings e ledger vs c) {failure : Option Error}
    (h : c.phase = .joining c.hands.length failure true)
    (haccepted : ∀ answer ∈ c.answers, answer = .ok none) :
    Refused { c with
      phase := .returned (Phase.result c.ledger failure true)
      answers := c.answers ++ [.error (.error (failure.getD .workersGone))] } ∧
      c.ledger = ledger := by
  have hphase := hinv.phase
  simp only [h] at hphase
  have hcollected := hphase.collected
  rw [List.take_length] at hcollected
  have hfailed : ∀ hand ∈ c.hands, hand.HasFailed := by
    intro hand hhand
    obtain ⟨⟨fault | l, hstatus⟩, hdone⟩ := hphase.undone rfl hand hhand
    · exact ⟨fault, hstatus⟩
    · exact absurd ⟨l, .inr hstatus⟩ hdone
  have hfatal := hinv.isFatal_collect ledger 0
  rw [hcollected] at hfatal
  have hnone : ∀ w ∈ c.hands.map Hand.worker, w.ledger? = none :=
    List.forall_mem_map.mpr fun hand hhand =>
      Hand.ledger?_worker_eq_none (hphase.undone rfl hand hhand).2
  have hledger : c.ledger = ledger :=
    (congrArg Prod.snd hcollected).symm.trans (Pool.collect_snd_of_ledger?_eq_none hnone)
  have hresult : Phase.result c.ledger failure true =
      .error (.error (failure.getD .workersGone)) := by
    cases failure <;> rfl
  exact ⟨⟨hfailed, c.answers, .error (failure.getD .workersGone), hfatal,
    congrArg Phase.returned hresult, rfl, haccepted⟩, hledger⟩

/-- Every step of a session answers a call in one of the two ways. -/
private theorem Invariant.answered_step (hinv : Invariant settings e ledger vs c)
    (hanswered : c.Answered ledger) (h : Step settings e c c') : c'.Answered ledger := by
  rcases hanswered with haccepted | ⟨hrefused, -⟩
  · cases h with
    | send =>
      refine .inl (List.forall_mem_append.mpr ⟨haccepted, ?_⟩)
      exact List.forall_mem_singleton.mpr rfl
    | @answer failure refused h =>
      cases refused with
      | false => exact .inl haccepted
      | true => exact .inr (hinv.refused h haccepted)
    | _ => exact .inl haccepted
  · obtain ⟨_, fault, -, hreturned, -⟩ := hrefused.answered
    exact absurd h (hinv.not_step hreturned)

end Invariant

end Session

/-- What a caller does between the beginning and the end of a run. -/
inductive Demand (α : Type) where
  | verify (v : Verdict α)
  | report (f : Failure)

/-- The failure that a caller enters. -/
def Demand.failure? : Demand α → Option Failure
  | .verify _ => none
  | .report f => some f

/-- The state to which the caller brings an engine. The caller goes on, whatever the engine answers
to it. -/
def Engine.meet (e : Engine α) (s : e.State) : Demand α → e.State
  | .verify v => (e.accept v s).2
  | .report f => e.modify (·.report f) s

/-! ### Series of sessions -/

/-- The life of a coordinator. -/
structure Series (σ α : Type) where
  /-- The session that goes on. -/
  session : Session σ α
  /-- The verdicts that were offered in it. -/
  offered : List (Verdict α) := []
  /-- The failures that the caller has entered. -/
  reported : List Failure := []
  /-- The sessions that ended with a call that was refused. -/
  earlier : List (Session σ α) := []

namespace Series

/-- A coordinator that was not called. -/
def start (e : Engine α) (slowLimit : Nat) : Series e.State α where
  session := .begin e.State (({} : Ledger α).limit slowLimit) []

/-- One step of the caller or of the session that goes on. The caller may go on after a call that
was refused. -/
inductive Step (settings : PoolSettings) (e : Engine α) (s : Series e.State α) :
    Series e.State α → Prop
  | offer (v : Verdict α) (h : s.session.phase.Idle) :
    Step settings e s { s with session := s.session.offer v, offered := s.offered ++ [v] }
  | report (f : Failure) (h : s.session.phase.Idle) :
    Step settings e s { s with session := s.session.report f, reported := s.reported ++ [f] }
  | session {c} (h : Session.Step settings e s.session c) :
    Step settings e s { s with session := c }
  | again {fault} (h : s.session.phase = .returned (.error fault))
    (hrefused : .error fault ∈ s.session.answers) :
    Step settings e s {
      session := .begin e.State s.session.ledger []
      reported := s.reported
      earlier := s.earlier ++ [s.session] }

/-- Steps lead from a coordinator that was not called to the series. -/
abbrev Reaches (settings : PoolSettings) (e : Engine α) (slowLimit : Nat) :
    Series e.State α → Prop :=
  Relation.ReflTransGen (Step settings e) (start e slowLimit)

/-- The ledger with nothing but the failures that the caller entered. -/
def base (slowLimit : Nat) (reported : List Failure) : Ledger α :=
  reported.foldl (fun l f => l.report f) (({} : Ledger α).limit slowLimit)

section Base

variable {slowLimit : Nat} {reported : List Failure}

private theorem base_concat {f : Failure} :
    (base slowLimit (reported ++ [f]) : Ledger α) = (base slowLimit reported).report f :=
  List.foldl_concat _ _ _ _

private theorem base_spec : (base slowLimit reported : Ledger α).found = ∅ ∧
    (base slowLimit reported : Ledger α).slowLimit = slowLimit := by
  induction reported using List.reverseRecOn with
  | nil => exact ⟨rfl, rfl⟩
  | append_singleton rest f ih =>
    rw [base_concat]
    exact ih

end Base

/-- What holds in a series. -/
structure Invariant (settings : PoolSettings) (e : Engine α) (slowLimit : Nat)
    (s : Series e.State α) : Prop where
  session : s.session.Invariant settings e (base slowLimit s.reported) s.offered
  answered : s.session.Answered (base slowLimit s.reported)
  earlier : ∀ c ∈ s.earlier, c.Refused

variable {settings : PoolSettings} {e : Engine α} {slowLimit : Nat} {s s' : Series e.State α}

theorem Invariant.start : Invariant settings e slowLimit (start e slowLimit) where
  session := Session.Invariant.begin
  answered := .inl fun _ h => absurd h List.not_mem_nil
  earlier _ h := absurd h List.not_mem_nil

theorem Invariant.refused (hinv : Invariant settings e slowLimit s) {fault : Fault}
    (h : .error fault ∈ s.session.answers) :
    s.session.Refused ∧ s.session.ledger = base slowLimit s.reported := by
  rcases hinv.answered with haccepted | hrefused
  · exact absurd (haccepted _ h) nofun
  · exact hrefused

/-- A caller calls only while all calls were accepted. -/
private theorem Invariant.accepted_of_idle (hinv : Invariant settings e slowLimit s)
    (h : s.session.phase.Idle) : ∀ answer ∈ s.session.answers, answer = .ok none := by
  rcases hinv.answered with haccepted | ⟨hrefused, -⟩
  · exact haccepted
  · obtain ⟨_, fault, -, hreturned, -⟩ := hrefused.answered
    rw [hreturned] at h
    cases h

/-- Every step keeps the invariant. -/
theorem Invariant.step (hthreads : 0 < settings.threads) (hinv : Invariant settings e slowLimit s)
    (h : Step settings e s s') : Invariant settings e slowLimit s' := by
  cases h with
  | offer v h =>
    exact ⟨hinv.session.offer h v, .inl (hinv.accepted_of_idle h), hinv.earlier⟩
  | report f h =>
    refine ⟨?_, .inl (hinv.accepted_of_idle h), hinv.earlier⟩
    rw [base_concat]
    exact hinv.session.report h f
  | session h =>
    exact ⟨hinv.session.step hthreads h, hinv.session.answered_step hinv.answered h, hinv.earlier⟩
  | again h hrefused =>
    obtain ⟨hrefused, hledger⟩ := hinv.refused hrefused
    refine ⟨?_, .inl fun _ hanswer => absurd hanswer List.not_mem_nil, ?_⟩
    · rw [hledger]
      exact Session.Invariant.begin
    · exact List.forall_mem_append.mpr ⟨hinv.earlier, List.forall_mem_singleton.mpr hrefused⟩

theorem Reaches.invariant (hthreads : 0 < settings.threads)
    (h : Reaches settings e slowLimit s) : Invariant settings e slowLimit s := by
  induction h with
  | refl => exact .start
  | tail _ hstep ih => exact ih.step hthreads hstep

theorem Reaches.steps (h : Reaches settings e slowLimit s) {c : Session e.State α}
    (hsteps : Session.Steps settings e s.session c) :
    Reaches settings e slowLimit { s with session := c } := by
  induction hsteps with
  | refl => exact h
  | tail _ hstep ih => exact ih.tail (.session hstep)

/-! ### Calls of the pooled engine -/

section Pooled

variable {state : (Engine.pooled settings e).State}

/-- The pooled engine is in the state to which the series has come between two calls. -/
inductive Follows (settings : PoolSettings) (e : Engine α) (slowLimit : Nat)
    (s : Series e.State α) : (Engine.pooled settings e).State → Prop
  | fresh (h : s.session.phase = .fresh []) :
    Follows settings e slowLimit s (PooledRun.mk (base slowLimit s.reported) none)
  | offering {p} (hbounded : p.Bounded settings)
    (h : Session.Mirrors (.offering []) (base slowLimit s.reported) p s.session) :
    Follows settings e slowLimit s (PooledRun.mk (base slowLimit s.reported) (some p))

theorem Follows.start :
    Follows settings e slowLimit (start e slowLimit)
      ((Engine.pooled settings e).startWith slowLimit) :=
  .fresh rfl

/-- With a pool, the engine takes a verdict as a series does that is offered it, and begins anew
when the verdict is refused. -/
private theorem exists_follows_accept (hthreads : 0 < settings.threads)
    (hcapacity : 0 < settings.capacity) (hs : Reaches settings e slowLimit s) {v : Verdict α}
    {p : Pool e.State α} (hbounded : p.Bounded settings)
    (h : Session.Mirrors (.offering [v]) (base slowLimit s.reported) p s.session) :
    ∃ s', Reaches settings e slowLimit s' ∧ s'.reported = s.reported ∧
      Follows settings e slowLimit s' ((Engine.pooled settings e).accept v
        { ledger := base slowLimit s.reported, pool := some p }).2 := by
  have hinv := (hs.invariant hthreads).session
  rcases h.accept hthreads hcapacity hinv hbounded with
    ⟨p', c, haccept, hbounded', hsteps, hmirrors⟩ |
      ⟨fault, c, haccept, -, hsteps, hreturned, hrefused⟩
  · refine ⟨_, hs.steps hsteps, rfl, ?_⟩
    rw [haccept]
    exact .offering hbounded' hmirrors
  · have hagain : Reaches settings e slowLimit _ :=
      (hs.steps hsteps).tail (.again hreturned hrefused)
    refine ⟨_, hagain, rfl, ?_⟩
    rw [haccept]
    exact .fresh rfl

theorem Follows.accept (hthreads : 0 < settings.threads) (hcapacity : 0 < settings.capacity)
    (hs : Reaches settings e slowLimit s) (h : Follows settings e slowLimit s state)
    (v : Verdict α) : ∃ s', Reaches settings e slowLimit s' ∧ s'.reported = s.reported ∧
      Follows settings e slowLimit s' ((Engine.pooled settings e).accept v state).2 := by
  cases h with
  | fresh h =>
    have hphase := (hs.invariant hthreads).session.phase
    simp only [h] at hphase
    have hidle : s.session.phase.Idle := h ▸ .fresh
    have hoffered : (s.session.offer v).phase = .fresh [v] := by
      simp only [Session.offer, h, Phase.offer, List.nil_append]
    have hstarted : Reaches settings e slowLimit _ :=
      (hs.tail (.offer v hidle)).tail (.session (.start hoffered))
    have hfresh : Session.Mirrors (.offering [v]) (base slowLimit s.reported)
        (.fresh settings (e.startWith s.session.ledger.slowLimit)) _ :=
      .fresh (c := s.session.offer v) hphase.queue hphase.ledger _
    have hfollows := exists_follows_accept hthreads hcapacity hstarted ⟨rfl, Nat.zero_le _⟩ hfresh
    rwa [hphase.ledger] at hfollows
  | offering hbounded h =>
    have hidle : s.session.phase.Idle := h.phase ▸ .offering
    have hoffered : (s.session.offer v).phase = .offering [v] := by
      simp only [Session.offer, h.phase, Phase.offer, List.nil_append]
    exact exists_follows_accept hthreads hcapacity (hs.tail (.offer v hidle)) hbounded
      ⟨hoffered, h.ledger, h.queue, h.workers, h.settled⟩

theorem Follows.report (hs : Reaches settings e slowLimit s)
    (h : Follows settings e slowLimit s state) (f : Failure) :
    ∃ s', Reaches settings e slowLimit s' ∧ s'.reported = s.reported ++ [f] ∧
      Follows settings e slowLimit s' ((Engine.pooled settings e).modify (·.report f) state) := by
  cases h with
  | fresh h =>
    refine ⟨_, hs.tail (.report f (h ▸ .fresh)), rfl, ?_⟩
    have hfresh : Follows settings e slowLimit
        { s with session := s.session.report f, reported := s.reported ++ [f] } _ := .fresh h
    rwa [base_concat] at hfresh
  | offering hbounded h =>
    refine ⟨_, hs.tail (.report f (h.phase ▸ .offering)), rfl, ?_⟩
    have hmirrors : Session.Mirrors (.offering []) (base slowLimit (s.reported ++ [f])) _
        (s.session.report f) :=
      ⟨h.phase, base_concat ▸ congrArg (Ledger.report f) h.ledger, h.queue, h.workers, h.settled⟩
    have hoffering : Follows settings e slowLimit
        { s with session := s.session.report f, reported := s.reported ++ [f] } _ :=
      .offering hbounded hmirrors
    rwa [base_concat] at hoffering

theorem Follows.finish (hthreads : 0 < settings.threads) (hcapacity : 0 < settings.capacity)
    (hs : Reaches settings e slowLimit s) (h : Follows settings e slowLimit s state) :
    ∃ s', Reaches settings e slowLimit s' ∧ s'.reported = s.reported ∧
      s'.session.phase = .returned ((Engine.pooled settings e).finish state) := by
  have hinv := (hs.invariant hthreads).session
  cases h with
  | fresh h =>
    have hphase := hinv.phase
    simp only [h] at hphase
    exact ⟨_, hs.tail (.session (.idle h)), rfl, congrArg (Phase.returned ∘ .ok) hphase.ledger⟩
  | offering hbounded h =>
    obtain ⟨c, hsteps, hreturned⟩ := h.exists_steps hthreads hcapacity hinv hbounded
    exact ⟨_, hs.steps hsteps, rfl, hreturned⟩

/-- Whatever the caller does, the pooled engine does what a series does. -/
theorem exists_reaches_finish (hthreads : 0 < settings.threads) (hcapacity : 0 < settings.capacity)
    (demands : List (Demand α)) : ∃ s, Reaches settings e slowLimit s ∧
      s.reported = demands.filterMap Demand.failure? ∧
      s.session.phase = .returned ((Engine.pooled settings e).finish
        (demands.foldl (Engine.pooled settings e).meet
          ((Engine.pooled settings e).startWith slowLimit))) := by
  have hfollows : ∃ s, Reaches settings e slowLimit s ∧
      s.reported = demands.filterMap Demand.failure? ∧
        Follows settings e slowLimit s (demands.foldl (Engine.pooled settings e).meet
          ((Engine.pooled settings e).startWith slowLimit)) := by
    induction demands using List.reverseRecOn with
    | nil => exact ⟨_, .refl, rfl, .start⟩
    | append_singleton rest demand ih =>
      obtain ⟨s, hs, hreported, hfollows⟩ := ih
      rw [List.foldl_concat, List.filterMap_append, ← hreported]
      cases demand with
      | verify v =>
        obtain ⟨s', hs', hreported', hfollows'⟩ := hfollows.accept hthreads hcapacity hs v
        exact ⟨s', hs', hreported'.trans (List.append_nil _).symm, hfollows'⟩
      | report f => exact hfollows.report hs f
  obtain ⟨s, hs, hreported, hfollows⟩ := hfollows
  obtain ⟨s', hs', hreported', hreturned⟩ := hfollows.finish hthreads hcapacity hs
  exact ⟨s', hs', hreported'.trans hreported, hreturned⟩

end Pooled

/-! ### What a series returns -/

/-- Every session before the last one ended with a call that was answered with a fatal fault. If the
last one returns a ledger, then all its calls were accepted, none of its verdicts is fatal, and the
ledger is that of one run that records the failures of the caller and all these verdicts. -/
structure Keeps (combine : Match α → Match α → Match α) (slowLimit : Nat) (s : Series σ α) :
    Prop where
  earlier : ∀ c ∈ s.earlier, c.Refused
  answers : ∀ l, s.session.phase = .returned (.ok l) →
    s.session.answers = s.offered.map fun _ => .ok none
  fatal : ∀ l, s.session.phase = .returned (.ok l) → ∀ v ∈ s.offered, v.isFatal = false
  ledger : ∀ l, s.session.phase = .returned (.ok l) →
    l.Agrees (s.offered.foldl (Ledger.record combine) (base slowLimit s.reported))

theorem Invariant.keeps {combine : Match α → Match α → Match α} {P : Match α → Prop}
    (h : Combines combine P) {s : Series (Ledger α) α}
    (hinv : Invariant settings (.direct combine) slowLimit s)
    (hfound : ∀ v ∈ s.offered, ∀ m ∈ v.found, P m) : s.Keeps combine slowLimit := by
  have hreturns : ∀ l, s.session.phase = .returned (.ok l) →
      s.session.answers = s.offered.map (fun _ => .ok none) ∧
        (∀ v ∈ s.offered, v.isFatal = false) ∧
          l.Agrees (s.offered.foldl (Ledger.record combine) (base slowLimit s.reported)) := by
    intro l hreturned
    have hphase := hinv.session.phase
    simp only [hreturned] at hphase
    have hfatal : ∀ v ∈ s.offered, v.isFatal = false := by
      intro v hv
      by_contra hv'
      obtain ⟨fault, hfault, -⟩ :=
        hphase.outcome.isFatal ⟨v, hv, Bool.eq_true_of_not_eq_false hv'⟩
      simp only [reduceCtorEq] at hfault
    obtain ⟨hanswers, l', hl', hagrees⟩ := hphase.outcome.agrees h base_spec.1 hfound hfatal
    obtain rfl := Except.ok.inj hl'
    exact ⟨hanswers, hfatal, hagrees⟩
  exact ⟨hinv.earlier, fun l hl => (hreturns l hl).1, fun l hl => (hreturns l hl).2.1,
    fun l hl => (hreturns l hl).2.2⟩

/-- In whatever order the caller, the coordinator and the workers take their steps, nothing that was
accepted is lost but in sessions that ended with a call that was refused; and whatever the caller
does, the pooled engine takes the steps in one of these orders. -/
theorem keeps_accepted {S : Strategy α} (hS : S.BuiltIn) {settings : PoolSettings}
    (hsettings : settings.validate = .ok settings) (slowLimit : Nat) :
    (∀ s : Series (Ledger α) α, Reaches settings (.direct S.combine) slowLimit s →
      (∀ v ∈ s.offered, ∀ known, v.result = .ok (some known) → S.Finds known) →
        s.Keeps S.combine slowLimit) ∧
      ∀ demands : List (Demand α), ∃ s, Reaches settings (.direct S.combine) slowLimit s ∧
        s.reported = demands.filterMap Demand.failure? ∧
        s.session.phase = .returned ((Engine.pooled settings (.direct S.combine)).finish
          (demands.foldl (Engine.pooled settings (.direct S.combine)).meet
            ((Engine.pooled settings (.direct S.combine)).startWith slowLimit))) := by
  obtain ⟨hthreads, hcapacity⟩ := PoolSettings.pos_of_validate hsettings
  obtain ⟨P, hcombines, hP⟩ := hS.combines
  refine ⟨fun s hs hfinds => ?_, exists_reaches_finish hthreads hcapacity⟩
  refine (hs.invariant hthreads).keeps hcombines fun v hv m hm => ?_
  obtain ⟨known, hresult, rfl⟩ := Verdict.mem_found_iff.mp hm
  exact hP _ (hfinds v hv known hresult)

/-! ### A caller that goes on -/

/-- The error of an index that was closed. -/
def indexClosed : Error := .foreign .interrupted "index closed"

/-- A verdict that ends a run. -/
def fatalVerdict : Verdict Unit := ⟨"q", .error (.error indexClosed), 0⟩

/-- The match of a query. -/
def matchOf (id : String) : Verdict Unit := ⟨id, .ok (some ()), 0⟩

/-- One worker at a queue with room for two messages. -/
def oneWorker : PoolSettings := ⟨1, 2⟩

/-- The engine whose only worker reaches matches by themselves. -/
abbrev simpleEngine : Engine Unit := .direct Strategy.simple.combine

/-- The only worker of a session takes a step. -/
theorem Reaches.hand (h : Reaches settings e slowLimit s) {queue : List (Message α)}
    {hand hand' : Hand e.State α} (hhands : s.session.hands = [hand])
    (hstep : Hand.Step e s.session.phase.isClosed s.session.queue hand queue hand') :
    Reaches settings e slowLimit
      { s with session := { s.session with queue := queue, hands := [hand'] } } :=
  h.tail (.session (@Session.Step.hand _ _ _ _ [] _ [] _ _ hhands hstep))

/-- The only worker stops at the fatal verdict while a match waits behind it, and the next call is
refused. -/
private theorem reaches_refused : ∃ s, Reaches oneWorker simpleEngine 0 s ∧
    s.session.phase = .returned (.error (.error indexClosed)) ∧
    s.session.answers = [.ok none, .ok none, .error (.error indexClosed)] ∧
    s.session.sent = [fatalVerdict, matchOf "w"] ∧
    s.session.ledger = ({} : Ledger Unit).limit 0 ∧ s.reported = [] ∧ s.earlier = [] := by
  have hoffer : Reaches oneWorker simpleEngine 0 _ := .tail .refl (.offer fatalVerdict .fresh)
  have hstart : Reaches oneWorker simpleEngine 0 _ := hoffer.tail (.session (.start rfl))
  have hsend : Reaches oneWorker simpleEngine 0 _ :=
    hstart.tail (.session (.send rfl Nat.zero_lt_two ⟨_, List.mem_singleton.mpr rfl, nofun⟩))
  have hsecond : Reaches oneWorker simpleEngine 0 _ := hsend.tail (.offer (matchOf "w") .offering)
  have hqueued : Reaches oneWorker simpleEngine 0 _ :=
    hsecond.tail (.session (.send rfl Nat.one_lt_two ⟨_, List.mem_singleton.mpr rfl, nofun⟩))
  have htake : Reaches oneWorker simpleEngine 0 _ := hqueued.hand rfl .take
  have hfail : Reaches oneWorker simpleEngine 0 _ := htake.hand rfl (.fail rfl)
  have hleave : Reaches oneWorker simpleEngine 0 _ := hfail.hand rfl .leave
  have hnext : Reaches oneWorker simpleEngine 0 _ := hleave.tail (.offer (matchOf "r") .offering)
  have hrefuse : Reaches oneWorker simpleEngine 0 _ :=
    hnext.tail (.session (.refuse rfl (List.forall_mem_singleton.mpr ⟨_, rfl⟩)))
  have hjoin : Reaches oneWorker simpleEngine 0 _ := hrefuse.tail (.session (.fail rfl rfl rfl))
  have hanswer : Reaches oneWorker simpleEngine 0 _ := hjoin.tail (.session (.answer rfl))
  exact ⟨_, hanswer, rfl, rfl, rfl, rfl, rfl, rfl⟩

/-- The caller enters the failure and goes on with another session, in which a match is found. -/
private theorem reaches_afterRefused : ∃ s l, Reaches oneWorker simpleEngine 0 s ∧
    (∃ c ∈ s.earlier, c.sent = [fatalVerdict, matchOf "w"]) ∧ s.offered = [matchOf "s"] ∧
    s.session.phase = .returned (.ok l) := by
  obtain ⟨s, hs, hreturned, hanswers, hsent, hledger, hreported, hearlier⟩ := reaches_refused
  have hrefused : .error (.error indexClosed) ∈ s.session.answers := by
    rw [hanswers]
    exact List.mem_of_getElem? (rfl : _[2]? = _)
  have hagain : Reaches oneWorker simpleEngine 0 _ := hs.tail (.again hreturned hrefused)
  rw [hledger, hreported, hearlier] at hagain
  have hreport : Reaches oneWorker simpleEngine 0 _ :=
    hagain.tail (.report ⟨"r", indexClosed⟩ .fresh)
  have hoffer : Reaches oneWorker simpleEngine 0 _ := hreport.tail (.offer (matchOf "s") .fresh)
  have hstart : Reaches oneWorker simpleEngine 0 _ := hoffer.tail (.session (.start rfl))
  have hsend : Reaches oneWorker simpleEngine 0 _ :=
    hstart.tail (.session (.send rfl Nat.zero_lt_two ⟨_, List.mem_singleton.mpr rfl, nofun⟩))
  have htake : Reaches oneWorker simpleEngine 0 _ := hsend.hand rfl .take
  have henter : Reaches oneWorker simpleEngine 0 _ := htake.hand rfl (.enter rfl)
  have hfinish : Reaches oneWorker simpleEngine 0 _ := henter.tail (.session (.finish rfl))
  have hsendStop : Reaches oneWorker simpleEngine 0 _ :=
    hfinish.tail (.session (.sendStop rfl Nat.zero_lt_two ⟨_, List.mem_singleton.mpr rfl, nofun⟩))
  have hstop : Reaches oneWorker simpleEngine 0 _ := hsendStop.hand rfl .stop
  have hleave : Reaches oneWorker simpleEngine 0 _ := hstop.hand rfl .leave
  have hclose : Reaches oneWorker simpleEngine 0 _ := hleave.tail (.session (.close rfl))
  have hmerge : Reaches oneWorker simpleEngine 0 _ := hclose.tail (.session (.merge rfl rfl rfl))
  have hanswer : Reaches oneWorker simpleEngine 0 _ := hmerge.tail (.session (.answer rfl))
  exact ⟨_, _, hanswer, ⟨_, List.mem_singleton.mpr rfl, hsent⟩, rfl, rfl⟩

/-- The match of the last session is returned, whereas the one that waited in the session before is
not. -/
theorem keeps_accepted_afterRefused : oneWorker.validate = .ok oneWorker ∧ ∃ s l,
    Reaches oneWorker simpleEngine 0 s ∧
      (∃ c ∈ s.earlier, c.sent = [fatalVerdict, matchOf "w"]) ∧
      (∀ v ∈ s.offered, ∀ known, v.result = .ok (some known) → Strategy.simple.Finds known) ∧
      s.session.phase = .returned (.ok l) ∧ s.Keeps Strategy.simple.combine 0 := by
  obtain ⟨s, l, hreaches, hearlier, -, hreturned⟩ := reaches_afterRefused
  have hfinds : ∀ v ∈ s.offered, ∀ known, v.result = .ok (some known) →
      Strategy.simple.Finds known := fun _ _ _ _ => ⟨{}, ⟨"", .all 1, none⟩, rfl⟩
  have hkeeps : s.Keeps Strategy.simple.combine 0 :=
    (keeps_accepted .simple rfl 0).1 s hreaches hfinds
  exact ⟨rfl, s, l, hreaches, hearlier, hfinds, hreturned, hkeeps⟩

/-- The engine accepts a verdict at which its worker stops, and a match behind it. It refuses the
next verdict and goes on with another one, and then returns a ledger without error: it holds the
match that came last and the failure that the caller entered, and nothing of what was accepted
first. -/
theorem pooled_forgets :
    let pool := Engine.pooled oneWorker simpleEngine
    ∃ s₁ s₂ s₃ s₄ l, pool.accept fatalVerdict pool.start = (.ok none, s₁) ∧
      pool.accept (matchOf "w") s₁ = (.ok none, s₂) ∧
      pool.accept (matchOf "r") s₂ = (.error (.error indexClosed), s₃) ∧
      pool.accept (matchOf "s") (pool.modify (·.report ⟨"r", indexClosed⟩) s₃) =
        (.ok none, s₄) ∧
      pool.finish s₄ = .ok l ∧ l.found.keys = ["s"] ∧ l.failures = [⟨"r", indexClosed⟩] :=
  ⟨_, _, _, _, _, rfl, rfl, rfl, rfl, rfl, rfl, rfl⟩

end Series

end Percolator
