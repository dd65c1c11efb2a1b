import Percolator.Proofs.Verification.Packages
import Percolator.Proofs.Verification.Session.Agreement

/-!
# Wrappers around wrappers

The pooled and the packaged engine are wrappers: they put verdicts off, spread them over runs of the
engine inside, and merge what each of these runs has in hand when it took its last verdict. The
direct engine has everything in hand then. A wrapper has nothing in hand before it is finished, and
the runs inside of another wrapper never are. So one wrapper reports what the direct engine reports,
and a wrapper around a wrapper reports nothing.

## Main definitions

* `Wraps` : so many wrappers, each around the one before, around the direct engine.
* `inHand` : what a run has in hand before it is finished.
* `Reports` : what a run reports when it is finished.

## Main results

* `Wraps.ledgerOf_eq` : what an engine in wrappers has in hand.
* `Wraps.reports` : what an engine in wrappers reports.
* `wrapped_reports` : what another wrapper around it reports, in whatever order its steps are taken.
-/

namespace Percolator

variable {α : Type} {combine : Match α → Match α → Match α} {slowLimit n : Nat} {e : Engine α}
  {vs : List (Verdict α)} {P : Match α → Prop}

/-- The engine is the direct one in `n` wrappers. -/
inductive Wraps (combine : Match α → Match α → Match α) : Nat → Engine α → Prop
  | direct : Wraps combine 0 (.direct combine)
  | pooled {n e settings} (h : Wraps combine n e) (hsettings : settings.validate = .ok settings) :
    Wraps combine (n + 1) (.pooled settings e)
  | packaged {n e settings} (h : Wraps combine n e)
    (hsettings : settings.validate = .ok settings) : Wraps combine (n + 1) (.packaged settings e)

theorem Wraps.combine_eq (h : Wraps combine n e) : e.combine = combine := by
  induction h with
  | direct => rfl
  | pooled h hsettings ih => exact ih
  | packaged h hsettings ih => exact ih

/-- What a run in `n` wrappers has in hand before it is finished. -/
def inHand (combine : Match α → Match α → Match α) (slowLimit : Nat) (vs : List (Verdict α)) :
    Nat → Ledger α
  | 0 => vs.foldl (Ledger.record combine) (({} : Ledger α).limit slowLimit)
  | _ + 1 => ({} : Ledger α).limit slowLimit

/-- What a run in `n` wrappers reports: all verdicts, up to order, unless a wrapper is around a
wrapper. -/
def Reports (combine : Match α → Match α → Match α) (slowLimit : Nat) (vs : List (Verdict α)) :
    Nat → Ledger α → Prop
  | 0, l => l.Agrees (vs.foldl (Ledger.record combine) (({} : Ledger α).limit slowLimit))
  | 1, l => l.Agrees (vs.foldl (Ledger.record combine) (({} : Ledger α).limit slowLimit))
  | _ + 2, l => l = ({} : Ledger α).limit slowLimit

/-! ### What runs have in hand -/

namespace Session

variable {settings : PoolSettings} {p : Pool e.State α} {ledger : Ledger α}
  {c : Session e.State α}

/-- If no run inside fails, a pool accepts all verdicts, and the ledger stays what it is. -/
theorem Mirrors.exists_runAll {rest : List (Verdict α)} (hthreads : 0 < settings.threads)
    (hcapacity : 0 < settings.capacity) (hruns : ∀ part, (∀ v ∈ part, v ∈ vs) →
      ∃ l, Package.ledgerOf e ledger.slowLimit part = .ok l)
    (hinv : Invariant settings e ledger vs c) (hbounded : p.Bounded settings)
    (h : Mirrors (.offering rest) ledger p c) :
    ∃ p', (Engine.pooled settings e).runAll { ledger, pool := some p } rest =
      .ok { ledger, pool := some p' } := by
  induction rest generalizing p c with
  | nil => exact ⟨p, rfl⟩
  | cons v rest ih =>
    rcases h.accept hthreads hcapacity hinv hbounded with
      ⟨p', c', haccept, hbounded', hsteps, h'⟩ | ⟨fault, c', -, -, hsteps, hreturned, -⟩
    · obtain ⟨p'', hrest⟩ := ih (hinv.steps hthreads hsteps) hbounded' h'
      refine ⟨p'', ?_⟩
      simp only [Engine.runAll, Engine.run, haccept, hrest]
    · have hphase := (hinv.steps hthreads hsteps).phase
      simp only [hreturned] at hphase
      obtain ⟨_, _, _, hresult⟩ := hphase.outcome.exists_runs hruns
      simp only [reduceCtorEq] at hresult

/-- The pooled engine comes to an outcome of a session. -/
theorem exists_outcome_pooled (hthreads : 0 < settings.threads)
    (hcapacity : 0 < settings.capacity) : ∃ answers,
      Outcome e (({} : Ledger α).limit slowLimit) vs answers ((Engine.pooled settings e).conclude
        ((Engine.pooled settings e).startWith slowLimit) vs) := by
  obtain ⟨c, hsteps, hreturned⟩ := @exists_steps_pooled _ settings e slowLimit vs hthreads hcapacity
  have hphase := (Invariant.begin.steps hthreads hsteps).phase
  simp only [hreturned] at hphase
  exact ⟨c.answers, hphase.outcome⟩

end Session

/-- If no run inside fails, a pool that is not finished has nothing in hand. -/
theorem ledgerOf_pooled {settings : PoolSettings} (hthreads : 0 < settings.threads)
    (hcapacity : 0 < settings.capacity) (hruns : ∀ part, (∀ v ∈ part, v ∈ vs) →
      ∃ l, Package.ledgerOf e slowLimit part = .ok l) :
    Package.ledgerOf (.pooled settings e) slowLimit vs = .ok (({} : Ledger α).limit slowLimit) := by
  cases vs with
  | nil => rfl
  | cons v rest =>
    have hinv : Session.Invariant settings e (({} : Ledger α).limit slowLimit) (v :: rest) _ :=
      .begin
    have hstart : Session.Step settings e
        (Session.begin e.State (({} : Ledger α).limit slowLimit) (v :: rest)) _ := .start rfl
    have hfresh : Session.Mirrors (.offering (v :: rest)) (({} : Ledger α).limit slowLimit)
        (.fresh settings (e.startWith slowLimit)) _ :=
      .fresh (c := .begin e.State _ (v :: rest)) rfl rfl _
    obtain ⟨p, hrun⟩ := hfresh.exists_runAll hthreads hcapacity hruns
      (hinv.step hthreads hstart) ⟨rfl, Nat.zero_le _⟩
    exact congrArg (Except.map (Engine.pooled settings e).ledger) hrun

/-- Without fatal verdicts, a run takes all verdicts and has in hand what it can. -/
theorem Wraps.ledgerOf_eq (h : Wraps combine n e) (hfatal : ∀ v ∈ vs, v.isFatal = false) :
    Package.ledgerOf e slowLimit vs = .ok (inHand combine slowLimit vs n) := by
  induction h generalizing vs with
  | direct => exact Package.ledgerOf_direct_of_not_fatal hfatal
  | pooled h hsettings ih =>
    obtain ⟨hthreads, hcapacity⟩ := PoolSettings.pos_of_validate hsettings
    exact ledgerOf_pooled hthreads hcapacity fun part hpart =>
      ⟨_, ih fun v hv => hfatal v (hpart v hv)⟩
  | packaged h hsettings ih =>
    exact congrArg (Except.map (Engine.packaged _ _).ledger) Package.runAll_packaged

/-! ### What wrappers merge -/

namespace Ledger

theorem Agrees.refl (l : Ledger α) : l.Agrees l := ⟨rfl, .refl _, .refl _⟩

/-- Nothing is merged from a ledger that holds nothing. -/
theorem merge_limit (l : Ledger α) (slowLimit : Nat) :
    l.merge combine (({} : Ledger α).limit slowLimit) = l := by
  have hfailures : l.failures ++ [] = l.failures := List.append_nil _
  have hslow : l.slow.append {} = l.slow := congrArg SlowLog.mk (List.append_nil _)
  calc l.merge combine (({} : Ledger α).limit slowLimit)
      = { l with failures := l.failures ++ [], slow := l.slow.append {} } := rfl
    _ = l := by rw [hfailures, hslow]

theorem foldl_merge_limit {ls : List (Ledger α)}
    (h : ∀ l ∈ ls, l = ({} : Ledger α).limit slowLimit) (l : Ledger α) :
    ls.foldl (fun l other => l.merge combine other) l = l := by
  induction ls with
  | nil => rfl
  | cons other rest ih =>
    obtain ⟨rfl, hrest⟩ := List.forall_mem_cons.mp h
    rw [List.foldl_cons, merge_limit, ih hrest]

end Ledger

section Merged

variable (hcombines : Combines combine P) (hvs : ∀ v ∈ vs, ∀ m ∈ v.found, P m)
  (hfatal : ∀ v ∈ vs, v.isFatal = false)
include hcombines hvs hfatal

/-- What runs in `n` wrappers have in hand is merged to what another wrapper reports. -/
theorem Wraps.reports_foldl_merge (h : Wraps combine n e)
    {runs : List (List (Verdict α) × Ledger α)} (hparts : (runs.flatMap (·.1)).Perm vs)
    (hruns : ∀ run ∈ runs, Package.ledgerOf e slowLimit run.1 = .ok run.2) :
    Reports combine slowLimit vs (n + 1) ((runs.map (·.2)).foldl
      (fun l other => l.merge combine other) (({} : Ledger α).limit slowLimit)) := by
  have hhand : ∀ run ∈ runs, run.2 = inHand combine slowLimit run.1 n := by
    intro run hrun
    have hnot : ∀ v ∈ run.1, v.isFatal = false := fun v hv =>
      hfatal v (hparts.mem_iff.mp (List.mem_flatMap.mpr ⟨run, hrun, hv⟩))
    exact Except.ok.inj ((hruns run hrun).symm.trans (h.ledgerOf_eq hnot))
  cases n with
  | zero => exact Ledger.agrees_foldl_merge hcombines rfl hvs hparts hhand
  | succ n => exact Ledger.foldl_merge_limit (List.forall_mem_map.mpr hhand) _

/-- What a session of workers around an engine in `n` wrappers returns. -/
theorem Wraps.reports_outcome (h : Wraps combine n e)
    {answers : List (Except Fault (Option (Match α)))} {result : Except Fault (Ledger α)}
    (houtcome : Session.Outcome e (({} : Ledger α).limit slowLimit) vs answers result) :
    ∃ l, result = .ok l ∧ Reports combine slowLimit vs (n + 1) l := by
  obtain ⟨runs, hparts, hruns, rfl⟩ := houtcome.exists_runs fun part hpart =>
    ⟨_, h.ledgerOf_eq fun v hv => hfatal v (hpart v hv)⟩
  rw [h.combine_eq]
  exact ⟨_, rfl, h.reports_foldl_merge hcombines hvs hfatal hparts hruns⟩

/-- What packages around an engine in `n` wrappers come to. -/
theorem Wraps.reports_settle (h : Wraps combine n e) {packages : List (List (Verdict α))}
    (hpackages : packages.flatten = vs) :
    ∃ l, Package.settle combine (({} : Ledger α).limit slowLimit)
      (packages.map (Package.ledgerOf e slowLimit)) = .ok l ∧
        Reports combine slowLimit vs (n + 1) l := by
  have hledgers : ∀ package ∈ packages, Package.ledgerOf e slowLimit package =
      .ok (inHand combine slowLimit package n) := fun package hpackage =>
    h.ledgerOf_eq fun v hv => hfatal v (hpackages ▸ List.mem_flatten_of_mem hpackage hv)
  have hparts : ((packages.map fun package =>
      (package, inHand combine slowLimit package n)).flatMap (·.1)).Perm vs := by
    rw [List.flatMap_map, List.flatMap_id', hpackages]
  have hmerged := h.reports_foldl_merge hcombines hvs hfatal hparts
    (List.forall_mem_map.mpr hledgers)
  rw [List.map_map] at hmerged
  refine ⟨_, ?_, hmerged⟩
  rw [Package.settle, Package.allLedgers_of_ok 0 hledgers]
  rfl

/-- What an engine in wrappers reports. -/
theorem Wraps.reports (h : Wraps combine n e) :
    ∃ l, e.conclude (e.startWith slowLimit) vs = .ok l ∧ Reports combine slowLimit vs n l := by
  cases h with
  | direct => exact ⟨_, Engine.conclude_direct hfatal, .refl _⟩
  | pooled h hsettings =>
    obtain ⟨hthreads, hcapacity⟩ := PoolSettings.pos_of_validate hsettings
    obtain ⟨answers, houtcome⟩ := Session.exists_outcome_pooled hthreads hcapacity
    exact h.reports_outcome hcombines hvs hfatal houtcome
  | packaged h hsettings =>
    rw [Package.conclude_packaged, h.combine_eq]
    have hsize := Package.size_pos_of_validate hsettings
    exact h.reports_settle hcombines hvs hfatal (Package.flatten_cut hsize vs)

end Merged

/-! ### The strategies -/

/-- Without fatal verdicts, an engine in `n` wrappers comes to a report, and in whatever order their
steps are taken, workers around it and packages around it come to the report of one more wrapper. -/
theorem wrapped_reports {S : Strategy α} (hS : S.BuiltIn) {n : Nat} {F : Engine α}
    (hF : Wraps S.combine n F) (slowLimit : Nat) {vs : List (Verdict α)}
    (hfinds : ∀ v ∈ vs, ∀ known, v.result = .ok (some known) → S.Finds known)
    (hfatal : ∀ v ∈ vs, v.isFatal = false) {workers : PoolSettings}
    (hworkers : workers.validate = .ok workers) {packages : PackageSettings}
    (hpackages : packages.validate = .ok packages) :
    (∃ l, F.conclude (F.startWith slowLimit) vs = .ok l ∧
        Reports S.combine slowLimit vs n l) ∧
      Session.Returns workers F
        (fun c => ∃ l, c.phase = .returned (.ok l) ∧ Reports S.combine slowLimit vs (n + 1) l)
        (Session.begin F.State (({} : Ledger α).limit slowLimit) vs) ∧
      Package.Ends (packages.threadsFor (Package.cut packages.size vs).length) F slowLimit
        (fun outcomes => ∃ l, Package.settle S.combine (({} : Ledger α).limit slowLimit) outcomes =
          .ok l ∧ Reports S.combine slowLimit vs (n + 1) l)
        ((Package.cut packages.size vs).map .waiting) ∧
      (∃ l, (Engine.pooled workers F).conclude ((Engine.pooled workers F).startWith slowLimit) vs =
        .ok l ∧ Reports S.combine slowLimit vs (n + 1) l) ∧
      ∃ l, (Engine.packaged packages F).conclude
          ((Engine.packaged packages F).startWith slowLimit) vs =
        .ok l ∧ Reports S.combine slowLimit vs (n + 1) l := by
  obtain ⟨P, hcombines, hP⟩ := hS.combines
  have hfound : ∀ v ∈ vs, ∀ m ∈ v.found, P m := by
    intro v hv m hm
    obtain ⟨known, hresult, rfl⟩ := Verdict.mem_found_iff.mp hm
    exact hP _ (hfinds v hv known hresult)
  obtain ⟨hthreads, hcapacity⟩ := PoolSettings.pos_of_validate hworkers
  have hcut := Package.flatten_cut (Package.size_pos_of_validate hpackages) vs
  refine ⟨hF.reports hcombines hfound hfatal, ?_, ?_,
    (hF.pooled hworkers).reports hcombines hfound hfatal,
    (hF.packaged hpackages).reports hcombines hfound hfatal⟩
  · refine Session.Invariant.begin.returns hthreads hcapacity fun c result hreturned houtcome => ?_
    obtain ⟨l, rfl, hreports⟩ := hF.reports_outcome hcombines hfound hfatal houtcome
    exact ⟨l, hreturned, hreports⟩
  · refine Package.ends (Package.threadsFor_pos _ _) ?_
    rw [List.map_map]
    exact hF.reports_settle hcombines hfound hfatal hcut

/-- A match and a failure. -/
def matchAndFailure : List (Verdict Unit) :=
  [⟨"q", .ok (some ()), 0⟩, ⟨"r", .error (.error .invalidGlob), 0⟩]

/-- A pool of two workers around the direct engine. -/
abbrev twoWorkers : Engine Unit := .pooled ⟨2, 1⟩ (.direct Strategy.simple.combine)

/-- A pool reports the match and the failure, and packages around the pool report nothing. -/
theorem wrapped_reports_twoWorkers : Wraps Strategy.simple.combine 1 twoWorkers ∧
    (∀ v ∈ matchAndFailure, ∀ known, v.result = .ok (some known) →
      Strategy.simple.Finds known) ∧
    (∀ v ∈ matchAndFailure, v.isFatal = false) ∧
    (∃ l, twoWorkers.conclude (twoWorkers.startWith 0) matchAndFailure = .ok l ∧
      l.Agrees (matchAndFailure.foldl (Ledger.record Strategy.simple.combine)
        (({} : Ledger Unit).limit 0))) ∧
    ∃ l, (Engine.packaged ⟨2, some 1⟩ twoWorkers).conclude
        ((Engine.packaged ⟨2, some 1⟩ twoWorkers).startWith 0) matchAndFailure = .ok l ∧
      l = ({} : Ledger Unit).limit 0 := by
  have hwraps : Wraps Strategy.simple.combine 1 twoWorkers := .pooled .direct rfl
  have hfinds : ∀ v ∈ matchAndFailure, ∀ known, v.result = .ok (some known) →
      Strategy.simple.Finds known := fun _ _ _ _ => ⟨{}, ⟨"", .all 1, none⟩, rfl⟩
  have hfatal : ∀ v ∈ matchAndFailure, v.isFatal = false := by decide
  have hworkers : (⟨2, 1⟩ : PoolSettings).validate = .ok ⟨2, 1⟩ := rfl
  have hpackages : (⟨2, some 1⟩ : PackageSettings).validate = .ok ⟨2, some 1⟩ := rfl
  obtain ⟨hself, -, -, -, hpackaged⟩ :=
    wrapped_reports .simple hwraps 0 hfinds hfatal hworkers hpackages
  exact ⟨hwraps, hfinds, hfatal, hself, hpackaged⟩

/-- Packages around the direct engine find the match and the failure; around these packages, neither
workers nor packages find any of it. -/
theorem packaged_hides : ∃ l l' l'',
    (Engine.packaged ⟨1, none⟩ (.direct Strategy.simple.combine)).conclude {} matchAndFailure =
        .ok l ∧
      l.found.keys = ["q"] ∧ l.failures = [⟨"r", .invalidGlob⟩] ∧
    (Engine.pooled ⟨1, 1⟩ (.packaged ⟨1, none⟩ (.direct Strategy.simple.combine))).conclude {}
        matchAndFailure = .ok l' ∧
      l'.found.keys = [] ∧ l'.failures = [] ∧
    (Engine.packaged ⟨1, none⟩ (.packaged ⟨1, none⟩ (.direct Strategy.simple.combine))).conclude {}
        matchAndFailure = .ok l'' ∧
      l''.found.keys = [] ∧ l''.failures = [] :=
  ⟨_, _, _, rfl, rfl, rfl, rfl, rfl, rfl, rfl, rfl, rfl⟩

end Percolator
