import Percolator.Proofs.Monitor.Matching
import Percolator.Proofs.Monitor.Registry

/-!
# Failing queries do not disturb a run

A verification that fails is reported under the id of its query, and the run goes on with the next
candidate: the failures come in the order of the candidates, and the matches are those of the same
run without the failing queries. Only a fatal fault ends a run, with nothing to report, and it is
the first one that does.

## Main definitions

* `Strategy.failure?`, `Strategy.fatal?` : how the verification of a candidate fails.
* `Monitor.deleteAll` : the monitor without some queries.

## Main results

* `Ledger.found_foldl_record_filter` : verdicts that fail leave the matches as they are.
* `Monitor.Reachable.selected_eq` : the candidates are the stored queries that a selection picks.
* `Monitor.Reachable.selected_deleteAll` : the candidates that are left without some queries.
* `Monitor.Reachable.run_of_failures` : what a run comes to, whichever candidates fail.
-/

namespace Percolator

/-! ### Failing verifications -/

namespace Strategy

variable {α : Type}

/-- The failure that is reported for a candidate, if its verification ends with an error. -/
def failure? (s : Strategy α) (d : DocumentIndex) (c : Candidate) : Option Failure :=
  match s.verify d c with
  | .error (.error error) => some ⟨c.id, error⟩
  | _ => none

/-- The fault of the verification of a candidate, if it is one that ends a run. -/
def fatal? (s : Strategy α) (d : DocumentIndex) (c : Candidate) : Option Fault :=
  match s.verify d c with
  | .error fault => if fault.isFatal then some fault else none
  | .ok _ => none

variable {s : Strategy α} {d : DocumentIndex} {c : Candidate}

private theorem failures_verdict : (s.verdict d c).failures = (s.failure? d c).toList := by
  simp only [Verdict.failures, verdict, failure?]
  rcases s.verify d c with (error | _) | known <;> rfl

private theorem flatMap_failures_verdict {cs : List Candidate} :
    (cs.map (s.verdict d)).flatMap Verdict.failures = cs.filterMap (s.failure? d) := by
  rw [List.flatMap_map, List.filterMap_eq_flatMap_toList]
  simp only [failures_verdict]

theorem isFatal_verdict_eq_false_iff :
    (s.verdict d c).isFatal = false ↔ s.fatal? d c = none := by
  simp only [Verdict.isFatal, verdict, fatal?]
  cases s.verify d c with
  | ok known => simp only
  | error fault => cases fault.isFatal <;> simp

private theorem verify_of_fatal? {fault : Fault} (h : s.fatal? d c = some fault) :
    (s.verdict d c).isFatal = true ∧ s.verify d c = .error fault := by
  rw [fatal?] at h
  split at h
  · next fault' hverify =>
    split at h
    · next hfatal =>
      obtain rfl := Option.some.inj h
      exact ⟨by rwa [Verdict.isFatal, verdict, hverify], hverify⟩
    · simp only [reduceCtorEq] at h
  · simp only [reduceCtorEq] at h

end Strategy

/-! ### Failing verdicts in a ledger -/

theorem Verdict.id_eq_of_mem_failures {α : Type} {v : Verdict α} {f : Failure}
    (h : f ∈ v.failures) : f.id = v.id := by
  rw [Verdict.failures] at h
  split at h
  · rw [List.mem_singleton.mp h]
  · exact absurd h List.not_mem_nil

namespace Ledger

variable {α : Type} {combine : Match α → Match α → Match α} {l l' : Ledger α} {v : Verdict α}
  {vs : List (Verdict α)}

/-- Which matches a ledger holds after a verdict is up to those that it held before. -/
private theorem found_record_congr (h : l.found = l'.found) :
    (l.record combine v).found = (l'.record combine v).found := by
  simp only [record, enter]
  rcases v.result with (error | _) | (_ | known)
  · simp only [report, found_time, h]
  · exact h
  · simp only [found_time, h]
  · simp only [add, found_time, h]

/-- A verdict that fails leaves the matches as they are. -/
private theorem found_record_of_failures (h : v.failures ≠ []) :
    (l.record combine v).found = l.found := by
  rw [Verdict.failures] at h
  simp only [record, enter]
  rcases hresult : v.result with (error | _) | known
  · simp only [report, found_time]
  · rfl
  · simp only [hresult, ne_eq, not_true_eq_false] at h

/-- Verdicts that fail leave the matches of a run as they are. -/
theorem found_foldl_record_filter (h : l.found = l'.found) :
    ((vs.filter (·.failures.isEmpty)).foldl (record combine) l).found =
      (vs.foldl (record combine) l').found := by
  induction vs generalizing l l' with
  | nil => exact h
  | cons v rest ih =>
    rw [List.foldl_cons, List.filter_cons]
    by_cases hv : v.failures = []
    · rw [if_pos (List.isEmpty_iff.mpr hv)]
      exact ih (found_record_congr h)
    · rw [if_neg (mt List.isEmpty_iff.mp hv)]
      exact ih (h.trans (found_record_of_failures hv).symm)

end Ledger

/-! ### Monitors without some of their queries -/

namespace Monitor

variable {p : Presearch} {settings : MonitorSettings} {m : Monitor} {d : Document}

/-- The monitor without some queries. -/
def deleteAll (m : Monitor) (ids : List String) : Monitor := ids.foldl delete m

namespace Reachable

theorem deleteAll (h : Reachable p settings m) (ids : List String) :
    Reachable p settings (m.deleteAll ids) := by
  induction ids generalizing m with
  | nil => exact h
  | cons id rest ih => exact ih (h.delete id)

theorem ordered_deleteAll (h : Reachable p settings m) (ids : List String) :
    (m.deleteAll ids).store.ordered = m.store.ordered.filter (·.query.id ∉ ids) := by
  induction ids generalizing m with
  | nil => exact (List.filter_eq_self.mpr fun e _ => decide_eq_true List.not_mem_nil).symm
  | cons id rest ih =>
    have hdelete : (m.delete id).store = m.store.erase id := rfl
    have hrest : (m.deleteAll (id :: rest)).store.ordered =
        ((m.delete id).deleteAll rest).store.ordered := rfl
    rw [hrest, ih (h.delete id), hdelete, h.consistent.ordered_erase, List.filter_filter]
    refine List.filter_congr fun e _ => Bool.eq_iff_iff.mpr ?_
    simp [and_comm]

/-- The candidates are the stored queries that the selection picks, in the order of their slots. -/
theorem selected_eq (h : Reachable p settings m) {q : Query} (hq : p.selection d = .ok q) :
    m.selected d = .ok (m.store.ordered.filter fun e => p.picks q e.query) := by
  have hsearch := KeyIndex.search_spec h.consistent.index q (Presearch.isSelection_of_selection hq)
  rw [h.selected_eq_picked hq]
  simp only [picked, Store.select, hsearch, bind, Except.bind, h.consistent.filterMap_picked]
  rfl

/-- Where there are candidates, they are the stored queries that a selection picks. -/
theorem exists_selection_of_selected (h : Reachable p settings m) {entries : List StoreEntry}
    (hentries : m.selected d = .ok entries) : ∃ q, p.selection d = .ok q ∧
      entries = m.store.ordered.filter fun e => p.picks q e.query := by
  obtain ⟨q, hq⟩ := Presearch.exists_selection (h.fits_of_selected hentries)
  exact ⟨q, hq, Except.ok.inj (hentries.symm.trans (h.selected_eq hq))⟩

/-- Without some queries, the candidates are those that are left. -/
theorem selected_deleteAll (h : Reachable p settings m) (ids : List String)
    {entries : List StoreEntry} (hentries : m.selected d = .ok entries) :
    (m.deleteAll ids).selected d = .ok (entries.filter (·.query.id ∉ ids)) := by
  obtain ⟨q, hq, rfl⟩ := h.exists_selection_of_selected hentries
  rw [(h.deleteAll ids).selected_eq hq, h.ordered_deleteAll, List.filter_filter, List.filter_filter]
  simp only [Bool.and_comm]

/-- No two candidates have the same id. -/
theorem eq_of_id_eq (h : Reachable p settings m) {entries : List StoreEntry}
    (hentries : m.selected d = .ok entries) {e e' : StoreEntry} (he : e ∈ entries)
    (he' : e' ∈ entries) (hid : e.query.id = e'.query.id) : e = e' := by
  obtain ⟨q, -, rfl⟩ := h.exists_selection_of_selected hentries
  have hget := h.consistent.mem_ordered.mp (List.mem_filter.mp he).1
  have hget' := h.consistent.mem_ordered.mp (List.mem_filter.mp he').1
  rw [hid, hget'] at hget
  exact (Option.some.inj hget).symm

end Reachable

/-! ### Runs -/

/-- The candidates of a document, in the order in which they are verified. -/
def candidates (m : Monitor) (d : Document) : Except Fault (List Candidate) :=
  (m.selected d).map (·.map (·.query.toCandidate))

section Runs

variable {α : Type} {strategy : Strategy α} {entries : List StoreEntry} {fault : Fault}

private theorem verdicts_eq_map : verdicts strategy d entries =
    (entries.map (·.query.toCandidate)).map (strategy.verdict d.index) := by
  rw [verdicts, List.map_map]
  rfl

/-- The failures of a run, in the order of the candidates. -/
private theorem failures_verdicts : (verdicts strategy d entries).flatMap Verdict.failures =
    (entries.map (·.query.toCandidate)).filterMap (strategy.failure? d.index) := by
  rw [verdicts_eq_map, Strategy.flatMap_failures_verdict]

private theorem not_fatal_of_findSome?
    (h : (entries.map (·.query.toCandidate)).findSome? (strategy.fatal? d.index) = none) :
    ∀ v ∈ verdicts strategy d entries, v.isFatal = false := by
  rw [verdicts_eq_map]
  exact List.forall_mem_map.mpr fun c hc =>
    Strategy.isFatal_verdict_eq_false_iff.mpr (List.findSome?_eq_none_iff.mp h c hc)

/-- The ids of the candidates that fail. -/
def failedIds (vs : List (Verdict α)) : List String := (vs.flatMap Verdict.failures).map (·.id)

/-- Without the candidates that fail, the verdicts are those that are no failures. -/
private theorem Reachable.verdicts_filter (h : Reachable p settings m) (strategy : Strategy α)
    (hentries : m.selected d = .ok entries) :
    verdicts strategy d
        (entries.filter fun e => e.query.id ∉ failedIds (verdicts strategy d entries)) =
      (verdicts strategy d entries).filter (·.failures.isEmpty) := by
  have hfailed : ∀ e ∈ entries, e.query.id ∈ failedIds (verdicts strategy d entries) ↔
      (strategy.verdict d.index e.query.toCandidate).failures ≠ [] := by
    intro e he
    simp only [failedIds, List.mem_map, List.mem_flatMap, verdicts]
    constructor
    · rintro ⟨f, ⟨_, ⟨e', he', rfl⟩, hf⟩, hid⟩
      have hid' : e'.query.id = e.query.id := (Verdict.id_eq_of_mem_failures hf).symm.trans hid
      exact List.ne_nil_of_mem (h.eq_of_id_eq hentries he' he hid' ▸ hf)
    · intro hne
      obtain ⟨f, hf⟩ := List.exists_mem_of_ne_nil _ hne
      exact ⟨f, ⟨_, ⟨e, he, rfl⟩, hf⟩, Verdict.id_eq_of_mem_failures hf⟩
  rw [verdicts, verdicts, List.filter_map]
  refine congrArg _ (List.filter_congr fun e he => Bool.eq_iff_iff.mpr ?_)
  simp only [decide_eq_true_eq, Function.comp_apply, List.isEmpty_iff]
  exact (not_congr (hfailed e he)).trans not_not

/-- A run without the candidates that fail finds the same matches, and no failures. -/
private theorem Reachable.run_deleteAll_failedIds (h : Reachable p settings m)
    (hentries : m.selected d = .ok entries)
    (hfatal : ∀ v ∈ verdicts strategy d entries, v.isFatal = false) : ∃ rest,
    (m.deleteAll (failedIds (verdicts strategy d entries))).run strategy
        (.direct strategy.combine) d = .ok rest ∧
      rest.failures = [] ∧
      rest.found = ((verdicts strategy d entries).foldl (Ledger.record strategy.combine)
        { slowLimit := m.settings.slowLimit }).found := by
  have hverdicts := h.verdicts_filter strategy hentries
  have hleft := h.selected_deleteAll (failedIds (verdicts strategy d entries)) hentries
  refine ⟨_, run_direct hleft fun v hv => ?_, ?_, ?_⟩
  · rw [hverdicts] at hv
    exact hfatal v (List.mem_filter.mp hv).1
  · refine Ledger.failures_foldl_record.trans (List.flatMap_eq_nil_iff.mpr fun v hv => ?_)
    rw [hverdicts] at hv
    exact List.isEmpty_iff.mp (List.mem_filter.mp hv).2
  · rw [hverdicts]
    exact Ledger.found_foldl_record_filter rfl

/-- A run ends with the first fatal fault. -/
theorem run_direct_of_fatal (hentries : m.selected d = .ok entries)
    (hfault : (entries.map (·.query.toCandidate)).findSome? (strategy.fatal? d.index) =
      some fault) : m.run strategy (.direct strategy.combine) d = .error fault := by
  obtain ⟨front, c, behind, hsplit, hc, hfront⟩ := List.findSome?_eq_some_iff.mp hfault
  obtain ⟨hfatal, hverify⟩ := Strategy.verify_of_fatal? hc
  have hfind : (verdicts strategy d entries).find? Verdict.isFatal =
      some (strategy.verdict d.index c) := by
    rw [verdicts_eq_map, hsplit, List.map_append, List.map_cons]
    refine List.find?_eq_some_iff_append.mpr ⟨hfatal, _, _, rfl, List.forall_mem_map.mpr ?_⟩
    intro c' hc'
    rw [Strategy.isFatal_verdict_eq_false_iff.mpr (hfront c' hc'), Bool.not_false]
  obtain ⟨fault', hresult, -, hrun⟩ := Engine.runAll_direct_of_find? strategy.combine
    ((Engine.direct strategy.combine).startWith m.settings.slowLimit) hfind
  obtain rfl : fault' = fault := Except.error.inj (hresult.symm.trans hverify)
  simp only [run, hentries, bind, Except.bind]
  rw [verdicts] at hrun
  rw [hrun]

/-- A run over the selected entries: the failures come in the order of the candidates, unless one of
them is fatal. -/
private theorem Reachable.run_of_selected (h : Reachable p settings m) (strategy : Strategy α)
    (hentries : m.selected d = .ok entries) :
    match (entries.map (·.query.toCandidate)).findSome? (strategy.fatal? d.index) with
    | some fault => m.run strategy (.direct strategy.combine) d = .error fault
    | none => ∃ report rest,
      m.run strategy (.direct strategy.combine) d = .ok report ∧
      report.failures = (entries.map (·.query.toCandidate)).filterMap (strategy.failure? d.index) ∧
      report.queriesRun = (entries.map (·.query.toCandidate)).length ∧
      (m.deleteAll (report.failures.map (·.id))).run strategy (.direct strategy.combine) d =
        .ok rest ∧
      rest.failures = [] ∧ rest.found = report.found := by
  split
  · next fault hfault => exact run_direct_of_fatal hentries hfault
  · next hnone =>
    have hfatal := not_fatal_of_findSome? hnone
    have hfailures : ((verdicts strategy d entries).foldl (Ledger.record strategy.combine)
        { slowLimit := m.settings.slowLimit }).failures =
        (verdicts strategy d entries).flatMap Verdict.failures := Ledger.failures_foldl_record
    obtain ⟨rest, hrun, hnone, hfound⟩ := h.run_deleteAll_failedIds hentries hfatal
    refine ⟨_, rest, run_direct hentries hfatal, hfailures.trans failures_verdicts,
      (List.length_map _).symm, ?_, hnone, hfound⟩
    rw [Ledger.close, hfailures]
    exact hrun

theorem run_eq_crash {engine : Engine α} (hcrash : m.selected d = .error .crash) :
    m.run strategy engine d = .error .crash := by
  rw [run, hcrash]
  rfl

end Runs

/-- Whichever candidates fail: a run reports the failures in the order of the candidates, counts all
candidates, and finds the matches that it finds without the failing queries. If a fault is fatal,
the first such fault is all that becomes of the run. Only for a document without a selection there
are no candidates, and the run crashes. -/
theorem Reachable.run_of_failures {α : Type} (h : Reachable p settings m) (strategy : Strategy α)
    (d : Document) :
    (p.Fits d → ∃ cs, m.candidates d = .ok cs ∧
      match cs.findSome? (strategy.fatal? d.index) with
      | some fault => m.run strategy (.direct strategy.combine) d = .error fault
      | none => ∃ report rest,
        m.run strategy (.direct strategy.combine) d = .ok report ∧
        report.failures = cs.filterMap (strategy.failure? d.index) ∧
        report.queriesRun = cs.length ∧
        (m.deleteAll (report.failures.map (·.id))).run strategy (.direct strategy.combine) d =
          .ok rest ∧
        rest.failures = [] ∧ rest.found = report.found) ∧
    (¬p.Fits d → m.candidates d = .error .crash ∧
      m.run strategy (.direct strategy.combine) d = .error .crash) := by
  constructor
  · intro hfits
    obtain ⟨q, hq⟩ := Presearch.exists_selection hfits
    have hentries := h.selected_eq hq
    exact ⟨_, by rw [candidates, hentries]; rfl, h.run_of_selected strategy hentries⟩
  · intro hfits
    have hcrash := h.selected_eq_crash hfits
    exact ⟨by rw [candidates, hcrash]; rfl, run_eq_crash hcrash⟩

/-- A query that cannot be evaluated. -/
def failingQuery : Query :=
  .custom ⟨some "body", .error (.error (.foreign .query "cannot evaluate")), 0⟩

/-- A query that cannot be evaluated does not keep another one from being found. -/
theorem Reachable.run_of_failures_fox : ∃ m d, Reachable {} {} m ∧
    Document.build "doc1" .standard [("body", .keyword "fox")] = .ok d ∧
    ({} : Presearch).Fits d ∧
    ∃ cs, m.candidates d = .ok cs ∧ cs.map (·.id) = ["bad", "good"] ∧
      match cs.findSome? (Strategy.simple.fatal? d.index) with
      | some fault => m.run .simple (.direct Strategy.simple.combine) d = .error fault
      | none => ∃ report rest,
        m.run .simple (.direct Strategy.simple.combine) d = .ok report ∧
        report.failures = cs.filterMap (Strategy.simple.failure? d.index) ∧
        report.queriesRun = cs.length ∧
        (m.deleteAll (report.failures.map (·.id))).run .simple
          (.direct Strategy.simple.combine) d = .ok rest ∧
        rest.failures = [] ∧ rest.found = report.found := by
  have hfirst : Reachable {} {} _ := .register .start
    (rfl : Monitor.register {} { id := "bad", query := failingQuery } = .ok _)
  have hm : Reachable {} {} _ := .register hfirst
    (rfl : Monitor.register _ { id := "good", query := .term "body" "fox" 1 } = .ok _)
  have hd : Document.build "doc1" .standard [("body", .keyword "fox")] = .ok _ := rfl
  refine ⟨_, _, hm, hd, ?fits, ?run⟩
  case run =>
    obtain ⟨cs, hcs, hrun⟩ := (hm.run_of_failures Strategy.simple _).1 ?fits
    refine ⟨cs, hcs, ?_, hrun⟩
    obtain rfl := Except.ok.inj (hcs.symm.trans rfl)
    rfl
  case fits => exact Presearch.fits_of_fieldNames (by decide +kernel)

/-- With the greatest limit on parts there is no report on a document of two characters, although no
query that is registered has a fatal fault. -/
theorem Reachable.run_crash : ∃ m d, Presearch.unlimited.Built ∧
    Reachable Presearch.unlimited {} m ∧
    Document.build "d" .standard [("body", .keyword "ab")] = .ok d ∧
    m.store.ordered.map (·.query.id) = ["bad", "good"] ∧
    (∀ e ∈ m.store.ordered, Strategy.simple.fatal? d.index e.query.toCandidate = none) ∧
    m.run .simple (.direct Strategy.simple.combine) d = .error .crash := by
  have hfirst : Reachable Presearch.unlimited {} _ := .register .start
    (rfl : Monitor.register { presearch := Presearch.unlimited }
      { id := "bad", query := failingQuery } = .ok _)
  have hm : Reachable Presearch.unlimited {} _ := .register hfirst
    (rfl : Monitor.register _ { id := "good", query := .term "body" "ab" 1 } = .ok _)
  have hd : Document.build "d" .standard [("body", .keyword "ab")] = .ok _ := rfl
  have hp : Presearch.withSettings {} Presearch.unlimited.settings = .ok Presearch.unlimited := rfl
  refine ⟨_, _, .settings .start hp, hm, hd, rfl, ?_, rfl⟩
  exact List.forall_mem_cons.mpr ⟨rfl, List.forall_mem_singleton.mpr rfl⟩

end Monitor

end Percolator
