import Percolator.Verification.Package
import Percolator.Verification.Pool

/-!
# Runs and their ledgers

A run of an engine ends with the first fault that ends a run, and with no other one. What became of
several runs is put together by merging their ledgers, and an error of one of them is an error of
the whole.

## Main results

* `Engine.isFatal_of_runAll`, `Package.isFatal_of_ledgerOf` : only a fatal fault ends a run.
* `Pool.collect_snd`, `Pool.collect_fst` : what joining workers comes to.
-/

namespace Percolator

variable {α : Type}

/-! ### Runs of an engine -/

namespace Engine

variable {e : Engine α} {v : Verdict α} {vs : List (Verdict α)}

/-- A run that went well so far goes on with the verdicts behind it. -/
theorem runAll_append {s s' : e.State} (h : e.runAll s vs = .ok s') (rest : List (Verdict α)) :
    e.runAll s (vs ++ rest) = e.runAll s' rest := by
  induction vs generalizing s with
  | nil =>
    obtain rfl := Except.ok.inj h
    rfl
  | cons w vs ih =>
    simp only [List.cons_append, runAll] at h ⊢
    split at h
    · exact ih h
    · simp only [reduceCtorEq] at h

/-- What an engine comes to with the verdicts that are left. -/
def conclude (e : Engine α) (s : e.State) (vs : List (Verdict α)) :
    Except Fault (Ledger α) :=
  (e.runAll s vs).bind e.finish

theorem run_of_accept_fatal {s s' : e.State} {fault : Fault}
    (h : e.accept v s = (.error fault, s')) (hfatal : fault.isFatal = true) :
    e.run v s = (.error fault, s') := by
  simp only [run, h]
  cases fault with
  | error error => exact if_pos hfatal
  | crash => rfl

/-- Only faults that end a run are passed on. -/
theorem isFatal_of_run {s s' : e.State} {fault : Fault} (h : e.run v s = (.error fault, s')) :
    fault.isFatal = true := by
  simp only [run] at h
  split at h
  · simp only [Prod.mk.injEq, reduceCtorEq, false_and] at h
  · split at h
    · split at h
      · next hfatal =>
        obtain rfl := Except.error.inj (Prod.mk.inj h).1
        exact hfatal
      · simp only [Prod.mk.injEq, reduceCtorEq, false_and] at h
    · obtain rfl := Except.error.inj (Prod.mk.inj h).1
      rfl

theorem isFatal_of_runAll {s : e.State} {fault : Fault} (h : e.runAll s vs = .error fault) :
    fault.isFatal = true := by
  induction vs generalizing s with
  | nil => simp only [runAll, reduceCtorEq] at h
  | cons v rest ih =>
    simp only [runAll] at h
    split at h
    · exact ih h
    · next hrun =>
      obtain rfl := Except.error.inj h
      exact isFatal_of_run hrun

end Engine

theorem Package.ledgerOf_of_runAll {e : Engine α} {slowLimit : Nat} {vs : List (Verdict α)}
    {s : e.State} (h : e.runAll (e.startWith slowLimit) vs = .ok s) :
    ledgerOf e slowLimit vs = .ok (e.ledger s) := by
  rw [ledgerOf, h]
  rfl

theorem Package.isFatal_of_ledgerOf {e : Engine α} {slowLimit : Nat} {vs : List (Verdict α)}
    {fault : Fault} (h : ledgerOf e slowLimit vs = .error fault) : fault.isFatal = true := by
  rw [ledgerOf] at h
  cases hrun : e.runAll (e.startWith slowLimit) vs with
  | ok s => simp only [hrun, Except.map, reduceCtorEq] at h
  | error fault' =>
    simp only [hrun, Except.map, Except.error.injEq] at h
    obtain rfl := h
    exact Engine.isFatal_of_runAll hrun

/-! ### Joining workers -/

/-- The ledger that the worker hands in. -/
def Worker.ledger? {σ : Type} : Worker σ α → Option (Ledger α)
  | .done ledger => some ledger
  | _ => none

namespace Pool

variable {σ : Type} {combine : Match α → Match α → Match α} {l : Ledger α} {i : Nat}
  {ws : List (Worker σ α)}

theorem collect_concat_done {ledger : Ledger α} :
    collect combine l i (ws ++ [.done ledger]) =
      ((collect combine l i ws).1, (collect combine l i ws).2.merge combine ledger) := by
  induction ws generalizing l i with
  | nil => rfl
  | cons w rest ih =>
    cases w <;> simp only [List.cons_append, collect, ih]

theorem collect_concat_failed {fault : Fault} :
    collect combine l i (ws ++ [.failed fault]) =
      ((collect combine l i ws).1.or (some (cause (i + ws.length) fault)),
        (collect combine l i ws).2) := by
  induction ws generalizing l i with
  | nil => rfl
  | cons w rest ih =>
    cases w <;>
      simp only [List.cons_append, collect, ih, List.length_cons, Nat.add_assoc, Nat.add_comm 1,
        Option.some_or]

/-- Joining workers merges the ledgers that they hand in. -/
theorem collect_snd : (collect combine l i ws).2 =
    (ws.filterMap Worker.ledger?).foldl (fun l other => l.merge combine other) l := by
  induction ws generalizing l i with
  | nil => rfl
  | cons w rest ih => cases w <;> simp only [collect, ih, List.filterMap_cons, Worker.ledger?,
      List.foldl_cons]

theorem collect_snd_of_ledger?_eq_none (h : ∀ w ∈ ws, w.ledger? = none) :
    (collect combine l i ws).2 = l := by
  rw [collect_snd, List.filterMap_eq_nil_iff.mpr h, List.foldl_nil]

/-- Joining workers fails if one of them failed, and only for its cause. -/
theorem collect_fst :
    (∀ fault, .failed fault ∉ ws) ∧ (collect combine l i ws).1 = none ∨
      ∃ j fault, .failed fault ∈ ws ∧ (collect combine l i ws).1 = some (cause j fault) := by
  induction ws generalizing l i with
  | nil => exact .inl ⟨fun _ => List.not_mem_nil, rfl⟩
  | cons w rest ih =>
    cases w with
    | running s =>
      rcases @ih l (i + 1) with ⟨hnone, hfst⟩ | ⟨j, fault, hmem, hfst⟩
      · refine .inl ⟨fun fault hmem => hnone fault ?_, hfst⟩
        exact (List.mem_cons.mp hmem).resolve_left nofun
      · exact .inr ⟨j, fault, List.mem_cons_of_mem _ hmem, hfst⟩
    | done ledger =>
      rcases @ih (l.merge combine ledger) (i + 1) with ⟨hnone, hfst⟩ | ⟨j, fault, hmem, hfst⟩
      · refine .inl ⟨fun fault hmem => hnone fault ?_, hfst⟩
        exact (List.mem_cons.mp hmem).resolve_left nofun
      · exact .inr ⟨j, fault, List.mem_cons_of_mem _ hmem, hfst⟩
    | failed fault => exact .inr ⟨i, fault, List.mem_cons_self, rfl⟩

end Pool

end Percolator
