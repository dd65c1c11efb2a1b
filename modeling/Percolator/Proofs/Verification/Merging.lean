import Percolator.Proofs.Verification.Ledger
import Percolator.Proofs.Verification.Runs

/-!
# Ledgers of several runs

The ledgers of runs that share verdicts between them are merged to the ledger of one run with all
verdicts: the matches of one query are combined in another order, which does not matter, and the
failures and slow verifications come run after run. Where the runs take the verdicts in order, the
merged ledger is the same; where they take them in another order, it is the same up to order.

## Main definitions

* `Ledger.Same`, `Ledger.Agrees` : two ledgers are the same, or the same up to order.

## Main results

* `Ledger.same_foldl_merge`, `Ledger.agrees_foldl_merge` : the ledgers of runs are merged to that of
  one run.
* `Package.ledgerOf_direct` : what a run of the direct engine comes to.
-/

namespace Percolator

variable {α : Type} {combine : Match α → Match α → Match α}

namespace Ledger

/-- The ledgers have the same matches, and the same failures and slow verifications in some
order. -/
structure Agrees (l l' : Ledger α) : Prop where
  found : l.found.toList = l'.found.toList
  failures : l.failures.Perm l'.failures
  slow : l.slow.entries.Perm l'.slow.entries

/-- The ledgers have the same matches, and the same failures and slow verifications in the same
order. -/
structure Same (l l' : Ledger α) : Prop where
  found : l.found.toList = l'.found.toList
  failures : l.failures = l'.failures
  slow : l.slow.entries = l'.slow.entries

theorem toList_eq_of_getElem?_eq {l l' : Ledger α}
    (h : ∀ id : String, l.found[id]? = l'.found[id]?) : l.found.toList = l'.found.toList := by
  have hnodup : ∀ t : Std.TreeMap String (Match α), t.toList.Nodup := by
    intro t
    refine t.distinct_keys_toList.imp fun hne heq => hne ?_
    rw [heq]
    exact Std.ReflOrd.compare_self
  have hperm : l.found.toList.Perm l'.found.toList := by
    refine (List.perm_ext_iff_of_nodup (hnodup _) (hnodup _)).mpr fun pair => ?_
    rw [Std.TreeMap.mem_toList_iff_getElem?_eq_some, Std.TreeMap.mem_toList_iff_getElem?_eq_some, h]
  exact Std.TreeMap.equiv_iff_toList_eq.mp (Std.TreeMap.equiv_iff_toList_perm.mpr hperm)

variable {P : Match α → Prop} {l₀ : Ledger α} {runs : List (List (Verdict α) × Ledger α)}

theorem allOf_matchesOf {id : String} {vs : List (Verdict α)} (h : ∀ v ∈ vs, ∀ m ∈ v.found, P m) :
    AllOf P id (matchesOf id vs) := by
  intro m hm
  obtain ⟨hm, hid⟩ := List.mem_filter.mp hm
  obtain ⟨v, hv, hm⟩ := List.mem_flatMap.mp hm
  exact ⟨beq_iff_eq.mp hid, h v hv m hm⟩

theorem allOf_none {id : String} : AllOf P id (none : Option (Match α)).toList :=
  fun _ hm => absurd hm List.not_mem_nil

/-- A ledger that verdicts were recorded in holds each match under the id of its query. -/
theorem keyed_foldl_record (h : Combines combine P) (hl₀ : l₀.found = ∅)
    {vs : List (Verdict α)} (hvs : ∀ v ∈ vs, ∀ m ∈ v.found, P m) :
    Keyed (vs.foldl (record combine) l₀) := by
  intro id m hm
  rw [found_foldl_record, hl₀, Std.TreeMap.getElem?_emptyc] at hm
  have hall : AllOf P id (joinAll combine none (matchesOf id vs)).toList :=
    h.allOf_joinAll allOf_none (allOf_matchesOf hvs)
  rw [hm] at hall
  exact (hall m List.mem_cons_self).1

/-- Merging the ledgers of runs joins the matches that they found. -/
theorem found_foldl_merge (h : Combines combine P) (hl₀ : l₀.found = ∅)
    (hruns : ∀ run ∈ runs, run.2 = run.1.foldl (record combine) l₀ ∧
      ∀ v ∈ run.1, ∀ m ∈ v.found, P m) {l : Ledger α} {id : String}
    (hl : AllOf P id l.found[id]?.toList) :
    ((runs.map (·.2)).foldl (fun l other => l.merge combine other) l).found[id]? =
      l.found[id]?.merge combine (joinAll combine none (matchesOf id (runs.flatMap (·.1)))) := by
  induction runs generalizing l with
  | nil => exact Option.merge_none_right.symm
  | cons run rest ih =>
    obtain ⟨⟨hrun, hfound⟩, hrest⟩ := List.forall_mem_cons.mp hruns
    have hkeyed : Keyed run.2 := hrun ▸ keyed_foldl_record h hl₀ hfound
    have hall : AllOf P id (matchesOf id run.1) := allOf_matchesOf hfound
    have hallRest : AllOf P id (matchesOf id (rest.flatMap (·.1))) :=
      allOf_matchesOf fun v hv => by
        obtain ⟨other, hother, hv⟩ := List.mem_flatMap.mp hv
        exact (hrest other hother).2 v hv
    have hjoined : run.2.found[id]? = joinAll combine none (matchesOf id run.1) := by
      rw [hrun, found_foldl_record, hl₀, Std.TreeMap.getElem?_emptyc]
    have hmerged := h.allOf_joinAll allOf_none hall
    rw [List.map_cons, List.foldl_cons, ih hrest, found_merge hkeyed, hjoined,
      h.merge_assoc hl hmerged (h.allOf_joinAll allOf_none hallRest),
      ← h.joinAll_append hall hallRest, ← matchesOf_append, List.flatMap_cons]
    rw [found_merge hkeyed, hjoined]
    exact h.allOf_merge hl hmerged

theorem failures_foldl_merge {ls : List (Ledger α)} {l : Ledger α} :
    (ls.foldl (fun l other => l.merge combine other) l).failures =
      l.failures ++ ls.flatMap (·.failures) := by
  induction ls generalizing l with
  | nil => exact (List.append_nil _).symm
  | cons other rest ih =>
    rw [List.foldl_cons, ih, failures_merge, List.append_assoc, List.flatMap_cons]

theorem slow_foldl_merge {ls : List (Ledger α)} {l : Ledger α} :
    (ls.foldl (fun l other => l.merge combine other) l).slow.entries =
      l.slow.entries ++ ls.flatMap (·.slow.entries) := by
  induction ls generalizing l with
  | nil => exact (List.append_nil _).symm
  | cons other rest ih =>
    rw [List.foldl_cons, ih, slow_merge, List.append_assoc, List.flatMap_cons]

theorem flatMap_runs {β : Type} {f : Verdict α → List β} {g : Ledger α → List β}
    (h : ∀ run ∈ runs, g run.2 = run.1.flatMap f) :
    (runs.map (·.2)).flatMap g = (runs.flatMap (·.1)).flatMap f := by
  induction runs with
  | nil => rfl
  | cons run rest ih =>
    obtain ⟨hrun, hrest⟩ := List.forall_mem_cons.mp h
    rw [List.map_cons, List.flatMap_cons, ih hrest, hrun, List.flatMap_cons, List.flatMap_append]

/-- Ledgers of runs are merged into a ledger without matches as if one run with the verdicts of all
of them, in order, went on from it. -/
theorem same_foldl_merge (h : Combines combine P) {l : Ledger α} (hl : l.found = ∅)
    (hfound : ∀ run ∈ runs, ∀ v ∈ run.1, ∀ m ∈ v.found, P m)
    (hruns : ∀ run ∈ runs,
      run.2 = run.1.foldl (record combine) (({} : Ledger α).limit l.slowLimit)) :
    Same ((runs.map (·.2)).foldl (fun l other => l.merge combine other) l)
      ((runs.flatMap (·.1)).foldl (record combine) l) := by
  refine ⟨toList_eq_of_getElem?_eq fun id => ?_, ?_, ?_⟩
  · have hnone : l.found[id]? = none := by rw [hl, Std.TreeMap.getElem?_emptyc]
    have hall : AllOf P id l.found[id]?.toList := hnone ▸ allOf_none
    rw [found_foldl_merge h rfl (fun run hrun => ⟨hruns run hrun, hfound run hrun⟩) hall,
      found_foldl_record, hnone, Option.merge_none_left]
  · have hfailures : ∀ run ∈ runs, run.2.failures = run.1.flatMap Verdict.failures := by
      intro run hrun
      rw [hruns run hrun, failures_foldl_record]
      rfl
    rw [failures_foldl_merge, failures_foldl_record, flatMap_runs hfailures]
  · have hslow : ∀ run ∈ runs, run.2.slow.entries = run.1.flatMap (Verdict.slow l.slowLimit) := by
      intro run hrun
      rw [hruns run hrun, slow_foldl_record]
      rfl
    rw [slow_foldl_merge, slow_foldl_record, flatMap_runs hslow]

/-- The order of verdicts only shows in the order of failures and slow verifications. -/
theorem agrees_foldl_record (h : Combines combine P) (hl₀ : l₀.found = ∅) {vs ws : List (Verdict α)}
    (hperm : ws.Perm vs) (hvs : ∀ v ∈ vs, ∀ m ∈ v.found, P m) :
    Agrees (ws.foldl (record combine) l₀) (vs.foldl (record combine) l₀) := by
  refine ⟨toList_eq_of_getElem?_eq fun id => ?_, ?_, ?_⟩
  · have hmatches : (matchesOf id ws).Perm (matchesOf id vs) :=
      (hperm.flatMap_right Verdict.found).filter _
    rw [found_foldl_record, found_foldl_record, hl₀, Std.TreeMap.getElem?_emptyc]
    exact h.joinAll_perm hmatches allOf_none
      (allOf_matchesOf fun v hv => hvs v (hperm.mem_iff.mp hv))
  · rw [failures_foldl_record, failures_foldl_record]
    exact (hperm.flatMap_right _).append_left _
  · rw [slow_foldl_record, slow_foldl_record]
    exact (hperm.flatMap_right _).append_left _

/-- The ledgers of runs that share verdicts between them are merged into a ledger without matches as
if one run went on from it. -/
theorem agrees_foldl_merge (h : Combines combine P) {l : Ledger α} (hl : l.found = ∅)
    {vs : List (Verdict α)} (hvs : ∀ v ∈ vs, ∀ m ∈ v.found, P m)
    (hparts : (runs.flatMap (·.1)).Perm vs)
    (hruns : ∀ run ∈ runs,
      run.2 = run.1.foldl (record combine) (({} : Ledger α).limit l.slowLimit)) :
    Agrees ((runs.map (·.2)).foldl (fun l other => l.merge combine other) l)
      (vs.foldl (record combine) l) := by
  have hmerged := same_foldl_merge h hl (fun run hrun v hv =>
    hvs v (hparts.mem_iff.mp (List.mem_flatMap.mpr ⟨run, hrun, hv⟩))) hruns
  have hordered : Agrees ((runs.flatMap (·.1)).foldl (record combine) l) _ :=
    agrees_foldl_record h hl hparts hvs
  exact ⟨hmerged.found.trans hordered.found, hmerged.failures ▸ hordered.failures,
    hmerged.slow ▸ hordered.slow⟩

end Ledger

/-! ### Runs of the direct engine -/

/-- Without fatal verdicts a run of the direct engine comes to the verdicts that it records. -/
theorem Engine.conclude_direct {l : Ledger α} {vs : List (Verdict α)}
    (h : ∀ v ∈ vs, v.isFatal = false) :
    (direct combine).conclude l vs = .ok (vs.foldl (Ledger.record combine) l) :=
  congrArg (Except.bind · Except.ok) (runAll_direct h)

theorem Package.ledgerOf_direct {slowLimit : Nat} {vs : List (Verdict α)} {l : Ledger α}
    (h : ledgerOf (.direct combine) slowLimit vs = .ok l) :
    (∀ v ∈ vs, v.isFatal = false) ∧
      l = vs.foldl (Ledger.record combine) (({} : Ledger α).limit slowLimit) := by
  rw [ledgerOf] at h
  cases hrun : (Engine.direct combine).runAll ((Engine.direct combine).startWith slowLimit) vs with
  | error fault => simp only [hrun, Except.map, reduceCtorEq] at h
  | ok l' =>
    have hfatal := Engine.not_fatal_of_runAll_direct hrun
    rw [hrun] at h
    have hrecord := (Engine.runAll_direct hfatal).symm.trans hrun
    exact ⟨hfatal, (Except.ok.inj h).symm.trans (Except.ok.inj hrecord).symm⟩

theorem Package.ledgerOf_direct_of_not_fatal {slowLimit : Nat} {vs : List (Verdict α)}
    (h : ∀ v ∈ vs, v.isFatal = false) : ledgerOf (.direct combine) slowLimit vs =
      .ok (vs.foldl (Ledger.record combine) (({} : Ledger α).limit slowLimit)) :=
  congrArg (Except.map (Engine.direct combine).ledger) (Engine.runAll_direct h)

/-- A run of the direct engine fails for its first fatal verdict. -/
theorem Package.ledgerOf_direct_of_find? {slowLimit : Nat} {vs : List (Verdict α)} {v : Verdict α}
    (h : vs.find? Verdict.isFatal = some v) : ∃ fault, v.result = .error fault ∧
      fault.isFatal = true ∧ ledgerOf (.direct combine) slowLimit vs = .error fault := by
  obtain ⟨fault, hresult, hfatal, hrun⟩ :=
    Engine.runAll_direct_of_find? combine (({} : Ledger α).limit slowLimit) h
  exact ⟨fault, hresult, hfatal, congrArg (Except.map (Engine.direct combine).ledger) hrun⟩

end Percolator
