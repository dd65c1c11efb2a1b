import Percolator.Proofs.Verification.Merging
import Percolator.Proofs.Verification.Runs
import Percolator.Proofs.Verification.Strategy

/-!
# Packages come to what one run comes to

Packages are run at the same time, as many as there are threads, and take their steps in any order.
No package looks at another one, so that every order of steps brings each package to the ledger of a
run of its own. These ledgers are merged in the order of the packages, and the packages put one
behind the other are the candidates: what the packages come to is what one run comes to.

## Main definitions

* `Stage` : what has become of a package.
* `Package.Step` : one step of one package.
* `Package.Ends` : all orders of steps end, with outcomes that have some property.
* `Package.Repeats` : packages came to what one run comes to.

## Main results

* `Package.flatten_cut` : the packages are the candidates in order.
* `Package.ends` : every order of steps ends with the outcomes of separate runs.
* `Package.repeats_settle` : the outcomes of separate runs come to what one run comes to.
* `Package.ends_repeating` : both together, for the strategies there are.
-/

namespace Percolator

variable {α : Type}

/-! ### Cutting -/

namespace Package

theorem flatten_range_map {size : Nat} {vs : List α} (n : Nat) :
    ((List.range n).map fun i => (vs.drop (i * size)).take size).flatten = vs.take (n * size) := by
  induction n with
  | zero => rw [Nat.zero_mul]; rfl
  | succ n ih =>
    rw [List.range_succ, List.map_append, List.flatten_append, ih, List.map_singleton,
      List.flatten_singleton, Nat.succ_mul, List.take_add]

/-- The packages one behind the other are what was cut. -/
theorem flatten_cut {size : Nat} (h : 0 < size) (vs : List α) : (cut size vs).flatten = vs := by
  have hcover : vs.length ≤ (vs.length + size - 1) / size * size := by
    have hmod := Nat.mod_lt (vs.length + size - 1) h
    have hdiv := Nat.div_add_mod' (vs.length + size - 1) size
    omega
  rw [cut, flatten_range_map, List.take_of_length_le hcover]

end Package

/-! ### Packages at the same time -/

/-- What has become of a package. -/
inductive Stage (σ α : Type) where
  /-- No thread has begun with it. -/
  | waiting (package : List (Verdict α))
  /-- It is run, and these verdicts are left. -/
  | running (state : σ) (rest : List (Verdict α))
  | ended (outcome : Except Fault (Ledger α))

namespace Stage

/-- A thread is at the package. -/
def isRunning {σ : Type} : Stage σ α → Bool
  | .running .. => true
  | _ => false

/-- One step of a package that is run. -/
inductive Step (e : Engine α) : Stage e.State α → Stage e.State α → Prop
  | enter {s v rest s'} (h : e.run v s = (.ok (), s')) :
    Step e (.running s (v :: rest)) (.running s' rest)
  | fail {s v rest fault s'} (h : e.run v s = (.error fault, s')) :
    Step e (.running s (v :: rest)) (.ended (.error fault))
  | close {s} : Step e (.running s []) (.ended (.ok (e.ledger s)))

/-- What the package comes to, whatever becomes of the others. -/
def outcome (e : Engine α) (slowLimit : Nat) : Stage e.State α → Except Fault (Ledger α)
  | .waiting package => Package.ledgerOf e slowLimit package
  | .running s rest => (e.runAll s rest).map e.ledger
  | .ended outcome => outcome

/-- How many steps the package is from its end, at most. -/
def weight {σ : Type} : Stage σ α → Nat
  | .waiting package => package.length + 2
  | .running _ rest => rest.length + 1
  | .ended _ => 0

variable {e : Engine α} {stage stage' : Stage e.State α}

namespace Step

theorem outcome_eq (h : Step e stage stage') (slowLimit : Nat) :
    stage'.outcome e slowLimit = stage.outcome e slowLimit := by
  cases h with
  | enter h => simp only [outcome, Engine.runAll, h]
  | fail h => simp only [outcome, Engine.runAll, h, Except.map]
  | close => rfl

theorem weight_lt (h : Step e stage stage') : stage'.weight < stage.weight := by
  cases h <;> simp only [weight, List.length_cons] <;> omega

end Step

theorem exists_step (h : stage.isRunning = true) : ∃ stage', Step e stage stage' := by
  cases stage with
  | waiting package => simp only [isRunning, Bool.false_eq_true] at h
  | running s rest =>
    cases rest with
    | nil => exact ⟨_, .close⟩
    | cons v rest =>
      rcases hrun : e.run v s with ⟨_ | _, s'⟩
      · exact ⟨_, .fail hrun⟩
      · exact ⟨_, .enter hrun⟩
  | ended outcome => simp only [isRunning, Bool.false_eq_true] at h

end Stage

namespace Package

/-- One step of one package. A thread that is free may begin with any package. -/
inductive Step (threads : Nat) (e : Engine α) (slowLimit : Nat) :
    List (Stage e.State α) → List (Stage e.State α) → Prop
  | begin {front package behind}
    (hfree : (front ++ .waiting package :: behind).countP Stage.isRunning < threads) :
    Step threads e slowLimit (front ++ .waiting package :: behind)
      (front ++ .running (e.startWith slowLimit) package :: behind)
  | go {front stage stage' behind} (h : Stage.Step e stage stage') :
    Step threads e slowLimit (front ++ stage :: behind) (front ++ stage' :: behind)

/-- All orders of steps end, with outcomes of the packages that have the property. -/
inductive Ends (threads : Nat) (e : Engine α) (slowLimit : Nat)
    (post : List (Except Fault (Ledger α)) → Prop) : List (Stage e.State α) → Prop
  | now {outcomes} (hpost : post outcomes) : Ends threads e slowLimit post (outcomes.map .ended)
  | later {stages} (hstep : ∃ stages', Step threads e slowLimit stages stages')
    (hsteps : ∀ stages', Step threads e slowLimit stages stages' →
      Ends threads e slowLimit post stages') : Ends threads e slowLimit post stages

variable {threads slowLimit : Nat} {e : Engine α} {stages stages' : List (Stage e.State α)}

/-- No step changes what the packages come to. -/
theorem Step.map_outcome (h : Step threads e slowLimit stages stages') :
    stages'.map (Stage.outcome e slowLimit) = stages.map (Stage.outcome e slowLimit) := by
  cases h with
  | begin hfree => rw [List.map_append, List.map_append]; rfl
  | go h => rw [List.map_append, List.map_append, List.map_cons, List.map_cons, h.outcome_eq]

/-- Every step brings the packages nearer to their end. -/
theorem Step.weight_lt (h : Step threads e slowLimit stages stages') :
    (stages'.map Stage.weight).sum < (stages.map Stage.weight).sum := by
  cases h with
  | begin hfree =>
    simp only [List.map_append, List.map_cons, List.sum_append, List.sum_cons, Stage.weight]
    omega
  | go h =>
    have hlt := h.weight_lt
    simp only [List.map_append, List.map_cons, List.sum_append, List.sum_cons]
    omega

/-- Packages that have not all ended can go on: one that is run goes on by itself, and if there is
none, every thread is free. -/
theorem exists_step (hthreads : 0 < threads) (stages : List (Stage e.State α)) :
    (stages.map (Stage.outcome e slowLimit)).map .ended = stages ∨
      ∃ stages', Step threads e slowLimit stages stages' := by
  by_cases hrunning : ∃ stage ∈ stages, stage.isRunning = true
  · obtain ⟨stage, hmem, hrunning⟩ := hrunning
    obtain ⟨front, behind, rfl⟩ := List.append_of_mem hmem
    obtain ⟨stage', h⟩ := Stage.exists_step hrunning
    exact .inr ⟨_, .go h⟩
  · by_cases hwaiting : ∃ package, .waiting package ∈ stages
    · obtain ⟨package, hmem⟩ := hwaiting
      have hnone : stages.countP Stage.isRunning = 0 :=
        List.countP_eq_zero.mpr fun stage hstage h => hrunning ⟨stage, hstage, h⟩
      obtain ⟨front, behind, rfl⟩ := List.append_of_mem hmem
      exact .inr ⟨_, .begin (hnone ▸ hthreads)⟩
    · refine .inl ?_
      rw [List.map_map]
      refine (List.map_congr_left fun stage hstage => ?_).trans (List.map_id stages)
      cases stage with
      | waiting package => exact absurd ⟨package, hstage⟩ hwaiting
      | running s rest => exact absurd ⟨_, hstage, rfl⟩ hrunning
      | ended outcome => rfl

/-- Every order of steps ends, and the packages come to what they come to by themselves. -/
theorem ends {post : List (Except Fault (Ledger α)) → Prop} (hthreads : 0 < threads)
    (hpost : post (stages.map (Stage.outcome e slowLimit))) :
    Ends threads e slowLimit post stages := by
  induction hweight : (stages.map Stage.weight).sum using Nat.strongRecOn generalizing stages with
  | ind n ih =>
    rcases exists_step hthreads stages with hended | hstep
    · exact hended ▸ .now hpost
    · refine .later hstep fun stages' h => ?_
      exact ih _ (hweight ▸ h.weight_lt) (h.map_outcome.symm ▸ hpost) rfl

/-! ### What packages come to -/

/-- What a run comes to when its packages have ended, from the ledger that it had by itself. -/
def settle (combine : Match α → Match α → Match α) (l : Ledger α)
    (outcomes : List (Except Fault (Ledger α))) : Except Fault (Ledger α) :=
  match allLedgers 0 outcomes with
  | .ok ledgers => .ok (ledgers.foldl (fun l other => l.merge combine other) l)
  | .error error => .error (.error error)

/-- The run came to what one run of the direct engine comes to, in the same order, to the error of
the first fatal verdict if nothing crashes, and to a fatal fault if something does. -/
structure Repeats (combine : Match α → Match α → Match α) (slowLimit : Nat) (vs : List (Verdict α))
    (result : Except Fault (Ledger α)) : Prop where
  ledger : (∀ v ∈ vs, v.isFatal = false) → ∃ l l',
    (Engine.direct combine).conclude ((Engine.direct combine).startWith slowLimit) vs = .ok l' ∧
      result = .ok l ∧ l.Same l'
  error : (∃ v ∈ vs, v.isFatal = true) → (∀ v ∈ vs, v.result ≠ .error .crash) →
    ∃ v error, vs.find? Verdict.isFatal = some v ∧ v.result = .error (.error error) ∧
      result = .error (.error error)
  fatal : (∃ v ∈ vs, v.isFatal = true) → ∃ fault, result = .error fault ∧ fault.isFatal = true

variable {combine : Match α → Match α → Match α} {P : Match α → Prop} {vs : List (Verdict α)}
  {packages : List (List (Verdict α))}

theorem allLedgers_of_ok {ledger : List (Verdict α) → Ledger α} (i : Nat)
    (h : ∀ package ∈ packages, ledgerOf e slowLimit package = .ok (ledger package)) :
    allLedgers i (packages.map (ledgerOf e slowLimit)) = .ok (packages.map ledger) := by
  induction packages generalizing i with
  | nil => rfl
  | cons package rest ih =>
    obtain ⟨hpackage, hrest⟩ := List.forall_mem_cons.mp h
    simp only [List.map_cons, hpackage, allLedgers, ih (i + 1) hrest, Except.map]

theorem allLedgers_direct (i : Nat) (h : ∀ v ∈ packages.flatten, v.isFatal = false) :
    allLedgers i (packages.map (ledgerOf (.direct combine) slowLimit)) =
      .ok (packages.map (·.foldl (Ledger.record combine) (({} : Ledger α).limit slowLimit))) := by
  refine allLedgers_of_ok i fun package hpackage => ledgerOf_direct_of_not_fatal fun v hv => ?_
  exact h v (List.mem_flatten_of_mem hpackage hv)

/-- The first fatal verdict is in the first package that fails, and is why this package fails. -/
theorem allLedgers_direct_of_find? (i : Nat) {v : Verdict α}
    (h : packages.flatten.find? Verdict.isFatal = some v) :
    ∃ j fault, v.result = .error fault ∧ fault.isFatal = true ∧
      allLedgers i (packages.map (ledgerOf (.direct combine) slowLimit)) =
        .error (cause j fault) := by
  induction packages generalizing i with
  | nil => simp only [List.flatten_nil, List.find?_nil, reduceCtorEq] at h
  | cons package rest ih =>
    rw [List.flatten_cons, List.find?_append] at h
    cases hpackage : package.find? Verdict.isFatal with
    | none =>
      rw [hpackage, Option.none_or] at h
      have hnot : ∀ v ∈ package, v.isFatal = false := fun v hv =>
        Bool.eq_false_iff.mpr (List.find?_eq_none.mp hpackage v hv)
      obtain ⟨j, fault, hresult, hfatal, hall⟩ := ih (i + 1) h
      refine ⟨j, fault, hresult, hfatal, ?_⟩
      simp only [List.map_cons, ledgerOf_direct_of_not_fatal hnot, allLedgers, hall, Except.map]
    | some w =>
      rw [hpackage, Option.some_or] at h
      obtain rfl := Option.some.inj h
      obtain ⟨fault, hresult, hfatal, hrun⟩ :=
        @ledgerOf_direct_of_find? _ combine slowLimit _ _ hpackage
      exact ⟨i, fault, hresult, hfatal, by simp only [List.map_cons, hrun, allLedgers]⟩

/-- Without fatal verdicts, separate runs are merged to one run with all packages. -/
theorem same_settle (h : Combines combine P)
    (hfound : ∀ v ∈ packages.flatten, ∀ m ∈ v.found, P m)
    (hfatal : ∀ v ∈ packages.flatten, v.isFatal = false) :
    ∃ l, settle combine (({} : Ledger α).limit slowLimit)
        (packages.map (ledgerOf (.direct combine) slowLimit)) = .ok l ∧
      l.Same
        (packages.flatten.foldl (Ledger.record combine) (({} : Ledger α).limit slowLimit)) := by
  refine ⟨_, by rw [settle, allLedgers_direct 0 hfatal], ?_⟩
  have hmerged := @Ledger.same_foldl_merge _ _ _ (packages.map fun package =>
      (package, package.foldl (Ledger.record combine) (({} : Ledger α).limit slowLimit)))
    h (({} : Ledger α).limit slowLimit) rfl
    (List.forall_mem_map.mpr fun package hpackage v hv =>
      hfound v (List.mem_flatten_of_mem hpackage hv))
    (List.forall_mem_map.mpr fun _ _ => rfl)
  rwa [List.map_map, List.flatMap_map, List.flatMap_id'] at hmerged

/-- Separate runs fail for the first fatal verdict. -/
theorem settle_of_find? {v : Verdict α} (h : packages.flatten.find? Verdict.isFatal = some v) :
    ∃ i fault, v.result = .error fault ∧ fault.isFatal = true ∧
      settle combine (({} : Ledger α).limit slowLimit)
        (packages.map (ledgerOf (.direct combine) slowLimit)) =
          .error (.error (cause i fault)) := by
  obtain ⟨i, fault, hresult, hfatal, hall⟩ :=
    @allLedgers_direct_of_find? _ slowLimit combine _ 0 _ h
  exact ⟨i, fault, hresult, hfatal, by rw [settle, hall]⟩

/-- Separate runs with packages come to what one run with all of them comes to. -/
theorem repeats_settle (h : Combines combine P)
    (hfound : ∀ v ∈ packages.flatten, ∀ m ∈ v.found, P m) :
    Repeats combine slowLimit packages.flatten (settle combine (({} : Ledger α).limit slowLimit)
      (packages.map (ledgerOf (.direct combine) slowLimit))) where
  ledger hfatal := by
    obtain ⟨l, hsettle, hsame⟩ := same_settle h hfound hfatal
    exact ⟨l, _, Engine.conclude_direct hfatal, hsettle, hsame⟩
  error hfatal hcrash := by
    obtain ⟨v, hv⟩ := Option.isSome_iff_exists.mp (List.find?_isSome.mpr hfatal)
    obtain ⟨i, fault, hresult, -, hsettle⟩ := settle_of_find? hv
    cases fault with
    | error error => exact ⟨v, error, hv, hresult, hsettle⟩
    | crash => exact absurd hresult (hcrash v (List.mem_of_find?_eq_some hv))
  fatal hfatal := by
    obtain ⟨v, hv⟩ := Option.isSome_iff_exists.mp (List.find?_isSome.mpr hfatal)
    obtain ⟨i, fault, -, hfault, hsettle⟩ := settle_of_find? hv
    exact ⟨_, hsettle, (Fault.isFatal_toError rfl).trans hfault⟩

/-- The engine that runs in packages puts all verdicts off. -/
theorem runAll_packaged {settings : PackageSettings} {s : PackagedRun α} :
    (Engine.packaged settings e).runAll s vs = .ok { s with waiting := s.waiting ++ vs } := by
  induction vs generalizing s with
  | nil => rw [List.append_nil]; rfl
  | cons v rest ih =>
    refine ih.trans ?_
    simp only [List.append_assoc, List.singleton_append]

theorem conclude_packaged {settings : PackageSettings} :
    (Engine.packaged settings e).conclude ((Engine.packaged settings e).startWith slowLimit) vs =
      settle e.combine (({} : Ledger α).limit slowLimit)
        ((cut settings.size vs).map (ledgerOf e slowLimit)) :=
  congrArg (Except.bind · (Engine.packaged settings e).finish) runAll_packaged

/-! ### The strategies -/

theorem size_pos_of_validate {settings settings' : PackageSettings}
    (h : settings.validate = .ok settings') : 0 < settings.size := by
  rw [PackageSettings.validate] at h
  split at h
  · simp only [reduceCtorEq] at h
  · next hsize => exact Nat.pos_of_ne_zero hsize

theorem threadsFor_pos (settings : PackageSettings) (packages : Nat) :
    0 < settings.threadsFor packages :=
  Nat.lt_of_lt_of_le Nat.zero_lt_one (Nat.le_max_left _ _)

/-- In whatever order the packages take their steps, they come to what one run of the direct engine
comes to, and so does the engine that runs in packages. -/
theorem ends_repeating {s : Strategy α} (hs : s.BuiltIn) {settings : PackageSettings}
    (hsettings : settings.validate = .ok settings) (slowLimit : Nat) {vs : List (Verdict α)}
    (hvs : ∀ v ∈ vs, ∀ known, v.result = .ok (some known) → s.Finds known) :
    Ends (settings.threadsFor (cut settings.size vs).length) (.direct s.combine) slowLimit
        (fun outcomes => Repeats s.combine slowLimit vs
          (settle s.combine (({} : Ledger α).limit slowLimit) outcomes))
        ((cut settings.size vs).map .waiting) ∧
      Repeats s.combine slowLimit vs ((Engine.packaged settings (.direct s.combine)).conclude
        ((Engine.packaged settings (.direct s.combine)).startWith slowLimit) vs) := by
  obtain ⟨P, hcombines, hfinds⟩ := hs.combines
  have hcut := flatten_cut (size_pos_of_validate hsettings) vs
  have hfound : ∀ v ∈ (cut settings.size vs).flatten, ∀ m ∈ v.found, P m := by
    rw [hcut]
    intro v hv m hm
    obtain ⟨known, hresult, rfl⟩ := Verdict.mem_found_iff.mp hm
    exact hfinds _ (hvs v hv known hresult)
  have hrepeats := @repeats_settle _ slowLimit _ _ _ hcombines hfound
  rw [hcut] at hrepeats
  refine ⟨ends (threadsFor_pos _ _) ?_, ?_⟩
  · rw [List.map_map]
    exact hrepeats
  · rw [conclude_packaged]
    exact hrepeats

/-- Two scores of one query in different packages, with a failure between them. -/
def straddling : List (Verdict Float32) :=
  [⟨"q", .ok (some 2), 3⟩, ⟨"r", .error (.error .invalidGlob), 0⟩, ⟨"q", .ok (some 1), 5⟩]

/-- Packages of two candidates on one thread, in any order, come to what one run comes to. -/
theorem ends_repeating_straddling :
    Ends ((⟨2, some 1⟩ : PackageSettings).threadsFor (cut 2 straddling).length)
        (.direct Strategy.scoring.combine) 1
        (fun outcomes => Repeats Strategy.scoring.combine 1 straddling
          (settle Strategy.scoring.combine (({} : Ledger Float32).limit 1) outcomes))
        ((cut 2 straddling).map .waiting) ∧
      Repeats Strategy.scoring.combine 1 straddling
        ((Engine.packaged ⟨2, some 1⟩ (.direct Strategy.scoring.combine)).conclude
          ((Engine.packaged ⟨2, some 1⟩ (.direct Strategy.scoring.combine)).startWith 1)
          straddling) := by
  refine @ends_repeating _ _ .scoring ⟨2, some 1⟩ rfl 1 _ fun v hv known hresult =>
    Strategy.finds_of_pos ?_
  simp only [straddling, List.mem_cons, List.not_mem_nil, or_false] at hv
  rcases hv with rfl | rfl | rfl
  · obtain rfl := Option.some.inj (Except.ok.inj hresult)
    decide
  · simp only [reduceCtorEq] at hresult
  · obtain rfl := Option.some.inj (Except.ok.inj hresult)
    decide

end Package

end Percolator
