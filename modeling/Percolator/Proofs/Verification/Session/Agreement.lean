import Percolator.Proofs.Verification.Merging
import Percolator.Proofs.Verification.Session.Pooled
import Percolator.Proofs.Verification.Session.Progress
import Percolator.Proofs.Verification.Strategy

/-!
# Sessions come to what one run comes to

The workers of a session share the verdicts between them, and what the strategies find can be
combined in any order. A session therefore returns the ledger of a direct run up to order, unless a
verdict is fatal. Then it returns an error.

## Main definitions

* `Session.Agrees` : a session came to what one run comes to.

## Main results

* `Session.returns_agreeing` : every session returns what a direct run comes to.
-/

namespace Percolator

variable {α : Type} {combine : Match α → Match α → Match α}

/-! ### Sessions with the direct engine -/

theorem PoolSettings.pos_of_validate {settings settings' : PoolSettings}
    (h : settings.validate = .ok settings') : 0 < settings.threads ∧ 0 < settings.capacity := by
  simp only [validate] at h
  split at h
  · simp only [reduceCtorEq] at h
  · next hthreads =>
    split at h
    · simp only [reduceCtorEq] at h
    · next hcapacity => exact ⟨Nat.pos_of_ne_zero hthreads, Nat.pos_of_ne_zero hcapacity⟩

namespace Session

variable {P : Match α → Prop} {slowLimit : Nat} {vs : List (Verdict α)}
  {answers : List (Except Fault (Option (Match α)))} {result : Except Fault (Ledger α)}

/-- What a session returns that began with a ledger without matches, if no verdict is fatal. -/
theorem Outcome.agrees {l : Ledger α} (h : Combines combine P) (hl : l.found = ∅)
    (hvs : ∀ v ∈ vs, ∀ m ∈ v.found, P m)
    (houtcome : Outcome (.direct combine) l vs answers result)
    (hfatal : ∀ v ∈ vs, v.isFatal = false) :
    answers = vs.map (fun _ => .ok none) ∧ ∃ l', result = .ok l' ∧
      l'.Agrees (vs.foldl (Ledger.record combine) l) := by
  cases houtcome with
  | merged runs hparts hruns =>
    refine ⟨rfl, _, rfl, Ledger.agrees_foldl_merge h hl hvs hparts fun run hrun => ?_⟩
    exact (Package.ledgerOf_direct (hruns run hrun)).2
  | failed part hpart hrun i =>
    rw [Package.ledgerOf_direct_of_not_fatal fun v hv => hfatal v (hpart v hv)] at hrun
    simp only [reduceCtorEq] at hrun

/-- What a session returns with a fatal verdict. -/
theorem Outcome.isFatal {l : Ledger α}
    (houtcome : Outcome (.direct combine) l vs answers result)
    (hfatal : ∃ v ∈ vs, v.isFatal = true) :
    ∃ fault, result = .error fault ∧ fault.isFatal = true := by
  cases houtcome with
  | merged runs hparts hruns =>
    obtain ⟨v, hv, hfatal⟩ := hfatal
    obtain ⟨run, hrun, hv⟩ := List.mem_flatMap.mp (hparts.mem_iff.mpr hv)
    have hnot := (Package.ledgerOf_direct (hruns run hrun)).1 v hv
    simp only [hfatal, Bool.true_eq_false] at hnot
  | failed part hpart hrun i =>
    exact ⟨_, rfl, (Fault.isFatal_toError rfl).trans (Package.isFatal_of_ledgerOf hrun)⟩

/-- The session came to what one run of the direct engine comes to, up to order, and to a fatal
fault if a verdict is fatal. -/
structure Agrees {σ : Type} (combine : Match α → Match α → Match α) (slowLimit : Nat)
    (vs : List (Verdict α)) (c : Session σ α) : Prop where
  answers : (∀ v ∈ vs, v.isFatal = false) → c.answers = vs.map fun _ => .ok none
  ledger : (∀ v ∈ vs, v.isFatal = false) → ∃ l l',
    (Engine.direct combine).conclude ((Engine.direct combine).startWith slowLimit) vs = .ok l' ∧
      c.phase = .returned (.ok l) ∧ l.Agrees l'
  fatal : (∃ v ∈ vs, v.isFatal = true) →
    ∃ fault, c.phase = .returned (.error fault) ∧ fault.isFatal = true

private theorem Outcome.sessionAgrees {σ : Type} {c : Session σ α} (h : Combines combine P)
    (hvs : ∀ v ∈ vs, ∀ m ∈ v.found, P m) (hreturned : c.phase = .returned result)
    (houtcome : Outcome (.direct combine) (({} : Ledger α).limit slowLimit) vs c.answers result) :
    c.Agrees combine slowLimit vs where
  answers hfatal := (houtcome.agrees h rfl hvs hfatal).1
  ledger hfatal := by
    obtain ⟨-, l, rfl, hagrees⟩ := houtcome.agrees h rfl hvs hfatal
    exact ⟨l, _, Engine.conclude_direct hfatal, hreturned, hagrees⟩
  fatal hfatal := by
    obtain ⟨fault, rfl, hisFatal⟩ := houtcome.isFatal hfatal
    exact ⟨fault, hreturned, hisFatal⟩

/-- In whatever order the coordinator and the workers take their steps, a pool of workers returns
what one run of the direct engine comes to, and the pooled engine takes the steps in one of these
orders. -/
theorem returns_agreeing {s : Strategy α} (hs : s.BuiltIn) {settings : PoolSettings}
    (hsettings : settings.validate = .ok settings) (slowLimit : Nat) {vs : List (Verdict α)}
    (hvs : ∀ v ∈ vs, ∀ known, v.result = .ok (some known) → s.Finds known) :
    Returns settings (.direct s.combine) (Agrees s.combine slowLimit vs)
        (begin (Ledger α) (({} : Ledger α).limit slowLimit) vs) ∧
      ∃ c, Steps settings (.direct s.combine)
          (begin (Ledger α) (({} : Ledger α).limit slowLimit) vs) c ∧
        c.phase = .returned ((Engine.pooled settings (.direct s.combine)).conclude
          ((Engine.pooled settings (.direct s.combine)).startWith slowLimit) vs) := by
  obtain ⟨hthreads, hcapacity⟩ := PoolSettings.pos_of_validate hsettings
  obtain ⟨P, hcombines, hfinds⟩ := hs.combines
  have hfound : ∀ v ∈ vs, ∀ m ∈ v.found, P m := by
    intro v hv m hm
    obtain ⟨known, hresult, rfl⟩ := Verdict.mem_found_iff.mp hm
    exact hfinds _ (hvs v hv known hresult)
  refine ⟨Invariant.begin.returns hthreads hcapacity fun c result hreturned houtcome => ?_,
    exists_steps_pooled hthreads hcapacity⟩
  exact houtcome.sessionAgrees hcombines hfound hreturned

/-- Two scores of one query, and a failure. -/
def someScores : List (Verdict Float32) :=
  [⟨"q", .ok (some 1), 0⟩, ⟨"q", .ok (some 2), 0⟩, ⟨"r", .error (.error .invalidGlob), 0⟩]

/-- Two workers that share the scores return what one run comes to. -/
theorem returns_agreeing_someScores :
    Returns ⟨2, 1⟩ (.direct Strategy.scoring.combine) (Agrees Strategy.scoring.combine 0 someScores)
        (begin (Ledger Float32) (({} : Ledger Float32).limit 0) someScores) ∧
      ∃ c, Steps ⟨2, 1⟩ (.direct Strategy.scoring.combine)
          (begin (Ledger Float32) (({} : Ledger Float32).limit 0) someScores) c ∧
        c.phase = .returned ((Engine.pooled ⟨2, 1⟩ (.direct Strategy.scoring.combine)).conclude
          ((Engine.pooled ⟨2, 1⟩ (.direct Strategy.scoring.combine)).startWith 0) someScores) := by
  have hfinds : ∀ score : Float32, 0 < score → Strategy.scoring.Finds score := fun score hpos =>
    ⟨{}, ⟨"q", .all score, none⟩, congrArg Except.ok (if_pos hpos)⟩
  refine returns_agreeing .scoring rfl 0 fun v hv known hresult => hfinds known ?_
  rcases List.mem_cons.mp hv with rfl | hv
  · obtain rfl := Option.some.inj (Except.ok.inj hresult)
    decide
  · rcases List.mem_cons.mp hv with rfl | hv
    · obtain rfl := Option.some.inj (Except.ok.inj hresult)
      decide
    · obtain rfl := List.mem_singleton.mp hv
      simp only [reduceCtorEq] at hresult

end Session

end Percolator
