import Mathlib.Data.List.Perm.Basic
import Percolator.Verification.Engine

/-!
# What ledgers come to

A ledger that verdicts are entered into one after the other holds, for each query, the matches among
them joined in order, and the failures and slow verifications as a list. Where two matches of one
query are combined by a commutative and associative operation, the joined match depends neither on
the order of the verdicts nor on how they are spread over ledgers that are merged.

## Main definitions

* `Verdict.found`, `Verdict.failures`, `Verdict.slow` : what a verdict adds to a ledger.
* `Ledger.record` : a verdict is entered and its error reported.
* `Combines` : the laws of combining matches.

## Main results

* `Engine.runAll_direct` : the direct engine records verdicts up to the first fatal one.
* `Ledger.found_foldl_record`, `Ledger.found_merge` : the joined matches of a ledger.
* `joinAll_perm`, `joinAll_append` : the order of matches does not matter.
-/

namespace Percolator

variable {α : Type} {combine : Match α → Match α → Match α}

/-! ### Joined matches -/

/-- All matches of one query, combined from the first to the last. -/
def joinAll (combine : Match α → Match α → Match α) (o : Option (Match α)) (ms : List (Match α)) :
    Option (Match α) :=
  ms.foldl (fun o m => o.merge combine (some m)) o

private theorem joinAll_joinAll {o : Option (Match α)} {ms ns : List (Match α)} :
    joinAll combine (joinAll combine o ms) ns = joinAll combine o (ms ++ ns) :=
  List.foldl_append.symm

private theorem isSome_joinAll {o : Option (Match α)} {ms : List (Match α)} :
    (joinAll combine o ms).isSome ↔ o.isSome ∨ ms ≠ [] := by
  induction ms generalizing o with
  | nil => simp only [joinAll, List.foldl_nil, ne_eq, not_true_eq_false, or_false]
  | cons m rest ih =>
    refine iff_of_true (ih.mpr (.inl ?_)) (.inr (List.cons_ne_nil m rest))
    rw [Option.isSome_merge, Option.isSome_some, Bool.or_true]

/-- Combining matches of one query with the property `P` is commutative and associative. -/
structure Combines (combine : Match α → Match α → Match α) (P : Match α → Prop) : Prop where
  id_eq : ∀ a b, a.id = b.id → (combine a b).id = a.id
  closed : ∀ a b, a.id = b.id → P a → P b → P (combine a b)
  comm : ∀ a b, a.id = b.id → P a → P b → combine a b = combine b a
  assoc : ∀ a b c, a.id = b.id → b.id = c.id → P a → P b → P c →
    combine (combine a b) c = combine a (combine b c)

/-- Matches of the query with the property `P`. -/
def AllOf (P : Match α → Prop) (id : String) (ms : List (Match α)) : Prop :=
  ∀ m ∈ ms, m.id = id ∧ P m

namespace Combines

variable {P : Match α → Prop} {id : String} {ms ns : List (Match α)} {o : Option (Match α)}

theorem allOf_merge (h : Combines combine P) {o' : Option (Match α)} (ho : AllOf P id o.toList)
    (ho' : AllOf P id o'.toList) : AllOf P id (o.merge combine o').toList := by
  cases o with
  | none => rwa [Option.merge_none_left]
  | some a =>
    cases o' with
    | none => rwa [Option.merge_none_right]
    | some b =>
      obtain ⟨rfl, ha⟩ := ho a List.mem_cons_self
      obtain ⟨hid, hb⟩ := ho' b List.mem_cons_self
      intro m hm
      rw [Option.merge_some_some, Option.toList_some, List.mem_singleton] at hm
      subst hm
      exact ⟨h.id_eq a b hid.symm, h.closed a b hid.symm ha hb⟩

theorem merge_assoc (h : Combines combine P) {o₁ o₂ o₃ : Option (Match α)}
    (h₁ : AllOf P id o₁.toList) (h₂ : AllOf P id o₂.toList) (h₃ : AllOf P id o₃.toList) :
    (o₁.merge combine o₂).merge combine o₃ = o₁.merge combine (o₂.merge combine o₃) := by
  cases o₁ with
  | none => simp only [Option.merge_none_left]
  | some a =>
    cases o₂ with
    | none => simp only [Option.merge_none_left, Option.merge_none_right]
    | some b =>
      cases o₃ with
      | none => simp only [Option.merge_none_right]
      | some c =>
        obtain ⟨ha, hPa⟩ := h₁ a List.mem_cons_self
        obtain ⟨hb, hPb⟩ := h₂ b List.mem_cons_self
        obtain ⟨hc, hPc⟩ := h₃ c List.mem_cons_self
        simp only [Option.merge_some_some, Option.some.injEq]
        exact h.assoc a b c (ha.trans hb.symm) (hb.trans hc.symm) hPa hPb hPc

theorem merge_comm (h : Combines combine P) {o₁ o₂ : Option (Match α)}
    (h₁ : AllOf P id o₁.toList) (h₂ : AllOf P id o₂.toList) :
    o₁.merge combine o₂ = o₂.merge combine o₁ := by
  cases o₁ with
  | none => simp only [Option.merge_none_left, Option.merge_none_right]
  | some a =>
    cases o₂ with
    | none => simp only [Option.merge_none_left, Option.merge_none_right]
    | some b =>
      obtain ⟨ha, hPa⟩ := h₁ a List.mem_cons_self
      obtain ⟨hb, hPb⟩ := h₂ b List.mem_cons_self
      simp only [Option.merge_some_some, Option.some.injEq]
      exact h.comm a b (ha.trans hb.symm) hPa hPb

theorem allOf_joinAll (h : Combines combine P) (ho : AllOf P id o.toList) (hms : AllOf P id ms) :
    AllOf P id (joinAll combine o ms).toList := by
  induction ms generalizing o with
  | nil => exact ho
  | cons m rest ih =>
    obtain ⟨hm, hrest⟩ := List.forall_mem_cons.mp hms
    exact ih (h.allOf_merge ho (List.forall_mem_singleton.mpr hm)) hrest

/-- Joining matches to one is joining that one to what they come to by themselves. -/
private theorem joinAll_eq_merge (h : Combines combine P) (ho : AllOf P id o.toList)
    (hms : AllOf P id ms) : joinAll combine o ms = o.merge combine (joinAll combine none ms) := by
  induction ms generalizing o with
  | nil => exact Option.merge_none_right.symm
  | cons m rest ih =>
    obtain ⟨hm, hrest⟩ := List.forall_mem_cons.mp hms
    have hsome : AllOf P id (some m).toList := List.forall_mem_singleton.mpr hm
    calc joinAll combine o (m :: rest)
        = (o.merge combine (some m)).merge combine (joinAll combine none rest) :=
          ih (h.allOf_merge ho hsome) hrest
      _ = o.merge combine ((some m).merge combine (joinAll combine none rest)) :=
          h.merge_assoc ho hsome (h.allOf_joinAll (fun _ hn => absurd hn List.not_mem_nil) hrest)
      _ = o.merge combine (joinAll combine none (m :: rest)) := by
          rw [← ih hsome hrest]
          rfl

theorem joinAll_append (h : Combines combine P) (hms : AllOf P id ms) (hns : AllOf P id ns) :
    joinAll combine none (ms ++ ns) =
      (joinAll combine none ms).merge combine (joinAll combine none ns) := by
  rw [joinAll, List.foldl_append]
  exact h.joinAll_eq_merge (h.allOf_joinAll (fun _ hn => absurd hn List.not_mem_nil) hms) hns

/-- The order of matches does not matter. -/
theorem joinAll_perm (h : Combines combine P) (hperm : ms.Perm ns) (ho : AllOf P id o.toList)
    (hms : AllOf P id ms) : joinAll combine o ms = joinAll combine o ns := by
  induction hperm generalizing o with
  | nil => rfl
  | cons m _ ih =>
    obtain ⟨hm, hrest⟩ := List.forall_mem_cons.mp hms
    exact ih (h.allOf_merge ho (List.forall_mem_singleton.mpr hm)) hrest
  | swap a b rest =>
    obtain ⟨hb, hrest⟩ := List.forall_mem_cons.mp hms
    obtain ⟨ha, hrest⟩ := List.forall_mem_cons.mp hrest
    have ha : AllOf P id (some a).toList := List.forall_mem_singleton.mpr ha
    have hb : AllOf P id (some b).toList := List.forall_mem_singleton.mpr hb
    have hswap : (o.merge combine (some b)).merge combine (some a) =
        (o.merge combine (some a)).merge combine (some b) := by
      rw [h.merge_assoc ho hb ha, h.merge_comm hb ha, h.merge_assoc ho ha hb]
    simp only [joinAll, List.foldl_cons, hswap]
  | trans hperm _ ih ih' =>
    rw [ih ho hms, ih' ho fun m hm => hms m (hperm.mem_iff.mpr hm)]

end Combines

/-! ### What verdicts add -/

namespace Verdict

/-- The match that the verdict adds, if there is one. -/
def found (v : Verdict α) : List (Match α) :=
  match v.result with
  | .ok (some known) => [⟨v.id, known⟩]
  | _ => []

/-- The failure that the verdict adds, if there is one. -/
def failures (v : Verdict α) : List Failure :=
  match v.result with
  | .error (.error error) => [⟨v.id, error⟩]
  | _ => []

/-- The entry that the verdict adds to the log of slow verifications, if there is one. -/
def slow (slowLimit : Nat) (v : Verdict α) : List SlowEntry :=
  match v.result with
  | .error .crash => []
  | _ => if slowLimit < v.elapsed then [⟨v.id, v.elapsed⟩] else []

/-- The verdict ends a whole run. -/
def isFatal (v : Verdict α) : Bool :=
  match v.result with
  | .ok _ => false
  | .error fault => fault.isFatal

theorem mem_found_iff {v : Verdict α} {m : Match α} :
    m ∈ v.found ↔ ∃ known, v.result = .ok (some known) ∧ m = ⟨v.id, known⟩ := by
  rw [found]
  split
  · next known hresult =>
    rw [List.mem_singleton, hresult]
    constructor
    · exact fun hm => ⟨known, rfl, hm⟩
    · rintro ⟨known', hknown, rfl⟩
      rw [Option.some.inj (Except.ok.inj hknown)]
  · next hnone =>
    refine iff_of_false List.not_mem_nil ?_
    rintro ⟨known, hresult, -⟩
    exact hnone known hresult

end Verdict

namespace Ledger

variable {l other : Ledger α} {v : Verdict α} {vs : List (Verdict α)} {id : String}

/-- Enters a verdict and reports its error. -/
def record (combine : Match α → Match α → Match α) (l : Ledger α) (v : Verdict α) : Ledger α :=
  match v.result with
  | .error (.error error) => (l.enter combine v).report ⟨v.id, error⟩
  | _ => l.enter combine v

@[simp] theorem slowLimit_time {elapsed : Nat} : (l.time id elapsed).slowLimit = l.slowLimit := by
  simp only [time]
  split <;> rfl

theorem entries_time {elapsed : Nat} : (l.time id elapsed).slow.entries =
    l.slow.entries ++ if l.slowLimit < elapsed then [⟨id, elapsed⟩] else [] := by
  simp only [time]
  split
  · rfl
  · exact (List.append_nil _).symm

@[simp] theorem found_time {elapsed : Nat} : (l.time id elapsed).found = l.found := by
  simp only [time]
  split <;> rfl

@[simp] theorem failures_time {elapsed : Nat} : (l.time id elapsed).failures = l.failures := by
  simp only [time]
  split <;> rfl

theorem slowLimit_record : (l.record combine v).slowLimit = l.slowLimit := by
  simp only [record, enter]
  split <;> split <;> first | exact slowLimit_time | rfl

theorem failures_record : (l.record combine v).failures = l.failures ++ v.failures := by
  simp only [record, enter, Verdict.failures]
  match v.result with
  | .ok (some known) => simp only [add, failures_time, List.append_nil]
  | .ok none => simp only [failures_time, List.append_nil]
  | .error (.error error) => simp only [report, failures_time]
  | .error .crash => simp only [List.append_nil]

theorem slow_record :
    (l.record combine v).slow.entries = l.slow.entries ++ v.slow l.slowLimit := by
  simp only [record, enter, Verdict.slow]
  match v.result with
  | .ok (some known) => simp only [add, entries_time]
  | .ok none => simp only [entries_time]
  | .error (.error error) => simp only [report, entries_time]
  | .error .crash => simp only [List.append_nil]

theorem found_add {m : Match α} : (l.add combine m).found[id]? =
    joinAll combine l.found[id]? ([m].filter (·.id == id)) := by
  simp only [add, Std.TreeMap.getElem?_insert, Std.LawfulEqCmp.compare_eq_iff_eq,
    List.filter_cons, beq_iff_eq, List.filter_nil]
  split
  · next hid =>
    subst hid
    cases l.found[m.id]? <;> rfl
  · rfl

theorem found_record : (l.record combine v).found[id]? =
    joinAll combine l.found[id]? (v.found.filter (·.id == id)) := by
  simp only [record, enter, Verdict.found]
  match v.result with
  | .ok (some known) =>
    rw [← found_time (l := l), ← found_add]
  | .ok none => simp only [found_time, List.filter_nil, joinAll, List.foldl_nil]
  | .error (.error error) =>
    simp only [report, found_time, List.filter_nil, joinAll, List.foldl_nil]
  | .error .crash => simp only [List.filter_nil, joinAll, List.foldl_nil]

/-! ### Recording verdicts -/

theorem failures_foldl_record :
    (vs.foldl (record combine) l).failures = l.failures ++ vs.flatMap Verdict.failures := by
  induction vs generalizing l with
  | nil => exact (List.append_nil _).symm
  | cons v rest ih =>
    rw [List.foldl_cons, ih, failures_record, List.append_assoc, List.flatMap_cons]

theorem slow_foldl_record : (vs.foldl (record combine) l).slow.entries =
    l.slow.entries ++ vs.flatMap (Verdict.slow l.slowLimit) := by
  induction vs generalizing l with
  | nil => exact (List.append_nil _).symm
  | cons v rest ih =>
    rw [List.foldl_cons, ih, slow_record, slowLimit_record, List.append_assoc, List.flatMap_cons]

/-- The matches of a query among verdicts, in order. -/
def matchesOf (id : String) (vs : List (Verdict α)) : List (Match α) :=
  (vs.flatMap Verdict.found).filter (·.id == id)

theorem matchesOf_append {ws : List (Verdict α)} :
    matchesOf id (vs ++ ws) = matchesOf id vs ++ matchesOf id ws := by
  simp only [matchesOf, List.flatMap_append, List.filter_append]

theorem matchesOf_ne_nil_iff : matchesOf id vs ≠ [] ↔
    ∃ v ∈ vs, v.id = id ∧ ∃ known, v.result = .ok (some known) := by
  rw [matchesOf, ne_eq, List.filter_eq_nil_iff]
  simp only [List.mem_flatMap, beq_iff_eq, not_forall, not_not, exists_prop]
  constructor
  · rintro ⟨m, ⟨v, hv, hm⟩, hid⟩
    obtain ⟨known, hresult, rfl⟩ := Verdict.mem_found_iff.mp hm
    exact ⟨v, hv, hid, known, hresult⟩
  · rintro ⟨v, hv, hid, known, hresult⟩
    exact ⟨⟨v.id, known⟩, ⟨v, hv, Verdict.mem_found_iff.mpr ⟨known, hresult, rfl⟩⟩, hid⟩

theorem found_foldl_record : (vs.foldl (record combine) l).found[id]? =
    joinAll combine l.found[id]? (matchesOf id vs) := by
  induction vs generalizing l with
  | nil => rfl
  | cons v rest ih =>
    have hv : v.found.filter (·.id == id) = matchesOf id [v] := by
      rw [matchesOf, List.flatMap_singleton]
    rw [List.foldl_cons, ih, found_record, hv, joinAll_joinAll, ← matchesOf_append]
    rfl

/-- A ledger names the queries that it named before and those that verdicts find to match. -/
theorem mem_keys_foldl_record : id ∈ (vs.foldl (record combine) l).found.keys ↔
    id ∈ l.found.keys ∨ ∃ v ∈ vs, v.id = id ∧ ∃ known, v.result = .ok (some known) := by
  simp only [Std.TreeMap.mem_keys, Std.TreeMap.mem_iff_isSome_getElem?, found_foldl_record,
    isSome_joinAll, matchesOf_ne_nil_iff]

/-! ### Merging ledgers -/

/-- Each match stands under the id of its query. -/
def Keyed (l : Ledger α) : Prop :=
  ∀ (id : String) (m : Match α), l.found[id]? = some m → m.id = id

theorem found_foldl_add {ms : List (Match α)} :
    (ms.foldl (fun l m => l.add combine m) l).found[id]? =
      joinAll combine l.found[id]? (ms.filter (·.id == id)) := by
  induction ms generalizing l with
  | nil => rfl
  | cons m rest ih =>
    rw [List.foldl_cons, ih, found_add, joinAll_joinAll, ← List.filter_append]
    rfl

private theorem values_eq_map : other.found.values = other.found.toList.map (·.2) := by
  have hvalues : other.found.values = other.found.foldr (fun _ m ms => m :: ms) [] := rfl
  rw [hvalues, Std.TreeMap.foldr_eq_foldr_toList]
  generalize other.found.toList = pairs
  induction pairs with
  | nil => rfl
  | cons pair rest ih => rw [List.foldr_cons, ih, List.map_cons]

private theorem filter_map_eq_nil {pairs : List (String × Match α)}
    (hkeyed : ∀ pair ∈ pairs, pair.2.id = pair.1) (hne : ∀ pair ∈ pairs, pair.1 ≠ id) :
    (pairs.map (·.2)).filter (·.id == id) = [] := by
  refine List.filter_eq_nil_iff.mpr fun m hm => ?_
  obtain ⟨pair, hpair, rfl⟩ := List.mem_map.mp hm
  rw [beq_iff_eq, hkeyed pair hpair]
  exact hne pair hpair

/-- The matches of a query among those of a ledger are the one that stands under its id. -/
private theorem filter_values (h : Keyed other) (id : String) :
    other.found.values.filter (·.id == id) = other.found[id]?.toList := by
  have hkeyed : ∀ pair ∈ other.found.toList, pair.2.id = pair.1 := fun pair hpair =>
    h pair.1 pair.2 (Std.TreeMap.mem_toList_iff_getElem?_eq_some.mp hpair)
  rw [values_eq_map]
  cases hfound : other.found[id]? with
  | none =>
    refine filter_map_eq_nil hkeyed fun pair hpair hid => ?_
    have hsome := Std.TreeMap.mem_toList_iff_getElem?_eq_some.mp hpair
    rw [hid, hfound] at hsome
    simp only [reduceCtorEq] at hsome
  | some m =>
    have hdistinct : other.found.toList.Pairwise (fun a b => a.1 ≠ b.1) := by
      refine other.found.distinct_keys_toList.imp fun hne heq => hne ?_
      rw [heq]
      exact Std.ReflOrd.compare_self
    obtain ⟨front, behind, hsplit⟩ := List.append_of_mem
      (Std.TreeMap.mem_toList_iff_getElem?_eq_some.mpr hfound)
    rw [hsplit] at hkeyed hdistinct ⊢
    obtain ⟨-, htail, hcross⟩ := List.pairwise_append.mp hdistinct
    obtain ⟨hfront, hrest⟩ := List.forall_mem_append.mp hkeyed
    obtain ⟨hm, hbehind⟩ := List.forall_mem_cons.mp hrest
    rw [List.map_append, List.filter_append, List.map_cons, List.filter_cons,
      filter_map_eq_nil hfront fun pair hpair => hcross pair hpair (id, m) List.mem_cons_self,
      filter_map_eq_nil hbehind fun pair hpair =>
        ((List.pairwise_cons.mp htail).1 pair hpair).symm, if_pos (beq_iff_eq.mpr hm)]
    rfl

theorem found_merge (h : Keyed other) : (l.merge combine other).found[id]? =
    l.found[id]?.merge combine other.found[id]? := by
  simp only [merge, found_foldl_add, filter_values h]
  cases other.found[id]? with
  | none => exact Option.merge_none_right.symm
  | some m => rfl

/-- Adding matches changes nothing in a ledger but the matches. -/
private theorem exists_foldl_add (ms : List (Match α)) :
    ∃ found, ms.foldl (fun l m => l.add combine m) l = { l with found } := by
  induction ms generalizing l with
  | nil => exact ⟨l.found, rfl⟩
  | cons m rest ih =>
    obtain ⟨found, hfound⟩ := @ih (l.add combine m)
    exact ⟨found, by rw [List.foldl_cons, hfound, add]⟩

theorem failures_merge : (l.merge combine other).failures = l.failures ++ other.failures := by
  obtain ⟨found, hfound⟩ := exists_foldl_add other.found.values
  rw [merge, hfound]

theorem slow_merge :
    (l.merge combine other).slow.entries = l.slow.entries ++ other.slow.entries := by
  obtain ⟨found, hfound⟩ := exists_foldl_add other.found.values
  rw [merge, hfound]
  rfl

end Ledger

/-! ### The direct engine -/

namespace Engine

variable {l : Ledger α} {v : Verdict α} {vs : List (Verdict α)}

theorem run_direct_of_not_fatal (h : v.isFatal = false) :
    (direct combine).run v l = (.ok (), l.record combine v) := by
  simp only [Verdict.isFatal] at h
  simp only [run, direct, Verdict.match?, Ledger.record]
  match hresult : v.result with
  | .ok known => simp only [Except.map]
  | .error (.error error) =>
    simp only [hresult, Fault.isFatal] at h
    simp only [Except.map, h, Bool.false_eq_true, if_false]
  | .error .crash => simp only [hresult, Fault.isFatal, Bool.true_eq_false] at h

theorem run_direct_of_fatal (combine : Match α → Match α → Match α) (l : Ledger α)
    (h : v.isFatal = true) : ∃ fault, v.result = .error fault ∧ fault.isFatal = true ∧
      (direct combine).run v l = (.error fault, l.enter combine v) := by
  simp only [Verdict.isFatal] at h
  simp only [run, direct, Verdict.match?]
  match hresult : v.result with
  | .ok known => simp only [hresult, Bool.false_eq_true] at h
  | .error (.error error) =>
    simp only [hresult, Fault.isFatal] at h
    exact ⟨.error error, rfl, h, by simp only [Except.map, h, if_true]⟩
  | .error .crash => exact ⟨.crash, rfl, rfl, by simp only [Except.map]⟩

/-- Without fatal verdicts the direct engine records them one after the other. -/
theorem runAll_direct (h : ∀ v ∈ vs, v.isFatal = false) :
    (direct combine).runAll l vs = .ok (vs.foldl (Ledger.record combine) l) := by
  induction vs generalizing l with
  | nil => rfl
  | cons v rest ih =>
    obtain ⟨hv, hrest⟩ := List.forall_mem_cons.mp h
    simp only [runAll, run_direct_of_not_fatal hv]
    exact ih hrest

/-- The direct engine fails for the first fatal verdict. -/
theorem runAll_direct_of_find? (combine : Match α → Match α → Match α) (l : Ledger α)
    (h : vs.find? Verdict.isFatal = some v) : ∃ fault, v.result = .error fault ∧
      fault.isFatal = true ∧ (direct combine).runAll l vs = .error fault := by
  induction vs generalizing l with
  | nil => simp only [List.find?_nil, reduceCtorEq] at h
  | cons w rest ih =>
    by_cases hw : w.isFatal = true
    · rw [List.find?_cons_of_pos hw, Option.some.injEq] at h
      subst h
      obtain ⟨fault, hresult, hfatal, hrun⟩ := run_direct_of_fatal combine l hw
      exact ⟨fault, hresult, hfatal, by simp only [runAll, hrun]⟩
    · rw [List.find?_cons_of_neg hw] at h
      simp only [runAll, run_direct_of_not_fatal (Bool.eq_false_iff.mpr hw)]
      exact ih _ h

/-- A run of the direct engine that goes well meets no fatal verdict. -/
theorem not_fatal_of_runAll_direct {l' : Ledger α} (h : (direct combine).runAll l vs = .ok l') :
    ∀ v ∈ vs, v.isFatal = false := by
  induction vs generalizing l with
  | nil => exact fun _ hv => absurd hv List.not_mem_nil
  | cons v rest ih =>
    by_cases hv : v.isFatal = true
    · obtain ⟨fault, -, -, hrun⟩ := run_direct_of_fatal combine l hv
      simp only [runAll, hrun, reduceCtorEq] at h
    · have hv := Bool.eq_false_iff.mpr hv
      simp only [runAll, run_direct_of_not_fatal hv] at h
      exact List.forall_mem_cons.mpr ⟨hv, ih h⟩

end Engine

end Percolator
