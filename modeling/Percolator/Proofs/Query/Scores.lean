import Percolator.Proofs.Float.Positive
import Percolator.Proofs.Interval.Parts
import Percolator.Proofs.Query.Clauses
import Percolator.Query.Pause

/-!
# Scores tell whether queries match

Whether a query matches and what its score is are found in different ways: the one counts clauses
that match, the other adds up scores and counts those that are positive. Where all queries are
built-in ones with positive boosts, and no product of a score and a boost is too small to be
written, the score is positive if the query matches, and zero if it does not.

## Main definitions

* `Query.truth` : the query matches, as far as its evaluation goes well.
* `Query.Ordinary` : a built-in query whose boost and counts are within bounds.
* `Query.products` : the products of scores and boosts that the evaluation of a score comes to.
* `Tells` : a score is positive if something is true, and zero otherwise.

## Main results

* `Query.holds_eq_truth`, `Query.exists_hits` : the evaluation of built-in queries goes well.
* `Query.tells_score` : the score tells whether the query matches.
-/

namespace Percolator

/-! ### Scores that tell -/

/-- The score tells whether something is true: it is positive if it is, and zero if it is not. -/
structure Tells (p : Prop) (score : Float32) : Prop where
  pos : p → 0 < score
  eq_zero : ¬p → score = 0

namespace Tells

variable {p q : Prop} {score total s boost : Float32} {n : Nat}

theorem pos_iff (h : Tells p score) : 0 < score ↔ p :=
  ⟨fun hpos => Classical.byContradiction fun hp => not_zero_lt_zero (h.eq_zero hp ▸ hpos), h.pos⟩

theorem zero (hp : ¬p) : Tells p 0 := ⟨fun h => absurd h hp, fun _ => rfl⟩

theorem of_pos (hp : p) (hpos : 0 < score) : Tells p score := ⟨fun _ => hpos, fun h => absurd hp h⟩

theorem le_zero_iff (h : Tells p score) : score ≤ 0 ↔ ¬p :=
  ⟨fun hle hp => not_le_zero_of_pos (h.pos hp) hle, fun hp => h.eq_zero hp ▸ zero_le_zero⟩

/-- A total of positive scores with one more. -/
theorem add (h : Tells (0 < n) total) (hs : 0 < s) : Tells (0 < n + 1) (total + s) := by
  refine of_pos n.succ_pos ?_
  rcases Nat.eq_zero_or_pos n with hn | hn
  · rw [h.eq_zero (Nat.not_lt.mpr hn.le)]
    exact zero_add_pos hs
  · exact add_pos_of_pos (h.pos hn) hs

/-- A total that is replaced by one where it is zero. -/
theorem patched_pos (h : Tells p total) : 0 < if total == 0 then 1 else total := by
  by_cases hp : p
  · rw [beq_zero_of_pos (h.pos hp)]
    exact h.pos hp
  · rw [h.eq_zero hp]
    decide

/-- A product that is not too small to be written. -/
theorem mul (h : Tells p score) (hboost : 0 < boost) (hfinite : boost.isFinite = true)
    (hproduct : 0 < score → 0 < score * boost) : Tells p (score * boost) where
  pos hp := hproduct (h.pos hp)
  eq_zero hp := by rw [h.eq_zero hp, zero_mul_of_pos hboost hfinite]

end Tells

namespace Query

variable {d : DocumentIndex} {q : Query} {field : String} {n : Nat}

/-! ### Built-in queries -/

/-- The query is not a user-defined one. -/
def BuiltIn (q : Query) : Prop := ∀ c, q ≠ .custom c

/-- The query matches, as far as its evaluation goes well. -/
def truth (d : DocumentIndex) (q : Query) : Bool := gives id (q.holds d)

mutual

/-- The evaluation of a built-in query goes well. -/
theorem holds_eq_truth : (q : Query) → q.Each BuiltIn → q.holds d = .ok (q.truth d)
  | .all _, _ | .term _ _ _, _ | .phrase _ _ _ _, _ | .interval _ _ _, _ | .anyTerm _ _ _, _ => rfl
  | .boolean clauses minShould boost, h => by
    rw [truth, holds_boolean_eq (holds_eq_truth_of_mem clauses h.2)]
    rfl
  | .custom c, h => absurd rfl (h c)

theorem holds_eq_truth_of_mem : (clauses : List (Occur × Query)) → EachOf BuiltIn clauses →
    ∀ clause ∈ clauses, clause.2.holds d = .ok (clause.2.truth d)
  | [], _ => fun _ hclause => absurd hclause List.not_mem_nil
  | (_, q) :: rest, h =>
    List.forall_mem_cons.mpr ⟨holds_eq_truth q h.1, holds_eq_truth_of_mem rest h.2⟩

end

/-- A boolean query is true if its clauses are as their roles say. -/
theorem truth_boolean {clauses : List (Occur × Query)} {minShould : Nat} {boost : Float32}
    (h : EachOf BuiltIn clauses) :
    (Query.boolean clauses minShould boost).truth d = satisfied (truth d) clauses minShould := by
  rw [truth, holds_boolean_eq (holds_eq_truth_of_mem clauses h)]
  rfl

mutual

/-- A built-in query has hits, if only none. -/
theorem exists_hits : (q : Query) → q.Each BuiltIn → ∃ hits, q.hits d = .ok hits
  | .all _, _ | .term _ _ _, _ | .phrase _ _ _ _, _ | .interval _ _ _, _ | .anyTerm _ _ _, _ =>
    ⟨_, rfl⟩
  | .boolean clauses _ _, h => exists_clauseHits clauses h.2
  | .custom c, h => absurd rfl (h c)

theorem exists_clauseHits : (clauses : List (Occur × Query)) → EachOf BuiltIn clauses →
    ∃ hits, clauseHits d clauses = .ok hits
  | [], _ => ⟨_, rfl⟩
  | (occur, q) :: rest, h => by
    obtain ⟨here, hhere⟩ := exists_hits q h.1
    obtain ⟨behind, hbehind⟩ := exists_clauseHits rest h.2
    simp only [clauseHits, hhere, holds_eq_truth q h.1, hbehind, bind, Except.bind]
    cases occur with
    | must => exact ⟨_, rfl⟩
    | should => cases q.truth d <;> exact ⟨_, rfl⟩
    | mustNot => exact ⟨_, rfl⟩

end

/-! ### Scores by frequency -/

/-- The field of a query that is scored by frequency, and how often the query occurs there. -/
def frequency? (d : DocumentIndex) : Query → Option (String × Nat)
  | .term field text _ => some (field, ((d.field field).occurrences text).length)
  | .phrase field terms slop _ => some (field, (phraseSpans d field terms slop).length)
  | .interval field source _ => some (field, (source.intervals (d.field field)).length)
  | _ => none

theorem truth_of_frequency? (h : q.frequency? d = some (field, n)) :
    q.truth d = true ↔ 0 < n := by
  cases q with
  | term field text boost =>
    obtain ⟨-, rfl⟩ := Prod.mk.inj (Option.some.inj h)
    simp [truth, holds, gives, List.length_pos_iff]
  | phrase field terms slop boost =>
    obtain ⟨-, rfl⟩ := Prod.mk.inj (Option.some.inj h)
    simp [truth, holds, gives, List.length_pos_iff]
  | interval field source boost =>
    obtain ⟨-, rfl⟩ := Prod.mk.inj (Option.some.inj h)
    simp [truth, holds, gives, List.length_pos_iff]
  | _ => simp only [frequency?, reduceCtorEq] at h

theorem score_of_frequency? (h : q.frequency? d = some (field, n)) :
    q.score d = .ok (d.frequencyScore field n * q.boost) := by
  cases q with
  | term field text boost =>
    obtain ⟨rfl, rfl⟩ := Prod.mk.inj (Option.some.inj h)
    rfl
  | phrase field terms slop boost =>
    obtain ⟨rfl, rfl⟩ := Prod.mk.inj (Option.some.inj h)
    rfl
  | interval field source boost =>
    obtain ⟨rfl, rfl⟩ := Prod.mk.inj (Option.some.inj h)
    rfl
  | _ => simp only [frequency?, reduceCtorEq] at h

end Query

/-- A field without tokens has no intervals. -/
theorem IntervalSource.intervals_eq_nil {f : FieldIndex} (h : f.tokens = [])
    (source : IntervalSource) : source.intervals f = [] := by
  refine List.eq_nil_iff_forall_not_mem.mpr fun i hi => ?_
  -- Falsehood is hereditary where there is no token that it would have to hold of.
  exact Hereditary.of_mem_intervals (P := fun _ => False)
    ⟨fun _ => False.elim, fun t ht => by simp [h] at ht, fun span parts hspans hparts => by
      obtain ⟨i, hi, -⟩ := hspans.exists_first
      exact hparts i hi⟩ source i hi

namespace Query

variable {d : DocumentIndex} {q : Query} {field : String} {n : Nat}

/-- What occurs in a field does so at a token. -/
theorem length_pos_of_frequency? (h : q.frequency? d = some (field, n)) (hn : 0 < n) :
    0 < (d.field field).length := by
  refine List.length_pos_iff.mpr fun hnil => Nat.ne_of_gt hn ?_
  have hoccurrences : ∀ text, (d.field field).occurrences text = [] := fun text => by
    rw [FieldIndex.occurrences, hnil, List.filter_nil]
  cases q with
  | term field text boost =>
    obtain ⟨rfl, rfl⟩ := Prod.mk.inj (Option.some.inj h)
    rw [hoccurrences, List.length_nil]
  | phrase field terms slop boost =>
    obtain ⟨rfl, rfl⟩ := Prod.mk.inj (Option.some.inj h)
    cases terms with
    | nil => rfl
    | cons first rest => simp [phraseSpans, FieldIndex.positions, hoccurrences]
  | interval field source boost =>
    obtain ⟨rfl, rfl⟩ := Prod.mk.inj (Option.some.inj h)
    rw [source.intervals_eq_nil hnil, List.length_nil]
  | _ => simp only [frequency?, reduceCtorEq] at h

theorem tells_frequencyScore (hn : n < UInt64.size) (hlength : (d.field field).length < UInt64.size)
    (hpos : 0 < n → 0 < (d.field field).length) : Tells (0 < n) (d.frequencyScore field n) where
  pos h := by
    rw [DocumentIndex.frequencyScore, if_neg (by have := hpos h; omega)]
    exact root_div_root_pos h hn (hpos h) hlength
  eq_zero h := if_pos (.inl (Nat.eq_zero_of_not_pos h))

/-! ### Products of scores and boosts -/

/-- A built-in query with a positive finite boost, all of whose counts fit in 64 bits. -/
structure Ordinary (d : DocumentIndex) (q : Query) : Prop where
  builtIn : q.BuiltIn
  boost_pos : 0 < q.boost
  boost_finite : q.boost.isFinite = true
  fits : ∀ p ∈ q.frequency? d, p.2 < UInt64.size ∧ (d.field p.1).length < UInt64.size

mutual

/-- The products of a score and a boost that the evaluation of a score comes to. -/
def products (d : DocumentIndex) : Query → List (Float32 × Float32)
  | .boolean clauses minShould boost =>
    if clauses.isEmpty || !gives (!·) (someMustNot d clauses) then []
    else
      mustProducts d clauses ++
        match mustTotal? d 0 clauses with
        | .ok (some total) => shouldProducts d clauses ++
          match shouldTotal d 0 total clauses with
          | .ok (count, total) =>
            if count < requiredShould clauses minShould then []
            else [(if total == 0 then 1 else total, boost)]
          | .error _ => []
        | _ => []
  | q => (q.frequency? d).toList.map fun (field, n) => (d.frequencyScore field n, q.boost)

/-- The products behind the scores of the clauses that must match. -/
def mustProducts (d : DocumentIndex) : List (Occur × Query) → List (Float32 × Float32)
  | [] => []
  | (occur, q) :: rest =>
    if occur ≠ .must then mustProducts d rest
    else products d q ++ if gives (!· ≤ 0) (score d q) then mustProducts d rest else []

/-- The products behind the scores of the clauses that should match. -/
def shouldProducts (d : DocumentIndex) : List (Occur × Query) → List (Float32 × Float32)
  | [] => []
  | (occur, q) :: rest =>
    if occur ≠ .should then shouldProducts d rest
    else products d q ++ shouldProducts d rest

end

/-- None of the products of a positive score and a boost is too small to be written. -/
def NoUnderflow (products : List (Float32 × Float32)) : Prop :=
  ∀ p ∈ products, 0 < p.1 → 0 < p.1 * p.2

theorem noUnderflow_append {ps qs : List (Float32 × Float32)} :
    NoUnderflow (ps ++ qs) ↔ NoUnderflow ps ∧ NoUnderflow qs := List.forall_mem_append

/-- The score of a boolean query that no clause excludes. -/
theorem score_boolean {clauses : List (Occur × Query)} {minShould : Nat} {boost : Float32}
    (hempty : clauses ≠ []) (hmustNot : someMustNot d clauses = .ok false) :
    (Query.boolean clauses minShould boost).score d = (do
      match ← mustTotal? d 0 clauses with
      | none => .ok 0
      | some total =>
        let (count, total) ← shouldTotal d 0 total clauses
        if count < requiredShould clauses minShould then .ok 0
        else .ok ((if total == 0 then 1 else total) * boost)) := by
  simp only [score, List.isEmpty_eq_false_iff.mpr hempty, hmustNot, Bool.false_eq_true, if_false]
  rfl

/-- The products behind the score of a boolean query that no clause excludes. -/
theorem products_boolean {clauses : List (Occur × Query)} {minShould : Nat} {boost : Float32}
    (hempty : clauses ≠ []) (hmustNot : someMustNot d clauses = .ok false) :
    (Query.boolean clauses minShould boost).products d = mustProducts d clauses ++
      match mustTotal? d 0 clauses with
      | .ok (some total) => shouldProducts d clauses ++
        match shouldTotal d 0 total clauses with
        | .ok (count, total) =>
          if count < requiredShould clauses minShould then []
          else [(if total == 0 then 1 else total, boost)]
        | .error _ => []
      | _ => [] := by
  rw [products, hmustNot, if_neg]
  simp [hempty, gives]

/-! ### Scores tell whether queries match -/

theorem tells_score_of_frequency? (h : q.frequency? d = some (field, n)) (hq : Ordinary d q)
    (hproducts : NoUnderflow [(d.frequencyScore field n, q.boost)]) :
    ∃ s, q.score d = .ok s ∧ Tells (q.truth d = true) s := by
  obtain ⟨hn, hlength⟩ := hq.fits (field, n) h
  have hfrequency := tells_frequencyScore hn hlength (length_pos_of_frequency? h)
  refine ⟨_, score_of_frequency? h, ?_⟩
  rw [truth_of_frequency? h]
  exact hfrequency.mul hq.boost_pos hq.boost_finite
    (hproducts (d.frequencyScore field n, q.boost) List.mem_cons_self)

mutual

/-- The score is positive if the query matches, and zero if it does not. -/
theorem tells_score : (q : Query) → q.Each (Ordinary d) → NoUnderflow (q.products d) →
    ∃ s, q.score d = .ok s ∧ Tells (q.truth d = true) s
  | .all boost, h, _ => ⟨boost, rfl, .of_pos rfl h.boost_pos⟩
  | .term _ _ _, h, hproducts => tells_score_of_frequency? rfl h hproducts
  | .phrase _ _ _ _, h, hproducts => tells_score_of_frequency? rfl h hproducts
  | .interval _ _ _, h, hproducts => tells_score_of_frequency? rfl h hproducts
  | .anyTerm field set boost, h, _ => by
    refine ⟨_, rfl, ?_⟩
    have htruth : (Query.anyTerm field set boost).truth d = !(termsIn d field set).isEmpty := rfl
    rw [htruth, constantScore]
    cases (termsIn d field set).isEmpty with
    | true => exact .zero Bool.false_ne_true
    | false => exact .of_pos rfl h.boost_pos
  | .custom c, h, _ => absurd rfl (h.builtIn c)
  | .boolean clauses minShould boost, h, hproducts => by
    have hbuiltIn : EachOf BuiltIn clauses := h.2.imp (fun _ => Ordinary.builtIn) clauses
    rw [truth_boolean hbuiltIn]
    have hsatisfied : satisfied (truth d) clauses minShould = true ↔ _ := satisfied_iff
    -- The cases are those of the score, which looks at the clauses that must not match first.
    by_cases hempty : clauses = []
    · exact ⟨0, by simp [score, hempty], .zero fun h => (hsatisfied.mp h).1 hempty⟩
    have hmustNot := someMustNot_eq (holds_eq_truth_of_mem (d := d) clauses hbuiltIn)
    by_cases hexcluded : countWhere (truth d) .mustNot clauses = 0
    · rw [hexcluded, beq_self_eq_true, Bool.not_true] at hmustNot
      rw [products_boolean hempty hmustNot, noUnderflow_append] at hproducts
      rcases mustTotal?_spec clauses h.2 hproducts.1 0 0 (.zero (Nat.lt_irrefl 0)) with
        ⟨hmust, hlt⟩ | ⟨total, hmust, hall, htotal⟩
      · refine ⟨0, ?_, .zero fun h => Nat.ne_of_lt hlt (hsatisfied.mp h).2.1⟩
        rw [score_boolean hempty hmustNot, hmust]
        rfl
      simp only [hmust, noUnderflow_append] at hproducts
      obtain ⟨sum, hshould, hsum⟩ := shouldTotal_spec clauses h.2 hproducts.2.1 _ 0 total htotal
      rw [Nat.zero_add] at hshould
      simp only [score_boolean hempty hmustNot, hmust, hshould, bind, Except.bind] at hproducts ⊢
      by_cases hfew : countWhere (truth d) .should clauses < requiredShould clauses minShould
      · rw [if_pos hfew]
        exact ⟨0, rfl, .zero fun h => Nat.not_le.mpr hfew (hsatisfied.mp h).2.2.1⟩
      · rw [if_neg hfew] at hproducts ⊢
        exact ⟨_, rfl, .of_pos (hsatisfied.mpr ⟨hempty, hall, Nat.not_lt.mp hfew, hexcluded⟩)
          (hproducts.2.2 (_, boost) List.mem_cons_self hsum.patched_pos)⟩
    · refine ⟨0, ?_, .zero fun h => hexcluded (hsatisfied.mp h).2.2.2⟩
      rw [beq_eq_false_iff_ne.mpr hexcluded, Bool.not_false] at hmustNot
      simp [score, hmustNot, bind, Except.bind]

/-- The scores of the clauses that must match are added up if all of these match. -/
theorem mustTotal?_spec : (clauses : List (Occur × Query)) → EachOf (Ordinary d) clauses →
    NoUnderflow (mustProducts d clauses) → ∀ (n : Nat) (total : Float32), Tells (0 < n) total →
    (mustTotal? d total clauses = .ok none ∧
      countWhere (truth d) .must clauses < countOf .must clauses) ∨
    ∃ sum, mustTotal? d total clauses = .ok (some sum) ∧
      countWhere (truth d) .must clauses = countOf .must clauses ∧
      Tells (0 < n + countOf .must clauses) sum
  | [], _, _, _, _, htotal => .inr ⟨_, rfl, rfl, htotal⟩
  | (occur, q) :: rest, h, hproducts, n, total, htotal => by
    have hle : countWhere (truth d) .must rest ≤ countOf .must rest := countWhere_le_countOf
    simp only [mustTotal?, mustProducts, countWhere, countOf_cons] at hproducts ⊢
    by_cases hoccur : occur = .must
    · rw [if_neg (not_not.mpr hoccur), noUnderflow_append] at hproducts
      obtain ⟨s, hs, htells⟩ := tells_score q h.1 hproducts.1
      simp only [hoccur, if_true, true_and, hs, bind, Except.bind]
      by_cases htrue : q.truth d = true
      · have hpos : ¬s ≤ 0 := fun hle => htells.le_zero_iff.mp hle htrue
        rw [hs, if_pos (by simp [gives, hpos])] at hproducts
        simp only [htrue, if_true, if_neg hpos]
        rcases mustTotal?_spec rest h.2 hproducts.2 (n + 1) (total + s)
          (htotal.add (htells.pos htrue)) with ⟨hnone, hlt⟩ | ⟨sum, hsum, hcount, hpos⟩
        · exact .inl ⟨hnone, Nat.succ_lt_succ hlt⟩
        · refine .inr ⟨sum, hsum, congrArg (· + 1) hcount, ?_⟩
          rwa [Nat.add_right_comm] at hpos
      · rw [if_pos (htells.le_zero_iff.mpr htrue), if_neg htrue]
        exact .inl ⟨rfl, Nat.lt_succ_of_le hle⟩
    · rw [if_pos hoccur] at hproducts
      rw [if_neg hoccur, if_neg fun h => hoccur h.1, if_neg hoccur]
      exact mustTotal?_spec rest h.2 hproducts n total htotal

/-- The scores of the clauses that should match and do are added up. -/
theorem shouldTotal_spec : (clauses : List (Occur × Query)) → EachOf (Ordinary d) clauses →
    NoUnderflow (shouldProducts d clauses) → ∀ (n count : Nat) (total : Float32),
    Tells (0 < n) total →
    ∃ sum, shouldTotal d count total clauses =
        .ok (count + countWhere (truth d) .should clauses, sum) ∧
      Tells (0 < n + countWhere (truth d) .should clauses) sum
  | [], _, _, _, _, _, htotal => ⟨_, rfl, htotal⟩
  | (occur, q) :: rest, h, hproducts, n, count, total, htotal => by
    simp only [shouldTotal, shouldProducts, countWhere] at hproducts ⊢
    by_cases hoccur : occur = .should
    · rw [if_neg (not_not.mpr hoccur), noUnderflow_append] at hproducts
      obtain ⟨s, hs, htells⟩ := tells_score q h.1 hproducts.1
      simp only [hoccur, if_true, true_and, hs, bind, Except.bind, htells.pos_iff]
      by_cases htrue : q.truth d = true
      · obtain ⟨sum, hsum, hpos⟩ := shouldTotal_spec rest h.2 hproducts.2 (n + 1) (count + 1)
          (total + s) (htotal.add (htells.pos htrue))
        rw [if_pos htrue, if_pos htrue]
        rw [Nat.add_right_comm] at hsum hpos
        exact ⟨sum, hsum, hpos⟩
      · rw [if_neg htrue, if_neg htrue]
        exact shouldTotal_spec rest h.2 hproducts.2 n count total htotal
    · rw [if_pos hoccur] at hproducts
      rw [if_neg hoccur, if_neg fun h => hoccur h.1]
      exact shouldTotal_spec rest h.2 hproducts n count total htotal

end

/-- A product that is too small to be written is zero, although the query matches. -/
example : (Query.boolean [(.must, .all 1e-45)] 0 0.25).holds {} = .ok true ∧
    (Query.boolean [(.must, .all 1e-45)] 0 0.25).score {} = .ok 0 := ⟨rfl, rfl⟩

end Query

end Percolator
