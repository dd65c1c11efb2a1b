import Percolator.Proofs.Query.Scores
import Percolator.Proofs.Verification.Merging
import Percolator.Verification.Strategy

/-!
# The strategies find the same queries

The strategies find out different things about the queries that match: nothing more, a score, or
hits. Where all queries are built-in ones with positive boosts, and no score is too small to be
written, they agree on which queries match: none of them fails, and each reports the candidates
that evaluate to true.

## Main definitions

* `Strategy.reportedIds` : the queries that a run of a strategy reports.
* `Strategy.Decides` : a strategy finds something out about a candidate if its query matches.

## Main results

* `Strategy.Decides.reportedIds_eq` : what a strategy reports that decides every candidate.
* `Strategy.reportedIds_agree` : the strategies agree on scores, matches and reports.
-/

namespace Percolator

namespace Strategy

variable {α : Type} {s : Strategy α} {d : DocumentIndex} {c : Candidate} {cs : List Candidate}

/-- The queries that a run over candidates reports, in order. -/
def reportedIds (s : Strategy α) (d : DocumentIndex) (slowLimit : Nat) (cs : List Candidate) :
    Except Fault (List String) :=
  ((Engine.direct s.combine).conclude ((Engine.direct s.combine).startWith slowLimit)
    (cs.map (s.verdict d))).map (·.found.keys)

/-- The verification of the candidate goes well, and finds something out if the query matches. -/
def Decides (s : Strategy α) (d : DocumentIndex) (c : Candidate) : Prop :=
  ∃ known, s.verify d c = .ok known ∧ known.isSome = c.query.truth d

/-- A strategy that decides every candidate reports those whose query matches. -/
theorem Decides.reportedIds_eq (h : ∀ c ∈ cs, s.Decides d c) (slowLimit : Nat) :
    s.reportedIds d slowLimit cs =
      .ok (Sorted.ofList ((cs.filter (·.query.truth d)).map (·.id))) := by
  have hfatal : ∀ v ∈ cs.map (s.verdict d), v.isFatal = false := by
    refine List.forall_mem_map.mpr fun c hc => ?_
    obtain ⟨known, hverify, -⟩ := h c hc
    simp only [Verdict.isFatal, verdict, hverify]
  have hrun : (Engine.direct s.combine).conclude ((Engine.direct s.combine).startWith slowLimit)
      (cs.map (s.verdict d)) = .ok _ := Engine.conclude_direct hfatal
  rw [reportedIds, hrun]
  refine congrArg Except.ok (Sorted.Increasing.ext Std.TreeMap.ordered_keys
    (Sorted.increasing_ofList _) fun id => ?_)
  have hcandidate : ∀ c ∈ cs, (∃ known, s.verify d c = .ok (some known)) ↔
      c.query.truth d = true := by
    intro c hc
    obtain ⟨known, hverify, hknown⟩ := h c hc
    rw [← hknown, hverify, Option.isSome_iff_exists]
    simp only [Except.ok.injEq]
  refine Ledger.mem_keys_foldl_record.trans ((or_iff_right List.not_mem_nil).trans ?_)
  simp only [List.mem_map, exists_exists_and_eq_and, Sorted.mem_ofList, List.mem_filter, verdict]
  constructor
  · rintro ⟨c, hc, hid, hknown⟩
    exact ⟨c, ⟨hc, (hcandidate c hc).mp hknown⟩, hid⟩
  · rintro ⟨c, ⟨hc, htruth⟩, hid⟩
    exact ⟨c, hc, hid, (hcandidate c hc).mpr htruth⟩

theorem decides_simple {matched : Bool} (h : c.query.holds d = .ok matched) :
    simple.Decides d c := by
  rw [Decides, Query.truth, h]
  cases matched with
  | true => exact ⟨some (), by simp [simple, h, bind, Except.bind], rfl⟩
  | false => exact ⟨none, by simp [simple, h, bind, Except.bind], rfl⟩

theorem decides_scoring {score : Float32} (h : c.query.score d = .ok score)
    (htells : Tells (c.query.truth d = true) score) : scoring.Decides d c := by
  refine ⟨if 0 < score then some score else none, by simp only [scoring, h, bind, Except.bind], ?_⟩
  simp only [htells.pos_iff]
  cases c.query.truth d <;> rfl

theorem decides_highlighting {matched : Bool} (h : c.query.holds d = .ok matched)
    {hits : List Hit} (hhits : reportedHits d c = .ok hits) : highlighting.Decides d c := by
  rw [Decides, Query.truth, h]
  cases matched with
  | true =>
    exact ⟨some (Sorted.ofList hits), by simp [highlighting, h, hhits, bind, Except.bind], rfl⟩
  | false => exact ⟨none, by simp [highlighting, h, bind, Except.bind], rfl⟩

/-- The hits of built-in queries are found. -/
theorem exists_reportedHits (hquery : c.query.Each Query.BuiltIn)
    (hhighlight : ∀ q, c.highlight = some q → q.Each Query.BuiltIn) :
    ∃ hits, reportedHits d c = .ok hits := by
  have hhits : ∃ hits, highlightHits d c = .ok hits := by
    rw [highlightHits]
    cases hc : c.highlight with
    | none => exact ⟨[], rfl⟩
    | some q => exact Query.exists_hits q (hhighlight q hc)
  obtain ⟨hits, hhits⟩ := hhits
  obtain ⟨own, hown⟩ := Query.exists_hits (d := d) c.query hquery
  refine ⟨if hits.isEmpty then own else hits, ?_⟩
  simp only [reportedHits, hhits, hown, bind, Except.bind]
  split <;> rfl

/-- Whatever built-in queries are made of, with positive boosts and scores that are not too small to
be written: the score of a candidate is positive if its query matches, and zero if it does not, and
all strategies report the candidates whose queries match. -/
theorem reportedIds_agree
    (hquery : ∀ c ∈ cs, c.query.Each (Query.Ordinary d) ∧ Query.NoUnderflow (c.query.products d))
    (hhighlight : ∀ c ∈ cs, ∀ q, c.highlight = some q → q.Each Query.BuiltIn)
    (slowLimit : Nat) :
    (∀ c ∈ cs, ∃ matched score, c.query.holds d = .ok matched ∧ c.query.score d = .ok score ∧
      (0 < score ↔ matched = true) ∧ (matched = false → score = 0)) ∧
    ∃ ids, simple.reportedIds d slowLimit cs = .ok ids ∧
      scoring.reportedIds d slowLimit cs = .ok ids ∧
      highlighting.reportedIds d slowLimit cs = .ok ids ∧
      ∀ id, id ∈ ids ↔ ∃ c ∈ cs, c.id = id ∧ c.query.holds d = .ok true := by
  have hbuiltIn : ∀ c ∈ cs, c.query.Each Query.BuiltIn := fun c hc =>
    (hquery c hc).1.imp (fun _ => Query.Ordinary.builtIn) c.query
  have hholds : ∀ c ∈ cs, c.query.holds d = .ok (c.query.truth d) := fun c hc =>
    Query.holds_eq_truth c.query (hbuiltIn c hc)
  refine ⟨fun c hc => ?_, _, Decides.reportedIds_eq (fun c hc => decides_simple (hholds c hc)) _,
    Decides.reportedIds_eq (fun c hc => ?_) _, Decides.reportedIds_eq (fun c hc => ?_) _,
    fun id => ?_⟩
  · obtain ⟨score, hscore, htells⟩ := Query.tells_score c.query (hquery c hc).1 (hquery c hc).2
    exact ⟨_, score, hholds c hc, hscore, htells.pos_iff,
      fun hfalse => htells.eq_zero (Bool.eq_false_iff.mp hfalse)⟩
  · obtain ⟨score, hscore, htells⟩ := Query.tells_score c.query (hquery c hc).1 (hquery c hc).2
    exact decides_scoring hscore htells
  · obtain ⟨hits, hhits⟩ := exists_reportedHits (hbuiltIn c hc) (hhighlight c hc)
    exact decides_highlighting (hholds c hc) hhits
  · simp only [Sorted.mem_ofList, List.mem_map, List.mem_filter]
    refine exists_congr fun c => ?_
    rw [and_assoc]
    refine and_congr_right fun hc => ?_
    rw [hholds c hc, Except.ok.injEq, and_comm]

/-- A text of two words. -/
def fastRust : DocumentIndex := DocumentIndex.add {} "body" [
  { text := "fast", position := 0, endOffset := 4 },
  { text := "rust", position := 1, startOffset := 5, endOffset := 9 }]

/-- A query that matches by a clause of a clause. -/
def fastOrJava : Query := .boolean [
  (.must, .boolean [
    (.should, .term "body" "java" 1),
    (.should, .phrase "body" ["fast", "rust"] 0 2)] 0 2),
  (.should, .interval "body" (.unordered [.term "rust", .term "fast"] (some 0)) 1)] 1 0.5

/-- A query that does not match, because of its only clause. -/
def notRust : Query := .boolean [(.mustNot, .anyTerm "body" (.startsWith "ru") 1)] 0 1

/-- The first of these candidates matches, the second does not. -/
def fastCandidates : List Candidate :=
  [⟨"q", fastOrJava, some (.term "body" "fast" 1)⟩, ⟨"r", notRust, none⟩]

/-- The strategies agree on a text and two nested queries. -/
theorem reportedIds_agree_fastRust :
    (∀ c ∈ fastCandidates, c.query.Each (Query.Ordinary fastRust) ∧
      Query.NoUnderflow (c.query.products fastRust)) ∧
    (∀ c ∈ fastCandidates, ∀ q, c.highlight = some q → q.Each Query.BuiltIn) ∧
    (∀ c ∈ fastCandidates, ∃ matched score, c.query.holds fastRust = .ok matched ∧
      c.query.score fastRust = .ok score ∧ (0 < score ↔ matched = true) ∧
      (matched = false → score = 0)) ∧
    ∃ ids, simple.reportedIds fastRust 0 fastCandidates = .ok ids ∧
      scoring.reportedIds fastRust 0 fastCandidates = .ok ids ∧
      highlighting.reportedIds fastRust 0 fastCandidates = .ok ids ∧
      ∀ id, id ∈ ids ↔ ∃ c ∈ fastCandidates, c.id = id ∧ c.query.holds fastRust = .ok true := by
  have hproducts : ∀ c ∈ fastCandidates, ∀ p ∈ c.query.products fastRust,
      0 < p.1 → 0 < p.1 * p.2 := by decide +kernel
  have hfirst : fastOrJava.Each (Query.Ordinary fastRust) := by
    refine ⟨?_, ⟨?_, ?_, ?_, trivial⟩, ?_, trivial⟩ <;>
      exact ⟨nofun, by decide +kernel, by decide +kernel, by decide +kernel⟩
  have hsecond : notRust.Each (Query.Ordinary fastRust) := by
    refine ⟨?_, ?_, trivial⟩ <;>
      exact ⟨nofun, by decide +kernel, by decide +kernel, by decide +kernel⟩
  have hordinary : ∀ c ∈ fastCandidates, c.query.Each (Query.Ordinary fastRust) :=
    List.forall_mem_cons.mpr ⟨hfirst, List.forall_mem_singleton.mpr hsecond⟩
  have hquery : ∀ c ∈ fastCandidates, c.query.Each (Query.Ordinary fastRust) ∧
      Query.NoUnderflow (c.query.products fastRust) := fun c hc => ⟨hordinary c hc, hproducts c hc⟩
  have hhighlight : ∀ c ∈ fastCandidates, ∀ q, c.highlight = some q → q.Each Query.BuiltIn :=
    List.forall_mem_cons.mpr ⟨fun q hq => Option.some.inj hq ▸ nofun,
      List.forall_mem_singleton.mpr nofun⟩
  exact ⟨hquery, hhighlight, reportedIds_agree hquery hhighlight 0⟩

end Strategy

end Percolator
