import Percolator.Proofs.Monitor.Failures
import Percolator.Proofs.Presearch.Asking

/-!
# Explanations agree with runs

A monitor explains why queries were selected with keys that it collects from the selection, apart
from the search that selects the queries. Each candidate of a run is explained once, and is said to
match where the run reports it. The keys of an explanation are those of the query that the selection
asks for, and there is at least one: filters leave only queries that were selected by a key of the
document.

## Main definitions

* `Monitor.Explains` : an explanation says of a candidate what is so.

## Main results

* `Monitor.Reachable.explains` : each candidate has an explanation.
* `Monitor.Reachable.explain_agrees` : the explanations for a document and what a run reports.
-/

namespace Percolator

/-- Where all elements lead to related results, so does the list. -/
theorem exists_mapM_eq_ok {ε α β : Type} {f : α → Except ε β} {R : α → β → Prop} {as : List α}
    (h : ∀ a ∈ as, ∃ b, f a = .ok b ∧ R a b) :
    ∃ bs, as.mapM f = .ok bs ∧ List.Forall₂ R as bs := by
  induction as with
  | nil => exact ⟨[], rfl, .nil⟩
  | cons a as ih =>
    obtain ⟨⟨b, hb, hab⟩, hrest⟩ := List.forall_mem_cons.mp h
    obtain ⟨bs, hbs, has⟩ := ih hrest
    refine ⟨b :: bs, ?_, .cons hab has⟩
    simp only [List.mapM_cons, hb, hbs, bind, Except.bind, pure, Except.pure]

namespace Monitor

variable {p : Presearch} {settings : MonitorSettings} {m : Monitor} {d : Document}
  {e : StoreEntry} {entries : List StoreEntry}

/-- The explanation is about the query of the entry: it says whether the query matches the document,
and lists the keys in the slot of the query that the selection asks for. -/
structure Explains (m : Monitor) (d : Document) (e : StoreEntry) (x : Explanation) : Prop where
  id_eq : x.id = e.query.id
  holds_eq : e.query.query.holds d.index = .ok x.holds
  exists_keys : ∃ (keys : KeySet) (pairs : List (String × String)),
    m.store.index.keys? e.slot = some keys ∧ pairs ≠ [] ∧ pairs.Nodup ∧
      x.keys = pairs.map (fun (field, text) => field ++ ":" ++ text) ∧
      ∀ field text, (field, text) ∈ pairs ↔
        keys.contains field text = true ∧ m.presearch.Asks d field text

namespace Reachable

/-- Each candidate that can be evaluated has an explanation. -/
theorem explains (h : Reachable p settings m) {q : Query} (hq : p.selection d = .ok q)
    (hentries : m.selected d = .ok entries) (he : e ∈ entries) {b : Bool}
    (hb : e.query.query.holds d.index = .ok b) :
    ∃ x, m.explainEntry d q.selectedKeys e = .ok x ∧ m.Explains d e x := by
  obtain rfl := Except.ok.inj (hentries.symm.trans (h.selected_eq hq))
  obtain ⟨hordered, hpicks⟩ := List.mem_filter.mp he
  obtain ⟨keys, hkeys, hslot⟩ :=
    h.consistent.keys_eq _ e (h.consistent.mem_ordered.mp hordered)
  rw [Presearch.picks, hkeys] at hpicks
  have hasks : ∀ field text, m.presearch.Asks d field text ↔ q.Asks field text := fun _ _ => by
    simp only [Presearch.Asks, h.presearch_eq, hq, Except.ok.injEq, exists_eq_left']
  have hmem : ∀ field text,
      (field, text) ∈ keys.pairs.filter
          (fun (field, text) => q.selectedKeys.contains field text) ↔
        keys.contains field text = true ∧ m.presearch.Asks d field text := fun field text => by
    rw [List.mem_filter, KeySet.mem_pairs, Query.contains_selectedKeys_iff, hasks]
  obtain ⟨field, text, hasked, hcontains⟩ := Presearch.exists_asked_of_picks hq hpicks
  refine ⟨⟨e.query.id, _, b⟩, ?_, rfl, hb, keys, keys.pairs.filter fun (field, text) =>
    q.selectedKeys.contains field text, hslot, ?_, keys.nodup_pairs.filter _, rfl, hmem⟩
  · simp only [explainEntry, hslot, hb, bind, Except.bind, Option.map_some, Option.getD_some]
  · exact List.ne_nil_of_mem ((hmem field text).mpr ⟨hcontains, (hasks field text).mpr hasked⟩)

/-- The candidates have different ids. -/
private theorem nodup_ids (h : Reachable p settings m) (hentries : m.selected d = .ok entries) :
    (entries.map (·.query.id)).Nodup := by
  refine List.Nodup.map_on (fun e he e' he' => h.eq_of_id_eq hentries he he') ?_
  obtain ⟨q, -, rfl⟩ := h.exists_selection_of_selected hentries
  exact (Store.nodup_of_pairwise_slot h.consistent.pairwise_ordered).filter _

end Reachable

/-- Explanations that are sorted by different ids come one behind the other. -/
private theorem pairwise_id_lt {xs : List Explanation} (h : (xs.map (·.id)).Nodup) :
    (xs.mergeSort fun a b => a.id ≤ b.id).Pairwise (·.id < ·.id) := by
  have hsorted := @List.pairwise_mergeSort _ (fun a b : Explanation => decide (a.id ≤ b.id))
    (fun _ _ _ hab hbc =>
      decide_eq_true (String.le_trans (of_decide_eq_true hab) (of_decide_eq_true hbc)))
    (fun a b => by
      rw [Bool.or_eq_true, decide_eq_true_eq, decide_eq_true_eq]
      exact String.le_total a.id b.id) xs
  have hdiffer : (xs.mergeSort fun a b => a.id ≤ b.id).Pairwise (·.id ≠ ·.id) :=
    List.pairwise_map.mp (((List.mergeSort_perm xs _).map _).nodup_iff.mpr h)
  refine (hsorted.and hdiffer).imp fun ⟨hle, hne⟩ => ?_
  by_contra hlt
  exact hne (String.le_antisymm (of_decide_eq_true hle) (String.not_lt.mp hlt))

/-! ### Runs over the same candidates -/

/-- A run counts the candidates, whatever it finds out about them. -/
private theorem queriesRun_of_run {α : Type} {strategy : Strategy α} {engine : Engine α}
    {report : Report α} (hentries : m.selected d = .ok entries)
    (h : m.run strategy engine d = .ok report) : report.queriesRun = entries.length := by
  simp only [run, hentries, bind, Except.bind] at h
  split at h
  · simp only [reduceCtorEq] at h
  · split at h
    · simp only [reduceCtorEq] at h
    · rw [← Except.ok.inj h]
      rfl

private theorem not_fatal_of_holds {c : Candidate} {d : DocumentIndex} {b : Bool}
    (h : c.query.holds d = .ok b) : (Strategy.simple.verdict d c).isFatal = false := by
  rw [Strategy.isFatal_verdict_eq_false_iff, Strategy.fatal?]
  simp only [Strategy.simple, h, bind, Except.bind]
  cases b <;> rfl

/-- An explanation says that a candidate matches where a run reports it. -/
private theorem Reachable.holds_iff_mem_ids (h : Reachable p settings m) {report : Report Unit}
    (hentries : m.selected d = .ok entries)
    (hrun : m.run .simple (.direct Strategy.simple.combine) d = .ok report) (he : e ∈ entries)
    {x : Explanation} (hx : m.Explains d e x) : x.holds = true ↔ x.id ∈ report.ids := by
  rw [mem_ids_of_run hrun hentries, hx.id_eq]
  simp only [verify_simple_iff]
  constructor
  · exact fun htrue => ⟨e, he, rfl, htrue ▸ hx.holds_eq⟩
  · rintro ⟨e', he', hid, htrue⟩
    obtain rfl := h.eq_of_id_eq hentries he' he hid
    exact Except.ok.inj (hx.holds_eq.symm.trans htrue)

/-- Where the candidates can be evaluated, they are explained one after the other, and sorted by id
in the end. -/
private theorem Reachable.exists_explanations (h : Reachable p settings m) {report : Report Unit}
    (hentries : m.selected d = .ok entries)
    (hrun : m.run .simple (.direct Strategy.simple.combine) d = .ok report)
    (hholds : ∀ e ∈ entries, ∃ b, e.query.query.holds d.index = .ok b) :
    ∃ xs, m.explain d = .ok (xs.mergeSort fun a b => a.id ≤ b.id) ∧ List.Forall₂ (fun e x =>
      m.Explains d e x ∧ (x.holds = true ↔ x.id ∈ report.ids)) entries xs := by
  obtain ⟨q, hq, -⟩ := h.exists_selection_of_selected hentries
  obtain ⟨xs, hxs, hexplains⟩ := exists_mapM_eq_ok
    (R := fun e x => m.Explains d e x ∧ (x.holds = true ↔ x.id ∈ report.ids)) fun e he => by
      obtain ⟨b, hb⟩ := hholds e he
      obtain ⟨x, hx, hxe⟩ := h.explains hq hentries he hb
      exact ⟨x, hx, hxe, h.holds_iff_mem_ids hentries hrun he hxe⟩
  refine ⟨xs, ?_, hexplains⟩
  rw [h.selected_eq_picked hq] at hentries
  simp only [explain, h.presearch_eq, hq, hentries, hxs, bind, Except.bind]

/-- The explanations for a document whose candidates can all be evaluated are one for each candidate
of a run, by id. Each says what the report says, and lists the keys that selected the candidate.
Only a document without a selection is not explained; a run over it crashes as well. -/
theorem Reachable.explain_agrees (h : Reachable p settings m) (d : Document)
    (hholds : ∀ entries, m.selected d = .ok entries →
      ∀ e ∈ entries, ∃ b, e.query.query.holds d.index = .ok b) :
    (p.Fits d → ∃ entries explanations report, m.selected d = .ok entries ∧
      m.explain d = .ok explanations ∧
      m.run .simple (.direct Strategy.simple.combine) d = .ok report ∧
      (∀ {α : Type} (strategy : Strategy α) (engine : Engine α) (other : Report α),
        m.run strategy engine d = .ok other → explanations.length = other.queriesRun) ∧
      explanations.Pairwise (·.id < ·.id) ∧
      ∃ ordered, entries.Perm ordered ∧ List.Forall₂ (fun e x =>
        m.Explains d e x ∧ (x.holds = true ↔ x.id ∈ report.ids)) ordered explanations) ∧
    (¬p.Fits d → m.explain d = .error .crash ∧
      ∀ {α : Type} (strategy : Strategy α) (engine : Engine α),
        m.run strategy engine d = .error .crash) := by
  refine ⟨fun hfits => ?_, fun hfits => ⟨?_, fun _ _ => run_eq_crash (h.selected_eq_crash hfits)⟩⟩
  · obtain ⟨q, hq⟩ := Presearch.exists_selection hfits
    have hentries := h.selected_eq hq
    generalize m.store.ordered.filter _ = entries at hentries
    have hrun : m.run .simple (.direct Strategy.simple.combine) d = .ok _ :=
      run_direct hentries <| List.forall_mem_map.mpr fun e he =>
        (hholds entries hentries e he).elim fun _ hb => not_fatal_of_holds hb
    generalize Ledger.close _ _ _ _ = report at hrun
    obtain ⟨xs, hexplain, hexplains⟩ :=
      h.exists_explanations hentries hrun (hholds entries hentries)
    have hids : xs.map (·.id) = entries.map (·.query.id) := by
      rw [← List.forall₂_eq_eq_eq, List.forall₂_map_left_iff, List.forall₂_map_right_iff]
      exact hexplains.flip.imp fun x e hx => hx.1.id_eq
    -- The explanations are in the order of their ids, the candidates in the order of their slots.
    have hsorted := List.mergeSort_perm xs fun a b => a.id ≤ b.id
    obtain ⟨ordered, hperm, hordered⟩ :
        Relation.Comp List.Perm (List.Forall₂ fun e x =>
          m.Explains d e x ∧ (x.holds = true ↔ x.id ∈ report.ids)) entries
          (xs.mergeSort fun a b => a.id ≤ b.id) :=
      List.forall₂_comp_perm_eq_perm_comp_forall₂ ▸ ⟨xs, hexplains, hsorted.symm⟩
    refine ⟨entries, _, report, hentries, hexplain, hrun, ?_, pairwise_id_lt ?_, ordered, hperm,
      hordered⟩
    · intro α strategy engine other hother
      rw [queriesRun_of_run hentries hother, hsorted.length_eq, ← hexplains.length_eq]
    · exact hids ▸ h.nodup_ids hentries
  · rw [explain, h.presearch_eq, Presearch.selection_eq_crash hfits]
    rfl

/-- Two candidates for an English document: one matches it, the other one does not want English
documents. -/
theorem Reachable.explain_agrees_rust : ∃ m d, Reachable byLanguage {} m ∧
    Document.build "d" .standard [("language", .keyword "en"), ("body", .keyword "rust")] = .ok d ∧
    (∀ entries, m.selected d = .ok entries →
      ∀ e ∈ entries, ∃ b, e.query.query.holds d.index = .ok b) ∧
    byLanguage.Fits d ∧
    ∃ entries explanations report, m.selected d = .ok entries ∧ m.explain d = .ok explanations ∧
      m.run .simple (.direct Strategy.simple.combine) d = .ok report ∧
      entries.map (·.query.id) = ["q", "foreign"] ∧ report.ids = ["q"] ∧
      explanations.Pairwise (·.id < ·.id) ∧
      ∃ ordered, entries.Perm ordered ∧ List.Forall₂ (fun e x =>
        m.Explains d e x ∧ (x.holds = true ↔ x.id ∈ report.ids)) ordered explanations := by
  have hfirst : Reachable byLanguage {} _ := .register .start
    (rfl : Monitor.register { presearch := byLanguage } (forEnglish (.term "body" "rust" 1)) =
      .ok _)
  have hm : Reachable byLanguage {} _ := .register hfirst
    (rfl : Monitor.register _ { forEnglish (.boolean
      [(.must, .term "body" "rust" 1), (.mustNot, .term "language" "en" 1)] 0 1) with
        id := "foreign" } = .ok _)
  have hd : Document.build "d" .standard
    [("language", .keyword "en"), ("body", .keyword "rust")] = .ok _ := rfl
  refine ⟨_, _, hm, hd, ?evaluated, ?fits, ?agrees⟩
  case agrees =>
    obtain ⟨entries, explanations, report, hselected, hexplain, hrun, -, hpairwise, hordered⟩ :=
      (hm.explain_agrees _ ?evaluated).1 ?fits
    refine ⟨entries, explanations, report, hselected, hexplain, hrun, ?_, ?_, hpairwise, hordered⟩
    · obtain rfl := Except.ok.inj (hselected.symm.trans rfl)
      rfl
    · obtain rfl := Except.ok.inj (hrun.symm.trans rfl)
      rfl
  case evaluated =>
    intro entries hselected
    obtain rfl := Except.ok.inj (hselected.symm.trans rfl)
    exact List.forall_mem_cons.mpr ⟨⟨true, rfl⟩, List.forall_mem_singleton.mpr ⟨false, rfl⟩⟩
  case fits => exact Presearch.fits_of_fieldNames (by decide +kernel)

/-- With the greatest limit on parts there are no explanations for a document of two characters,
although every query that is registered can be evaluated. -/
theorem Reachable.explain_crash : ∃ m d, Presearch.unlimited.Built ∧
    Reachable Presearch.unlimited {} m ∧
    Document.build "d" .standard [("body", .keyword "ab")] = .ok d ∧
    m.store.ordered.map (·.query.id) = ["q"] ∧
    (∀ e ∈ m.store.ordered, ∃ b, e.query.query.holds d.index = .ok b) ∧
    m.explain d = .error .crash := by
  have hm : Reachable Presearch.unlimited {} _ := .register .start
    (rfl : Monitor.register { presearch := Presearch.unlimited }
      { id := "q", query := .term "body" "ab" 1 } = .ok _)
  have hd : Document.build "d" .standard [("body", .keyword "ab")] = .ok _ := rfl
  have hp : Presearch.withSettings {} Presearch.unlimited.settings = .ok Presearch.unlimited := rfl
  refine ⟨_, _, .settings .start hp, hm, hd, rfl, ?_, rfl⟩
  exact List.forall_mem_singleton.mpr ⟨true, rfl⟩

end Monitor

end Percolator
