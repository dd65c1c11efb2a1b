import Percolator.Proofs.Monitor.Store
import Percolator.Proofs.Presearch.Selection
import Percolator.Proofs.Verification.Ledger

/-!
# Candidates and matches of a monitor

The candidates of a document are the registered queries that are indexed under a key that the
document shows and under a value of every field filter that has values. Every query that matches
the document is indexed under the key of a key term that the document has. Without field filters
all these keys are shown, so that a monitor reports exactly the registered queries that match.

A filter hides the tokens of its field, and metadata share the keys with key terms. So a query that
agrees with the filters can be lost if all its keys are in hidden fields, and a query that does not
agree can be admitted by a key term that happens to be a value of the field.

## Main definitions

* `Presearch.Indexes` : a registered query is indexed under a key.

## Main results

* `Monitor.Reachable.selected_spec` : the candidates of a document.
* `Monitor.Reachable.selected_of_holds` : matching queries that filters do not hide are candidates.
* `Monitor.Reachable.mem_ids_iff_holds` : without filters the report names the queries that match.
-/

namespace Percolator

variable {p : Presearch} {settings : MonitorSettings} {m : Monitor} {d : Document}

/-- The query is indexed under the key: it is the key of one of its key terms, or its metadata give
the text to the field of a filter. -/
def Presearch.Indexes (p : Presearch) (e : StoreEntry) (field text : String) : Prop :=
  (∃ t ∈ e.terms, p.keyOf t = (field, text)) ∨
    p.Hides field ∧ e.query.metadata[field]? = some text

/-- The filter of a field admits the query: the document has no values there, or the query is
indexed under one of them. -/
def Presearch.Admits (p : Presearch) (d : Document) (e : StoreEntry) (field : String) : Prop :=
  Component.filterValues d field = [] ∨ ∃ v ∈ Component.filterValues d field, p.Indexes e field v

/-- A query whose metadata agree with a filter is admitted by it. -/
theorem Presearch.admits_of_agrees {e : StoreEntry} {field : String} (hfield : p.Hides field)
    (h : Component.Agrees d field e.query.metadata) : p.Admits d e field :=
  h.imp_right fun ⟨v, hv, hvalue⟩ => ⟨v, hv, .inr ⟨hfield, hvalue⟩⟩

namespace Monitor

namespace Reachable

theorem selected_eq_picked (hm : Reachable p settings m) {q : Query} (hq : p.selection d = .ok q) :
    m.selected d = m.picked q := by
  rw [selected, hm.presearch_eq, hq]
  rfl

/-- Without a selection, there are no candidates. -/
theorem selected_eq_crash (hm : Reachable p settings m) (hfits : ¬p.Fits d) :
    m.selected d = .error .crash := by
  rw [selected, hm.presearch_eq, Presearch.selection_eq_crash hfits]
  rfl

theorem fits_of_selected (hm : Reachable p settings m) {entries : List StoreEntry}
    (h : m.selected d = .ok entries) : p.Fits d := by
  by_contra hfits
  simp only [hm.selected_eq_crash hfits, reduceCtorEq] at h

/-- The candidates of a document are the registered queries that are indexed under a key that it
shows, and that all filters admit. -/
theorem selected_spec (hm : Reachable p settings m) (hfits : p.Fits d) :
    ∃ entries, m.selected d = .ok entries ∧ ∀ e, e ∈ entries ↔
      ∃ id, m.store.get? id = some e ∧
        (∃ field text, p.Shows d field text ∧ p.Indexes e field text) ∧
        ∀ field, p.Hides field → p.Admits d e field := by
  have hconsistent := hm.consistent
  obtain ⟨q, hq⟩ := Presearch.exists_selection hfits
  obtain ⟨entries, hselect, hmem⟩ :=
    hconsistent.select_spec (Presearch.isSelection_of_selection hq)
  refine ⟨entries, by rw [hm.selected_eq_picked hq, picked, hselect]; rfl, fun e => ?_⟩
  rw [hmem]
  refine exists_congr fun id => and_congr_right fun he => ?_
  obtain ⟨keys, hkeys, -⟩ := hconsistent.keys_eq id e he
  have hcontains : ∀ field text, keys.contains field text = true ↔ p.Indexes e field text :=
    fun field text => Presearch.contains_keys_iff (hconsistent.terms_eq id e he) hkeys
  simp only [hkeys, Except.ok.injEq, exists_eq_left', Presearch.picks_iff_of_selection hq,
    Component.Meets, hcontains]
  exact Iff.rfl

/-- What a candidate is, where there are candidates. -/
theorem mem_selected_iff (hm : Reachable p settings m) {entries : List StoreEntry}
    (h : m.selected d = .ok entries) {e : StoreEntry} : e ∈ entries ↔
      ∃ id, m.store.get? id = some e ∧
        (∃ field text, p.Shows d field text ∧ p.Indexes e field text) ∧
        ∀ field, p.Hides field → p.Admits d e field := by
  obtain ⟨entries', hselected, hmem⟩ := hm.selected_spec (hm.fits_of_selected h)
  obtain rfl := Except.ok.inj (hselected.symm.trans h)
  exact hmem e

/-- A query that matches a document and agrees with all filters is a candidate, if no key term of
it is hidden. -/
theorem selected_of_holds (hm : Reachable p settings m) (hp : p.Built) (hfits : p.Fits d)
    (hd : ∀ field, NoneStopped (d.index.field field).tokens) {id : String} {e : StoreEntry}
    (he : m.store.get? id = some e) (hplain : ∀ t ∈ e.terms, ¬p.Hides t.field)
    (hregexp : e.query.query.EachRegexp Regexp.Faithful)
    (hagrees : ∀ field, p.Hides field → Component.Agrees d field e.query.metadata)
    (h : e.query.query.holds d.index = .ok true) :
    ∃ entries, m.selected d = .ok entries ∧ e ∈ entries := by
  obtain ⟨entries, hselected, hmem⟩ := hm.selected_spec hfits
  obtain ⟨t, ht, hhas⟩ :=
    Extractor.exists_mem_terms hp.plain hregexp (hm.consistent.terms_eq id e he) h
  have hshows := Presearch.shows_keyOf hp.maxPart_ne_zero hd (hplain t ht) hhas
  exact ⟨entries, hselected, (hmem e).mpr ⟨id, he, ⟨_, _, hshows, .inl ⟨t, ht, rfl⟩⟩,
    fun field hfield => Presearch.admits_of_agrees hfield (hagrees field hfield)⟩⟩

end Reachable

/-! ### Reports -/

section Reports

variable {α : Type} {strategy : Strategy α} {entries : List StoreEntry} {report : Report α}

/-- The verdicts on candidates. -/
def verdicts (strategy : Strategy α) (d : Document) (entries : List StoreEntry) :
    List (Verdict α) :=
  entries.map fun entry => strategy.verdict d.index entry.query.toCandidate

/-- Without fatal verdicts, the report is that of the ledger that all verdicts are recorded in. -/
theorem run_direct (hentries : m.selected d = .ok entries)
    (hfatal : ∀ v ∈ verdicts strategy d entries, v.isFatal = false) :
    m.run strategy (.direct strategy.combine) d =
      .ok (((verdicts strategy d entries).foldl (Ledger.record strategy.combine)
        { slowLimit := m.settings.slowLimit }).close d.id 0 entries.length) := by
  have hrun : (Engine.direct strategy.combine).runAll
      ((Engine.direct strategy.combine).startWith m.settings.slowLimit)
      (verdicts strategy d entries) = .ok _ := Engine.runAll_direct hfatal
  simp only [run, hentries, bind, Except.bind]
  rw [verdicts] at hrun
  rw [hrun]
  rfl

/-- A run that goes well has candidates. -/
private theorem exists_selected_of_run {engine : Engine α}
    (h : m.run strategy engine d = .ok report) : ∃ entries, m.selected d = .ok entries := by
  simp only [run, bind, Except.bind] at h
  split at h
  · simp only [reduceCtorEq] at h
  · next entries hentries => exact ⟨entries, hentries⟩

/-- A run that goes well meets no fatal verdict. -/
private theorem not_fatal_of_run (h : m.run strategy (.direct strategy.combine) d = .ok report)
    (hentries : m.selected d = .ok entries) :
    ∀ v ∈ verdicts strategy d entries, v.isFatal = false := by
  simp only [run, hentries, bind, Except.bind] at h
  split at h
  · simp only [reduceCtorEq] at h
  · next ledger hrun => exact Engine.not_fatal_of_runAll_direct hrun

/-- A report names the candidates about which the strategy finds out something. -/
theorem mem_ids_of_run (h : m.run strategy (.direct strategy.combine) d = .ok report)
    (hentries : m.selected d = .ok entries) (id : String) : id ∈ report.ids ↔
      ∃ e ∈ entries, e.query.id = id ∧
        ∃ known, strategy.verify d.index e.query.toCandidate = .ok (some known) := by
  rw [run_direct hentries (not_fatal_of_run h hentries)] at h
  obtain rfl := Except.ok.inj h
  refine Ledger.mem_keys_foldl_record.trans ?_
  simp only [Std.TreeMap.mem_keys, Std.TreeMap.not_mem_emptyc, false_or, verdicts, List.mem_map,
    exists_exists_and_eq_and]
  exact Iff.rfl

theorem verify_simple_iff {c : Candidate} {d : DocumentIndex} :
    (∃ known, Strategy.simple.verify d c = .ok (some known)) ↔ c.query.holds d = .ok true := by
  simp only [Strategy.simple, bind, Except.bind]
  cases c.query.holds d with
  | error fault => simp only [reduceCtorEq, exists_false]
  | ok matched =>
    cases matched <;> simp

end Reports

namespace Reachable

/-- Without field filters, the report names exactly the registered queries that match the
document. -/
theorem mem_ids_iff_holds (hm : Reachable p settings m) (hp : p.Built)
    (hfilter : ∀ field, ¬p.Hides field) {docId : String} {analyzer : Analyzer}
    {values : List (String × FieldValue)} (hd : Document.build docId analyzer values = .ok d)
    (hregexp : ∀ id e, m.store.get? id = some e → e.query.query.EachRegexp Regexp.Faithful)
    {report : Report Unit}
    (hrun : m.run .simple (.direct Strategy.simple.combine) d = .ok report) (id : String) :
    id ∈ report.ids ↔
      ∃ e, m.store.get? id = some e ∧ e.query.query.holds d.index = .ok true := by
  obtain ⟨entries, hentries⟩ := exists_selected_of_run hrun
  rw [mem_ids_of_run hrun hentries]
  simp only [verify_simple_iff]
  constructor
  · rintro ⟨e, he, hid, hholds⟩
    obtain ⟨id', hget, -⟩ := (hm.mem_selected_iff hentries).mp he
    obtain rfl : id' = id := (hm.consistent.id_eq id' e hget).symm.trans hid
    exact ⟨e, hget, hholds⟩
  · rintro ⟨e, hget, hholds⟩
    have hfits := hm.fits_of_selected hentries
    obtain ⟨selected, hselected, he⟩ := hm.selected_of_holds hp hfits (Document.not_stopped hd) hget
      (fun t _ => hfilter t.field) (hregexp id e hget)
      (fun field hfield => absurd hfield (hfilter field)) hholds
    obtain rfl := Except.ok.inj (hselected.symm.trans hentries)
    exact ⟨e, he, hm.consistent.id_eq id e hget, hholds⟩

/-- A query for one term that must match is reported for a document with that term. -/
theorem mem_ids_rust : ∃ m d report,
    Reachable {} {} m ∧ Document.build "d" .standard [("body", .keyword "rust")] = .ok d ∧
      m.run .simple (.direct Strategy.simple.combine) d = .ok report ∧
      ("q" ∈ report.ids ↔
        ∃ e, m.store.get? "q" = some e ∧ e.query.query.holds d.index = .ok true) := by
  have hm : Reachable {} {} _ := .register .start
    (rfl : Monitor.register {} { id := "q", query := .term "body" "rust" 1 } = .ok _)
  have hd : Document.build "d" .standard [("body", .keyword "rust")] = .ok _ := rfl
  refine ⟨_, _, _, hm, hd, rfl, mem_ids_iff_holds hm .start ?_ hd ?_ rfl "q"⟩
  · exact fun field h => absurd h List.not_mem_nil
  · intro id e he
    simp only [Store.insert, Store.get?, Std.TreeMap.getElem?_insert] at he
    split at he
    · obtain rfl := Option.some.inj he
      exact trivial
    · have hempty : ({} : Store).erase "q" = {} := rfl
      simp only [hempty, Std.TreeMap.getElem?_emptyc, reduceCtorEq] at he

/-! ### Field filters -/

/-- A presearch that filters by language. -/
def byLanguage : Presearch := ({} : Presearch).withComponent (.fieldFilter "language")

/-- A query that is registered for English documents. -/
def forEnglish (query : Query) : StoredQuery where
  id := "q"
  query := query
  metadata := .ofList [("language", "en")]

private theorem agrees_of_byLanguage {d : Document} {metadata : Metadata}
    (h : Component.Agrees d "language" metadata) :
    ∀ field, byLanguage.Hides field → Component.Agrees d field metadata := by
  intro field hfield
  obtain rfl := Component.fieldFilter.inj (List.mem_singleton.mp hfield)
  exact h

/-- A query that agrees with all filters is a candidate if and only if the document has a selection
and shows a key that the query is indexed under. -/
theorem selected_iff_of_agrees (hm : Reachable p settings m) {id : String} {e : StoreEntry}
    (he : m.store.get? id = some e)
    (hagrees : ∀ field, p.Hides field → Component.Agrees d field e.query.metadata) :
    (∃ entries, m.selected d = .ok entries ∧ e ∈ entries) ↔
      p.Fits d ∧ ∃ field text, p.Shows d field text ∧ p.Indexes e field text := by
  constructor
  · rintro ⟨entries, hselected, hentry⟩
    obtain ⟨-, -, hshown, -⟩ := (hm.mem_selected_iff hselected).mp hentry
    exact ⟨hm.fits_of_selected hselected, hshown⟩
  · rintro ⟨hfits, hshown⟩
    obtain ⟨entries, hselected, hmem⟩ := hm.selected_spec hfits
    exact ⟨entries, hselected, (hmem e).mpr ⟨id, he, hshown, fun field hfield =>
      Presearch.admits_of_agrees hfield (hagrees field hfield)⟩⟩

/-- A query for a word in English documents is a candidate for an English document with the word. -/
theorem selected_iff_of_agrees_rust : ∃ m d e, Reachable byLanguage {} m ∧
    Document.build "d" .standard [("language", .keyword "en"), ("body", .keyword "rust")] = .ok d ∧
      m.store.get? "q" = some e ∧ Component.Agrees d "language" e.query.metadata ∧
      ((∃ entries, m.selected d = .ok entries ∧ e ∈ entries) ↔ byLanguage.Fits d ∧
        ∃ field text, byLanguage.Shows d field text ∧ byLanguage.Indexes e field text) := by
  have hm : Reachable byLanguage {} _ := .register .start
    (rfl : Monitor.register { presearch := byLanguage } (forEnglish (.term "body" "rust" 1)) =
      .ok _)
  have hd : Document.build "d" .standard
    [("language", .keyword "en"), ("body", .keyword "rust")] = .ok _ := rfl
  refine ⟨_, _, _, hm, hd, (rfl : Store.get? _ "q" = some _), ?_, ?_⟩
  · exact .inr ⟨"en", List.mem_singleton.mpr rfl, rfl⟩
  · refine selected_iff_of_agrees hm (rfl : Store.get? _ "q" = some _) (agrees_of_byLanguage ?_)
    exact .inr ⟨"en", List.mem_singleton.mpr rfl, rfl⟩

/-- A query for the language itself is lost, because the filter hides the only key it has: it agrees
with the filter and matches the document, but is no candidate. -/
theorem not_selected_of_agrees : ∃ m d e, Reachable byLanguage {} m ∧
    Document.build "d" .standard [("language", .keyword "en")] = .ok d ∧
      m.store.get? "q" = some e ∧ e.query.query.holds d.index = .ok true ∧
      (∀ field, byLanguage.Hides field → Component.Agrees d field e.query.metadata) ∧
      m.selected d = .ok [] := by
  have hm : Reachable byLanguage {} _ := .register .start
    (rfl : Monitor.register { presearch := byLanguage } (forEnglish (.term "language" "en" 1)) =
      .ok _)
  have hd : Document.build "d" .standard [("language", .keyword "en")] = .ok _ := rfl
  refine ⟨_, _, _, hm, hd, rfl, rfl, agrees_of_byLanguage ?_, rfl⟩
  exact .inr ⟨"en", List.mem_singleton.mpr rfl, rfl⟩

/-- A candidate agrees with a filter that has values, if and only if it could not have passed by a
key term that is filed under one of them. -/
theorem agrees_of_selected_iff (hm : Reachable p settings m) {id : String} {e : StoreEntry}
    (he : m.store.get? id = some e) {field : String} (hfield : p.Hides field)
    (hvalues : Component.filterValues d field ≠ []) :
    (∀ entries, m.selected d = .ok entries → e ∈ entries →
        ∃ v ∈ Component.filterValues d field, e.query.metadata[field]? = some v) ↔
      (∃ v ∈ Component.filterValues d field, e.query.metadata[field]? = some v) ∨
      (∀ v ∈ Component.filterValues d field, ∀ t ∈ e.terms, p.keyOf t ≠ (field, v)) ∨
      (∃ other, p.Hides other ∧ ¬p.Admits d e other) ∨ ¬p.Fits d ∨
      ¬∃ field text, p.Shows d field text ∧ p.Indexes e field text := by
  constructor
  · intro h
    by_contra hnone
    push Not at hnone
    obtain ⟨hdiffers, ⟨v, hv, t, ht, hkey⟩, hadmits, hfits, hshown⟩ := hnone
    obtain ⟨entries, hselected, hmem⟩ := hm.selected_spec hfits
    obtain ⟨v', hv', hvalue⟩ := h entries hselected ((hmem e).mpr ⟨id, he, hshown, hadmits⟩)
    exact hdiffers v' hv' hvalue
  · rintro h entries hselected hentry
    obtain ⟨id', -, hshown, hadmits⟩ := (hm.mem_selected_iff hselected).mp hentry
    rcases h with hvalue | hkeys | ⟨other, hother, hexcluded⟩ | hcrash | hhidden
    · exact hvalue
    · rcases hadmits field hfield with hnil | ⟨v, hv, ⟨t, ht, hkey⟩ | ⟨-, hvalue⟩⟩
      · exact absurd hnil hvalues
      · exact absurd hkey (hkeys v hv t ht)
      · exact ⟨v, hv, hvalue⟩
    · exact absurd (hadmits other hother) hexcluded
    · exact absurd (hm.fits_of_selected hselected) hcrash
    · exact absurd hshown hhidden

/-- A query for a word passes the filter by its metadata. -/
theorem agrees_of_selected_rust : ∃ m d e, Reachable byLanguage {} m ∧
    Document.build "d" .standard [("language", .keyword "en"), ("body", .keyword "rust")] = .ok d ∧
      m.store.get? "q" = some e ∧ byLanguage.Hides "language" ∧
      Component.filterValues d "language" ≠ [] ∧
      ((∀ entries, m.selected d = .ok entries → e ∈ entries →
          ∃ v ∈ Component.filterValues d "language", e.query.metadata["language"]? = some v) ↔
        (∃ v ∈ Component.filterValues d "language", e.query.metadata["language"]? = some v) ∨
        (∀ v ∈ Component.filterValues d "language", ∀ t ∈ e.terms,
          byLanguage.keyOf t ≠ ("language", v)) ∨
        (∃ other, byLanguage.Hides other ∧ ¬byLanguage.Admits d e other) ∨ ¬byLanguage.Fits d ∨
        ¬∃ field text, byLanguage.Shows d field text ∧ byLanguage.Indexes e field text) := by
  have hm : Reachable byLanguage {} _ := .register .start
    (rfl : Monitor.register { presearch := byLanguage } (forEnglish (.term "body" "rust" 1)) =
      .ok _)
  have hd : Document.build "d" .standard
    [("language", .keyword "en"), ("body", .keyword "rust")] = .ok _ := rfl
  have hfield : byLanguage.Hides "language" := List.mem_singleton.mpr rfl
  refine ⟨_, _, _, hm, hd, (rfl : Store.get? _ "q" = some _), hfield, ?_, ?_⟩
  · exact List.cons_ne_nil "en" []
  · exact agrees_of_selected_iff hm (rfl : Store.get? _ "q" = some _) hfield
      (List.cons_ne_nil "en" [])

/-- A query for English documents or a word, registered without a language, passes the filter by its
own key term, and is found by the word. -/
theorem not_agrees_of_selected : ∃ m d e, Reachable byLanguage {} m ∧
    Document.build "d" .standard [("language", .keyword "en"), ("body", .keyword "rust")] = .ok d ∧
      byLanguage.Hides "language" ∧ Component.filterValues d "language" ≠ [] ∧
      (∃ entries, m.selected d = .ok entries ∧ e ∈ entries) ∧
      ¬∃ v ∈ Component.filterValues d "language", e.query.metadata["language"]? = some v := by
  have hm : Reachable byLanguage {} _ := .register .start
    (rfl : Monitor.register { presearch := byLanguage } ⟨⟨"q", .boolean
      [(.should, .term "language" "en" 1), (.should, .term "body" "rust" 1)] 0 1, none⟩, ∅⟩ = .ok _)
  have hd : Document.build "d" .standard
    [("language", .keyword "en"), ("body", .keyword "rust")] = .ok _ := rfl
  have hfits : ∀ d, Document.build "d" .standard
      [("language", .keyword "en"), ("body", .keyword "rust")] = .ok d → byLanguage.Fits d := by
    intro d hd
    obtain rfl := Except.ok.inj (hd.symm.trans rfl)
    exact Presearch.fits_of_fieldNames (by decide +kernel)
  obtain ⟨entries, hselected, hmem⟩ := hm.selected_spec (hfits _ hd)
  refine ⟨_, _, _, hm, hd, List.mem_singleton.mpr rfl, List.cons_ne_nil "en" [],
    ⟨entries, hselected, (hmem _).mpr ⟨"q", rfl, ⟨"body", "rust", ?_, ?_⟩, ?_⟩⟩, ?_⟩
  · refine @Presearch.Shows.token _ _ "body" ⟨"rust", 0, 0, 4, false⟩ (fun h => ?_)
      (List.mem_singleton.mpr rfl) rfl
    exact absurd (Component.fieldFilter.inj (List.mem_singleton.mp h)) (by decide)
  · refine .inl ⟨⟨"body", "rust", .exact⟩, ?_, rfl⟩
    refine KeyTree.mem_allTerms.mpr ⟨_, List.mem_cons_of_mem _ List.mem_cons_self, ?_⟩
    exact List.mem_singleton.mpr rfl
  · intro field hfield
    obtain rfl := Component.fieldFilter.inj (List.mem_singleton.mp hfield)
    refine .inr ⟨"en", List.mem_singleton.mpr rfl, .inl ⟨⟨"language", "en", .exact⟩, ?_, rfl⟩⟩
    refine KeyTree.mem_allTerms.mpr ⟨_, List.mem_cons_self, ?_⟩
    exact List.mem_singleton.mpr rfl
  · rintro ⟨v, -, hv⟩
    simp only [Std.TreeMap.getElem?_emptyc, reduceCtorEq] at hv

end Reachable

end Monitor

end Percolator
