import Percolator.Presearch.Index
import Percolator.Proofs.Presearch.Selection

/-!
# What selections ask for

A selection asks for the keys of its term queries, those under negated clauses left out. They are
collected by going through the clauses, whatever the selection picks. The selection of a document
asks for the keys of the document and for the values that the document has in the fields of filters.

## Main definitions

* `Query.Asks`, `Presearch.Asks` : a selection, and that of a document, asks for a key.
* `Document.only` : a document with the tokens of one field.

## Main results

* `Query.mem_selectedPairs_iff` : the keys that are collected are those that are asked for.
* `Presearch.asks_iff_of_selection` : what the selection of a document asks for.
* `Presearch.asks_iff_exists_only` : each field brings its own keys.
* `Presearch.exists_asked_of_picks` : of keys that it picks, the selection asks for one.
-/

namespace Percolator

namespace Query

variable {field text : String} {occur : Occur} {qs : List Query} {minShould : Nat} {boost : Float32}

/-- The query has a term query for the key, under no negated clause. -/
inductive Asks : Query → String → String → Prop
  | term (field text : String) (boost : Float32) : Asks (.term field text boost) field text
  | clause {clauses : List (Occur × Query)} {minShould : Nat} {boost : Float32} {occur : Occur}
      {q : Query} {field text : String} (hmem : (occur, q) ∈ clauses) (hoccur : occur ≠ .mustNot)
      (h : Asks q field text) : Asks (.boolean clauses minShould boost) field text

theorem asks_term_iff {field' text' : String} :
    (Query.term field text boost).Asks field' text' ↔ field' = field ∧ text' = text := by
  constructor
  · rintro ⟨⟩
    exact ⟨rfl, rfl⟩
  · rintro ⟨rfl, rfl⟩
    exact .term _ _ _

theorem asks_boolean_iff {clauses : List (Occur × Query)} :
    (Query.boolean clauses minShould boost).Asks field text ↔
      ∃ clause ∈ clauses, clause.1 ≠ .mustNot ∧ clause.2.Asks field text := by
  constructor
  · intro h
    cases h with
    | clause hmem hoccur h => exact ⟨_, hmem, hoccur, h⟩
  · rintro ⟨clause, hmem, hoccur, h⟩
    exact .clause hmem hoccur h

/-- Clauses with one role, unless it is the negated one, ask together for what each of them asks
for. -/
theorem asks_map_iff (hoccur : occur ≠ .mustNot) :
    (Query.boolean (qs.map (occur, ·)) minShould boost).Asks field text ↔
      ∃ q ∈ qs, q.Asks field text := by
  simp only [asks_boolean_iff, List.mem_map, exists_exists_and_eq_and, ne_eq, hoccur,
    not_false_eq_true, true_and]

mutual

/-- The keys that are collected from a query are those that it asks for. -/
theorem mem_selectedPairs_iff :
    (q : Query) → ((field, text) ∈ q.selectedPairs ↔ q.Asks field text)
  | .term _ _ _ => by
    rw [selectedPairs, List.mem_singleton, Prod.mk.injEq, asks_term_iff]
  | .boolean clauses _ _ => by
    rw [selectedPairs, mem_clausePairs_iff clauses, asks_boolean_iff]
  | .all _ | .phrase _ _ _ _ | .interval _ _ _ | .anyTerm _ _ _ | .custom _ =>
    iff_of_false List.not_mem_nil nofun

/-- The keys that are collected from clauses are those that one of them asks for and does not
negate. -/
private theorem mem_clausePairs_iff : (clauses : List (Occur × Query)) →
    ((field, text) ∈ clausePairs clauses ↔
      ∃ clause ∈ clauses, clause.1 ≠ .mustNot ∧ clause.2.Asks field text)
  | [] => by simp only [clausePairs, List.not_mem_nil, false_and, exists_false]
  | (occur, q) :: rest => by
    simp only [clausePairs, List.exists_mem_cons_iff]
    split
    · next hoccur =>
      simp only [mem_clausePairs_iff rest, hoccur, ne_eq, not_true_eq_false, false_and, false_or]
    · next hoccur =>
      simp only [List.mem_append, mem_selectedPairs_iff q, mem_clausePairs_iff rest, ne_eq, hoccur,
        not_false_eq_true, true_and]

end

theorem contains_selectedKeys_iff {q : Query} :
    q.selectedKeys.contains field text = true ↔ q.Asks field text := by
  rw [selectedKeys, KeySet.contains_ofPairs, mem_selectedPairs_iff]

end Query

/-! ### Documents with one field -/

namespace Document

/-- The document with the tokens of one field only. The values, which filters look at, stay. -/
def only (d : Document) (field : String) : Document :=
  { d with index := ⟨(∅ : Std.TreeMap String FieldIndex).insert field (d.index.field field)⟩ }

theorem field_only {d : Document} {field source : String} : (d.only source).index.field field =
    if field = source then d.index.field field else {} := by
  simp only [only, DocumentIndex.field, Std.TreeMap.getD_insert, Std.TreeMap.getD_emptyc,
    Std.LawfulEqCmp.compare_eq_iff_eq]
  by_cases h : field = source
  · rw [h, if_pos rfl]
  · rw [if_neg h, if_neg (Ne.symm h)]

end Document

/-! ### The selection of a document -/

namespace Component

variable {d : Document} {field text : String} {values : List String}

/-- The clause of a filter asks for the values of the field. -/
private theorem asks_filterClause_iff {filtered : String} :
    (filterClause filtered values).Asks field text ↔ field = filtered ∧ text ∈ values := by
  by_cases h : values.length = 1
  · obtain ⟨v, rfl⟩ := List.length_eq_one_iff.mp h
    rw [List.mem_singleton]
    exact Query.asks_term_iff
  · rw [filterClause_eq h, Query.asks_map_iff (by decide)]
    simp only [List.mem_map, exists_exists_and_eq_and, Query.asks_term_iff]
    constructor
    · rintro ⟨v, hv, hfield, rfl⟩
      exact ⟨hfield, hv⟩
    · rintro ⟨hfield, htext⟩
      exact ⟨text, htext, hfield, rfl⟩

/-- A filter makes a selection ask for the values of its field as well. -/
private theorem asks_restrict_iff {q : Query} {c : Component} : (c.restrict d q).Asks field text ↔
    q.Asks field text ∨ c = .fieldFilter field ∧ text ∈ filterValues d field := by
  cases c with
  | intervals => simp only [restrict, reduceCtorEq, false_and, or_false]
  | fieldFilter filtered =>
    rw [fieldFilter.injEq]
    have hvalues : filtered = field ∧ text ∈ filterValues d field ↔
        field = filtered ∧ text ∈ filterValues d filtered := by
      rw [eq_comm]
      exact and_congr_right fun heq => by rw [heq]
    rw [hvalues]
    by_cases hnil : filterValues d filtered = []
    · simp only [restrict_of_eq_nil hnil, hnil, List.not_mem_nil, and_false, or_false]
    · rw [restrict_of_ne_nil hnil, Query.asks_map_iff (by decide)]
      simp only [List.exists_mem_cons_iff, List.not_mem_nil, false_and, exists_false, or_false,
        asks_filterClause_iff]

end Component

namespace Presearch

variable {p : Presearch} {d : Document} {field text : String}

private theorem asks_foldl_restrict_iff {components : List Component} {q : Query} :
    (components.foldl (fun q c => c.restrict d q) q).Asks field text ↔
      q.Asks field text ∨
        .fieldFilter field ∈ components ∧ text ∈ Component.filterValues d field := by
  induction components generalizing q with
  | nil => simp only [List.foldl_nil, List.not_mem_nil, false_and, or_false]
  | cons c rest ih =>
    rw [List.foldl_cons, ih, Component.asks_restrict_iff, List.mem_cons, or_assoc, ← or_and_right,
      eq_comm]

/-- The selection of a document asks for the key. -/
def Asks (p : Presearch) (d : Document) (field text : String) : Prop :=
  ∃ q, p.selection d = .ok q ∧ q.Asks field text

theorem asks_selectionOf_iff {pairs : List (String × String)} :
    (p.selectionOf d pairs).Asks field text ↔
      (field, text) ∈ pairs ∨ p.Hides field ∧ text ∈ Component.filterValues d field := by
  rw [selectionOf_eq, asks_foldl_restrict_iff, Query.asks_map_iff (by decide)]
  refine or_congr_left ⟨?_, fun hkey => ⟨_, List.mem_map_of_mem hkey, .term field text 1⟩⟩
  rintro ⟨q, hq, hasks⟩
  obtain ⟨key, hkey, rfl⟩ := List.mem_map.mp hq
  obtain ⟨rfl, rfl⟩ := Query.asks_term_iff.mp hasks
  exact hkey

/-- A selection asks for the keys that the document shows, and for the values that the document has
in the fields of filters. -/
theorem asks_iff_of_selection {q : Query} (h : p.selection d = .ok q) :
    q.Asks field text ↔
      p.Shows d field text ∨ p.Hides field ∧ text ∈ Component.filterValues d field := by
  obtain ⟨-, pairs, -, rfl, hmem⟩ := exists_pairs_of_selection h
  rw [asks_selectionOf_iff, hmem]

/-- If there is a selection, it asks for the keys that the document shows and for the values in the
fields of filters. -/
theorem asks_iff (hfits : p.Fits d) : p.Asks d field text ↔
    p.Shows d field text ∨ p.Hides field ∧ text ∈ Component.filterValues d field := by
  obtain ⟨q, hq⟩ := exists_selection hfits
  rw [← asks_iff_of_selection hq, Asks]
  simp only [hq, Except.ok.injEq, exists_eq_left']

/-! ### Each field for itself -/

/-- A document shows a key if and only if the tokens of some field alone do. -/
theorem shows_iff_exists_only : p.Shows d field text ↔
    ∃ source, p.Shows (d.only source) field text := by
  have hsource : ∀ source, ((d.only source).index.field source).tokens =
      (d.index.field source).tokens := fun source => by rw [Document.field_only, if_pos rfl]
  have hfield : ∀ source name token, token ∈ ((d.only source).index.field name).tokens →
      token ∈ (d.index.field name).tokens := by
    intro source name token htoken
    rw [Document.field_only] at htoken
    split at htoken
    · exact htoken
    · exact absurd htoken List.not_mem_nil
  constructor
  · rintro (_ | ⟨hname, htoken, hstopped⟩ | ⟨hname, htoken, hstopped, hpart⟩)
    · exact ⟨p.settings.anyField, .any⟩
    · exact ⟨_, .token hname (hsource _ ▸ htoken) hstopped⟩
    · exact ⟨_, .part hname (hsource _ ▸ htoken) hstopped hpart⟩
  · rintro ⟨source, _ | ⟨hname, htoken, hstopped⟩ | ⟨hname, htoken, hstopped, hpart⟩⟩
    · exact .any
    · exact .token hname (hfield source _ _ htoken) hstopped
    · exact .part hname (hfield source _ _ htoken) hstopped hpart

theorem Fits.only (hfits : p.Fits d) (source : String) : p.Fits (d.only source) := by
  intro field hfield token htoken hstopped
  rw [Document.field_only] at htoken
  split at htoken
  · exact hfits field hfield token htoken hstopped
  · exact absurd htoken List.not_mem_nil

/-- A selection asks for a key if and only if it does for the tokens of some field alone: what one
field holds neither hides nor adds the keys of another. -/
theorem asks_iff_exists_only (hfits : p.Fits d) : p.Asks d field text ↔
    ∃ source, p.Asks (d.only source) field text := by
  have honly : ∀ source, p.Asks (d.only source) field text ↔ p.Shows (d.only source) field text ∨
      p.Hides field ∧ text ∈ Component.filterValues d field :=
    fun source => asks_iff (hfits.only source)
  rw [asks_iff hfits, shows_iff_exists_only]
  simp only [honly, exists_or, exists_const]

/-- Keys that a selection picks have one that it asks for, whatever the filters ask for besides. -/
theorem exists_asked_of_picks {q : Query} (h : p.selection d = .ok q) {keys : KeySet}
    (hpicks : q.picks keys = true) :
    ∃ field text, q.Asks field text ∧ keys.contains field text = true := by
  obtain ⟨⟨field, text, hshows, hcontains⟩, -⟩ := (picks_iff_of_selection h).mp hpicks
  exact ⟨field, text, (asks_iff_of_selection h).mpr (.inl hshows), hcontains⟩

end Presearch

end Percolator
