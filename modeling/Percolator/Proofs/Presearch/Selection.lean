import Percolator.Presearch.Basic
import Percolator.Proofs.Document
import Percolator.Proofs.Presearch.Extraction
import Percolator.Proofs.Presearch.KeyIndex
import Percolator.Proofs.Presearch.Parts

/-!
# What documents select

A document shows keys: the one that every document has, and those of the tokens, and of the parts of
tokens, in fields that no filter hides. Its selection picks the keys of a stored query if one of
them is shown and if, for every filter with values, the keys hold one of these values. There is a
selection if the limit on parts can be added to every place of the texts of these tokens.

## Main definitions

* `Presearch.Hides` : a filter keeps the tokens of a field out of selections.
* `Presearch.Shows` : a document shows a key.
* `Presearch.Fits` : the limit on parts can be added to the places of a document.
* `Component.Agrees` : metadata agree with a field of a document.

## Main results

* `Presearch.collects_documentKeys` : the keys of a document are those that it shows.
* `Presearch.shows_keyOf` : a document shows the key of a key term that it has in plain sight.
* `Presearch.exists_selection`, `Presearch.selection_eq_crash` : when a document has a selection.
* `Presearch.picks_iff_of_selection`, `Presearch.contains_keys_iff` : what a selection picks, and
  which keys a stored query has.
-/

namespace Percolator

/-! ### Shown keys -/

namespace Presearch

variable {p : Presearch} {d : Document} {field text : String}

/-- A filter keeps the tokens of the field out of selections. -/
def Hides (p : Presearch) (field : String) : Prop := .fieldFilter field ∈ p.components

private theorem any_hides_iff : p.components.any (·.hides field) = true ↔ p.Hides field := by
  simp only [List.any_eq_true, Hides]
  constructor
  · rintro ⟨component, hmem, hhides⟩
    cases component with
    | intervals => simp only [Component.hides, Bool.false_eq_true] at hhides
    | fieldFilter filtered => exact beq_iff_eq.mp hhides ▸ hmem
  · exact fun h => ⟨_, h, beq_self_eq_true field⟩

/-- The document shows the key of a field and a text, in tokens that are not marked as removed. -/
inductive Shows (p : Presearch) (d : Document) : String → String → Prop
  | any : Shows p d p.settings.anyField p.settings.anyText
  | token {field token} (hfield : ¬p.Hides field)
      (htoken : token ∈ (d.index.field field).tokens) (hstopped : token.stopped = false) :
      Shows p d field token.text
  | part {field token part} (hfield : ¬p.Hides field)
      (htoken : token ∈ (d.index.field field).tokens) (hstopped : token.stopped = false)
      (hpart : Parts.IsPart p.settings.maxPart token.text.toList part) :
      Shows p d (p.partField field) part

/-- The limit on parts can be added to every place of the texts that selections look at. -/
def Fits (p : Presearch) (d : Document) : Prop :=
  ∀ field, ¬p.Hides field → ∀ token ∈ (d.index.field field).tokens, token.stopped = false →
    p.settings.maxPart.toNat + token.text.toList.length ≤ UInt64.size

/-- Only the fields of the document matter. -/
theorem fits_of_fieldNames (h : ∀ field ∈ d.index.fieldNames,
    ∀ token ∈ (d.index.field field).tokens,
      p.settings.maxPart.toNat + token.text.toList.length ≤ UInt64.size) : p.Fits d :=
  fun field _ token htoken _ =>
    h field (DocumentIndex.mem_fieldNames (List.ne_nil_of_mem htoken)) token htoken

/-- The different texts of the tokens of a field, as a stream for that field alone yields them. -/
def visibleTexts (p : Presearch) (d : Document) (field : String) : List String :=
  (DistinctStream.toList { input := p.visibleTokens d field }).map (·.text)

/-- The keys of one field of a document. -/
def fieldKeys (p : Presearch) (d : Document) (field : String) :
    Except Fault (List (String × String)) :=
  p.keysOfTexts field (p.visibleTexts d field)

/-- The keys of a field are those of its own tokens, whatever fields the stream went through
before. -/
private theorem keysOfFields_eq {stream : DistinctStream} {fields : List String} :
    p.keysOfFields d stream fields = fields.flatMapM (p.fieldKeys d) := by
  induction fields generalizing stream with
  | nil => rfl
  | cons field rest ih =>
    simp only [keysOfFields, ih]
    rw [List.flatMapM_cons]
    rfl

theorem documentKeys_eq : p.documentKeys d =
    (do let keys ← d.index.fieldNames.flatMapM (p.fieldKeys d)
        .ok (keys ++ [(p.settings.anyField, p.settings.anyText)])) := by
  rw [documentKeys, keysOfFields_eq]

theorem mem_visibleTexts_iff : text ∈ p.visibleTexts d field ↔
    ¬p.Hides field ∧ ∃ token ∈ (d.index.field field).tokens,
      token.stopped = false ∧ token.text = text := by
  rw [visibleTexts, List.mem_map, DistinctStream.exists_text_iff, visibleTokens, ← any_hides_iff]
  split
  · next hhides => simp only [hhides, List.not_mem_nil, false_and, exists_false, not_true_eq_false]
  · next hhides => simp only [hhides, not_false_eq_true, true_and, Bool.false_eq_true]

theorem collects_keysOfTexts {texts : List String} :
    Collects (∀ text ∈ texts, p.settings.maxPart.toNat + text.toList.length ≤ UInt64.size)
      (fun key => ∃ text ∈ texts, key = (field, text) ∨
        ∃ part, Parts.IsPart p.settings.maxPart text.toList part ∧ key = (p.partField field, part))
      (p.keysOfTexts field texts) :=
  Parts.collects_ofEach.bind_ok fun parts hparts key => by
    simp only [List.mem_append, List.mem_map, hparts]
    constructor
    · rintro (⟨text, htext, rfl⟩ | ⟨part, ⟨text, htext, hpart⟩, rfl⟩)
      · exact ⟨text, htext, .inl rfl⟩
      · exact ⟨text, htext, .inr ⟨part, hpart, rfl⟩⟩
    · rintro ⟨text, htext, rfl | ⟨part, hpart, rfl⟩⟩
      · exact .inl ⟨text, htext, rfl⟩
      · exact .inr ⟨part, ⟨text, htext, hpart⟩, rfl⟩

/-- The keys of a document are those that it shows. -/
theorem collects_documentKeys :
    Collects (p.Fits d) (fun key => p.Shows d key.1 key.2) (p.documentKeys d) := by
  rw [documentKeys_eq]
  have hfields := Collects.flatMapM fun field (_ : field ∈ d.index.fieldNames) =>
    (collects_keysOfTexts : Collects _ _ (p.fieldKeys d field))
  refine (hfields.bind_ok fun keys hkeys key => ?_).congr ?_ fun _ => Iff.rfl
  · simp only [List.mem_append, hkeys, mem_visibleTexts_iff, List.mem_singleton]
    constructor
    · rintro (⟨field, -, _, ⟨hfield, token, htoken, hstopped, rfl⟩, rfl | ⟨part, hpart, rfl⟩⟩ | rfl)
      · exact .token hfield htoken hstopped
      · exact .part hfield htoken hstopped hpart
      · exact .any
    · obtain ⟨field, text⟩ := key
      rintro (_ | ⟨hfield, htoken, hstopped⟩ | ⟨hfield, htoken, hstopped, hpart⟩)
      · exact .inr rfl
      · exact .inl ⟨_, DocumentIndex.mem_fieldNames (List.ne_nil_of_mem htoken), _,
          ⟨hfield, _, htoken, hstopped, rfl⟩, .inl rfl⟩
      · exact .inl ⟨_, DocumentIndex.mem_fieldNames (List.ne_nil_of_mem htoken), _,
          ⟨hfield, _, htoken, hstopped, rfl⟩, .inr ⟨_, hpart, rfl⟩⟩
  · simp only [mem_visibleTexts_iff]
    constructor
    · intro h field hfield token htoken hstopped
      exact h field (DocumentIndex.mem_fieldNames (List.ne_nil_of_mem htoken)) _
        ⟨hfield, token, htoken, hstopped, rfl⟩
    · rintro h field - _ ⟨hfield, token, htoken, hstopped, rfl⟩
      exact h field hfield token htoken hstopped

/-- A document shows the key of a key term that it has in a field that is not hidden. -/
theorem shows_keyOf {t : KeyTerm} (hlimit : p.settings.maxPart ≠ 0)
    (hd : ∀ field, NoneStopped (d.index.field field).tokens) (hfield : ¬p.Hides t.field)
    (h : d.index.Has t) : p.Shows d (p.keyOf t).1 (p.keyOf t).2 := by
  obtain ⟨field, text, kind⟩ := t
  cases kind with
  | exact =>
    obtain ⟨token, htoken, rfl⟩ := h
    exact .token hfield htoken (hd _ _ htoken)
  | part =>
    obtain ⟨hne, token, htoken, hinfix⟩ := h
    exact .part hfield htoken (hd _ _ htoken)
      (isPart_keyOf hlimit (fun h => hne (String.toList_eq_nil_iff.mpr h)) hinfix)
  | any => exact .any

end Presearch

/-! ### What selections pick -/

namespace Query

variable {keys : KeySet} {occur role : Occur} {qs : List Query} {boost : Float32}

theorem allSelections_map (h : ∀ q ∈ qs, q.isSelection = true) :
    allSelections (qs.map (occur, ·)) = true := by
  induction qs with
  | nil => rfl
  | cons q rest ih =>
    obtain ⟨hq, hrest⟩ := List.forall_mem_cons.mp h
    simp only [List.map_cons, allSelections, hq, ih hrest, Bool.and_self]

theorem countOf_map : countOf role (qs.map (occur, ·)) = if occur = role then qs.length else 0 := by
  induction qs with
  | nil => split <;> rfl
  | cons q rest ih =>
    simp only [countOf] at ih
    simp only [countOf, List.map_cons, List.filter_cons]
    split
    · next h =>
      have hrole : occur = role := of_decide_eq_true h
      rw [List.length_cons, ih, if_pos hrole, if_pos hrole, List.length_cons]
    · next h => rw [ih, if_neg (by simpa using h), if_neg (by simpa using h)]

theorem countPicks_map : countPicks keys role (qs.map (occur, ·)) =
    if occur = role then (qs.filter (·.picks keys)).length else 0 := by
  induction qs with
  | nil => split <;> rfl
  | cons q rest ih =>
    simp only [List.map_cons, countPicks, ih, List.filter_cons]
    by_cases hrole : occur = role
    · simp only [hrole, true_and, if_true]
      split <;> rfl
    · simp only [hrole, false_and, if_false]

/-- Clauses that should match pick together what one of them picks. -/
theorem picks_someOf_iff :
    (Query.boolean (qs.map (.should, ·)) 0 boost).picks keys = true ↔
      ∃ q ∈ qs, q.picks keys = true := by
  have hfilter : (qs.filter (·.picks keys)).length ≠ 0 ↔ ∃ q ∈ qs, q.picks keys = true := by
    rw [← Nat.pos_iff_ne_zero, List.length_pos_iff_exists_mem]
    simp only [List.mem_filter]
  rw [← hfilter]
  simp only [picks, requiredShould, countOf_map, countPicks_map, reduceCtorEq, if_false, if_true]
  cases qs with
  | nil => simp only [List.map_nil, List.isEmpty_nil, Bool.not_true, Bool.false_and,
      Bool.false_eq_true, List.filter_nil, List.length_nil, ne_eq, not_true_eq_false]
  | cons q rest =>
    simp only [List.map_cons, List.isEmpty_cons, List.length_cons, gt_iff_lt, Nat.lt_irrefl,
      if_false, Nat.succ_pos, and_self, if_true, Bool.not_false, beq_self_eq_true, Bool.and_true,
      Bool.true_and, decide_eq_true_eq, Nat.one_le_iff_ne_zero]

/-- Clauses that must match pick together what all of them pick. -/
theorem picks_allOf_iff (h : qs ≠ []) :
    (Query.boolean (qs.map (.must, ·)) 0 boost).picks keys = true ↔
      ∀ q ∈ qs, q.picks keys = true := by
  simp only [picks, requiredShould, countOf_map, countPicks_map, reduceCtorEq, if_false, if_true,
    gt_iff_lt, Nat.lt_irrefl, and_false, Nat.le_refl, decide_true, beq_self_eq_true, Bool.and_true,
    Bool.and_eq_true, beq_iff_eq, List.length_filter_eq_length_iff, and_iff_right_iff_imp,
    Bool.not_eq_true', List.isEmpty_eq_false_iff, ne_eq, List.map_eq_nil_iff]
  exact fun _ => h

end Query

/-! ### The selection of a document -/

namespace Component

variable {d : Document} {field : String} {values : List String} {keys : KeySet}

/-- The metadata agree with the field: the document has no values there, or the metadata give one
of them to the field. -/
def Agrees (d : Document) (field : String) (metadata : Metadata) : Prop :=
  filterValues d field = [] ∨ ∃ v ∈ filterValues d field, metadata[field]? = some v

/-- The keys hold one of the values of the field, if the document has some. -/
def Meets (d : Document) (field : String) (keys : KeySet) : Prop :=
  filterValues d field = [] ∨ ∃ v ∈ filterValues d field, keys.contains field v = true

theorem filterClause_eq (h : values.length ≠ 1) : filterClause field values =
    .boolean ((values.map fun v => Query.term field v 1).map (.should, ·)) 0 1 := by
  rw [List.map_map]
  match values, h with
  | [], _ => rfl
  | _ :: _ :: _, _ => rfl

theorem isSelection_filterClause : (filterClause field values).isSelection = true := by
  by_cases h : values.length = 1
  · obtain ⟨v, rfl⟩ := List.length_eq_one_iff.mp h
    rfl
  · rw [filterClause_eq h]
    refine Query.allSelections_map fun q hq => ?_
    obtain ⟨v, -, rfl⟩ := List.mem_map.mp hq
    rfl

/-- The clause of a filter picks the keys that hold one of its values. -/
theorem picks_filterClause_iff : (filterClause field values).picks keys = true ↔
    ∃ v ∈ values, keys.contains field v = true := by
  by_cases h : values.length = 1
  · obtain ⟨v, rfl⟩ := List.length_eq_one_iff.mp h
    simp only [List.mem_singleton, exists_eq_left]
    exact Iff.rfl
  · rw [filterClause_eq h, Query.picks_someOf_iff]
    simp only [List.mem_map, exists_exists_and_eq_and]
    exact Iff.rfl

theorem restrict_of_ne_nil {q : Query} (h : filterValues d field ≠ []) :
    restrict d q (.fieldFilter field) =
      .boolean ([q, filterClause field (filterValues d field)].map (.must, ·)) 0 1 := by
  simp only [restrict]
  rfl

theorem restrict_of_eq_nil {q : Query} (h : filterValues d field = []) :
    restrict d q (.fieldFilter field) = q := by
  simp only [restrict, h]

theorem isSelection_restrict {q : Query} {c : Component} (h : q.isSelection = true) :
    (c.restrict d q).isSelection = true := by
  cases c with
  | intervals => exact h
  | fieldFilter field =>
    by_cases hvalues : filterValues d field = []
    · rwa [restrict_of_eq_nil hvalues]
    · rw [restrict_of_ne_nil hvalues]
      refine Query.allSelections_map fun r hr => ?_
      rcases List.mem_cons.mp hr with rfl | hr
      · exact h
      · exact List.mem_singleton.mp hr ▸ isSelection_filterClause

/-- A filter restricts a selection to the keys that meet it. -/
theorem picks_restrict_iff {q : Query} {c : Component} : (c.restrict d q).picks keys = true ↔
    q.picks keys = true ∧ ∀ field, c = .fieldFilter field → Meets d field keys := by
  cases c with
  | intervals => simp only [restrict, reduceCtorEq, false_implies, implies_true, and_true]
  | fieldFilter field =>
    simp only [fieldFilter.injEq, forall_eq']
    by_cases hvalues : filterValues d field = []
    · simp only [restrict_of_eq_nil hvalues, Meets, hvalues, true_or, and_true]
    · rw [restrict_of_ne_nil hvalues, Query.picks_allOf_iff (List.cons_ne_nil _ _)]
      simp only [List.forall_mem_cons, List.not_mem_nil, false_implies, implies_true, and_true,
        picks_filterClause_iff, Meets, hvalues, false_or]

theorem contains_addKeys_iff {metadata : Metadata} {c : Component} {text : String} :
    (c.addKeys metadata keys).contains field text = true ↔
      keys.contains field text = true ∨ c = .fieldFilter field ∧ metadata[field]? = some text := by
  cases c with
  | intervals => simp only [addKeys, reduceCtorEq, false_and, or_false]
  | fieldFilter filtered =>
    simp only [addKeys, fieldFilter.injEq]
    cases hvalue : metadata[filtered]? with
    | none =>
      refine (or_iff_left ?_).symm
      rintro ⟨rfl, htext⟩
      simp only [hvalue, reduceCtorEq] at htext
    | some value =>
      rw [KeySet.contains_add, or_comm]
      refine or_congr_right (and_congr_right fun hfield => ?_)
      rw [← hfield, hvalue, Option.some.injEq]

end Component

namespace Presearch

variable {p : Presearch} {d : Document} {keys : KeySet}

theorem isSelection_foldl_restrict {components : List Component} {q : Query}
    (h : q.isSelection = true) :
    (components.foldl (fun q c => c.restrict d q) q).isSelection = true := by
  induction components generalizing q with
  | nil => exact h
  | cons c rest ih => exact ih (Component.isSelection_restrict h)

theorem picks_foldl_restrict_iff {components : List Component} {q : Query} :
    (components.foldl (fun q c => c.restrict d q) q).picks keys = true ↔
      q.picks keys = true ∧
        ∀ field, .fieldFilter field ∈ components → Component.Meets d field keys := by
  induction components generalizing q with
  | nil => simp only [List.foldl_nil, List.not_mem_nil, false_implies, implies_true, and_true]
  | cons c rest ih =>
    rw [List.foldl_cons, ih, Component.picks_restrict_iff]
    simp only [List.mem_cons]
    constructor
    · rintro ⟨⟨hq, hc⟩, hrest⟩
      refine ⟨hq, fun field hfield => ?_⟩
      rcases hfield with hfield | hfield
      · exact hc field hfield.symm
      · exact hrest field hfield
    · rintro ⟨hq, hall⟩
      exact ⟨⟨hq, fun field hc => hall field (.inl hc.symm)⟩,
        fun field hfield => hall field (.inr hfield)⟩

theorem selectionOf_eq {pairs : List (String × String)} : p.selectionOf d pairs =
    p.components.foldl (fun q c => c.restrict d q)
      (.boolean ((pairs.map fun (field, text) => Query.term field text 1).map (.should, ·))
        0 1) := by
  rw [List.map_map]
  rfl

theorem isSelection_selectionOf {pairs : List (String × String)} :
    (p.selectionOf d pairs).isSelection = true := by
  rw [selectionOf_eq]
  refine isSelection_foldl_restrict (Query.allSelections_map fun q hq => ?_)
  obtain ⟨key, -, rfl⟩ := List.mem_map.mp hq
  rfl

/-- The selection under some keys picks the keys that hold one of them, if they meet all filters. -/
theorem picks_selectionOf_iff {pairs : List (String × String)} :
    (p.selectionOf d pairs).picks keys = true ↔
      (∃ key ∈ pairs, keys.contains key.1 key.2 = true) ∧
        ∀ field, p.Hides field → Component.Meets d field keys := by
  rw [selectionOf_eq, picks_foldl_restrict_iff, Query.picks_someOf_iff]
  simp only [List.mem_map, exists_exists_and_eq_and]
  exact Iff.rfl

/-- A document has a selection if the limit on parts fits; otherwise there is none to be had. -/
theorem exists_selection (hfits : p.Fits d) : ∃ q, p.selection d = .ok q := by
  obtain ⟨pairs, hpairs, -⟩ := collects_documentKeys.exists_list hfits
  exact ⟨p.selectionOf d pairs, by rw [selection, hpairs]; rfl⟩

theorem selection_eq_crash (hfits : ¬p.Fits d) : p.selection d = .error .crash := by
  rw [selection, collects_documentKeys.eq_crash hfits]
  rfl

/-- The selection of a document is that under the keys that the document shows. -/
theorem exists_pairs_of_selection {q : Query} (h : p.selection d = .ok q) :
    p.Fits d ∧ ∃ pairs, p.documentKeys d = .ok pairs ∧ q = p.selectionOf d pairs ∧
      ∀ field text, (field, text) ∈ pairs ↔ p.Shows d field text := by
  simp only [selection, bind, Except.bind] at h
  split at h
  · simp only [reduceCtorEq] at h
  · next pairs hpairs =>
    obtain ⟨hfits, hmem⟩ := collects_documentKeys.of_eq_ok hpairs
    exact ⟨hfits, pairs, hpairs, (Except.ok.inj h).symm, fun field text => hmem (field, text)⟩

theorem isSelection_of_selection {q : Query} (h : p.selection d = .ok q) :
    q.isSelection = true := by
  obtain ⟨-, pairs, -, rfl, -⟩ := exists_pairs_of_selection h
  exact isSelection_selectionOf

/-- A selection picks the keys of which the document shows one, if they meet all filters. -/
theorem picks_iff_of_selection {q : Query} (h : p.selection d = .ok q) :
    q.picks keys = true ↔
      (∃ field text, p.Shows d field text ∧ keys.contains field text = true) ∧
        ∀ field, p.Hides field → Component.Meets d field keys := by
  obtain ⟨-, pairs, -, rfl, hmem⟩ := exists_pairs_of_selection h
  rw [picks_selectionOf_iff]
  simp only [Prod.exists, hmem]

/-! ### The keys of a stored query -/

theorem contains_foldl_addKeys_iff {components : List Component} {metadata : Metadata}
    {keys : KeySet} {field text : String} :
    (components.foldl (fun keys c => c.addKeys metadata keys) keys).contains field text = true ↔
      keys.contains field text = true ∨
        .fieldFilter field ∈ components ∧ metadata[field]? = some text := by
  induction components generalizing keys with
  | nil => simp only [List.foldl_nil, List.not_mem_nil, false_and, or_false]
  | cons c rest ih =>
    rw [List.foldl_cons, ih, Component.contains_addKeys_iff, List.mem_cons, or_assoc]
    refine or_congr_right ?_
    rw [← or_and_right, eq_comm]

/-- The keys of a stored query are those of its key terms and the metadata of filtered fields. -/
theorem contains_keys_iff {q : Query} {metadata : Metadata} {terms : List KeyTerm} {keys : KeySet}
    {field text : String} (hterms : p.terms q = .ok terms) (hkeys : p.keys q metadata = .ok keys) :
    keys.contains field text = true ↔
      (∃ t ∈ terms, p.keyOf t = (field, text)) ∨ p.Hides field ∧ metadata[field]? = some text := by
  simp only [Presearch.keys, hterms, bind, Except.bind] at hkeys
  obtain rfl := Except.ok.inj hkeys
  rw [contains_foldl_addKeys_iff, KeySet.contains_ofPairs, List.mem_map]
  exact Iff.rfl

/-! ### Presearches that are put together -/

/-- The presearch is put together from the one that is always there. -/
inductive Built : Presearch → Prop
  | start : Built {}
  | settings {p p' : Presearch} {s : PresearchSettings} (h : Built p)
      (hs : p.withSettings s = .ok p') : Built p'
  | weights {p : Presearch} (h : Built p) (weights : Weights) : Built (p.withWeights weights)
  | component {p : Presearch} (h : Built p) (c : Component) : Built (p.withComponent c)

theorem withSettings_eq_ok {p p' : Presearch} {s : PresearchSettings}
    (h : p.withSettings s = .ok p') : s.maxPart ≠ 0 ∧ p' = { p with settings := s } := by
  simp only [withSettings, bind, Except.bind] at h
  split at h
  · simp only [reduceCtorEq] at h
  · next valid hvalid =>
    obtain ⟨hlimit, -, -, rfl⟩ := PresearchSettings.validate_eq_ok_iff.mp hvalid
    exact ⟨hlimit, (Except.ok.inj h).symm⟩

theorem Built.plain (h : Built p) : p.extractor.Plain := by
  induction h with
  | start => exact Extractor.plain_standard {}
  | settings h hs ih =>
    obtain ⟨-, rfl⟩ := withSettings_eq_ok hs
    exact ih
  | weights h weights ih => exact ih
  | component h c ih =>
    intro rule hrule
    rcases List.mem_append.mp hrule with hrule | hrule
    · exact ih rule hrule
    · cases c with
      | intervals => exact ⟨.interval, List.mem_singleton.mp hrule⟩
      | fieldFilter field => exact absurd hrule List.not_mem_nil

theorem Built.maxPart_ne_zero (h : Built p) : p.settings.maxPart ≠ 0 := by
  induction h with
  | start => decide
  | settings h hs ih =>
    obtain ⟨hlimit, rfl⟩ := withSettings_eq_ok hs
    exact hlimit
  | weights h weights ih => exact ih
  | component h c ih => exact ih

end Presearch

end Percolator
