import Mathlib.Data.List.Nodup
import Mathlib.Data.List.TakeWhile
import Percolator.Monitor.Call
import Percolator.Proofs.Monitor.Store

/-!
# A monitor is a registry

A registry is the list of the queries that are registered, each id once, in the order of their last
registrations. All that can be seen of a monitor are the queries in its registry: which ones there
are, and which ones a selection selects, in order. Slots, postings and everything else that former
calls have left behind in the monitor do not show.

## Main definitions

* `Registry`, `Registry.call` : the queries that are registered, and what calls make of them.
* `Monitor.Holds` : a monitor holds the queries of a registry.
* `Monitor.Shows` : what can be seen of a monitor is what stands in a registry.

## Main results

* `Store.Consistent.select_eq` : a selection selects queries in the order of their registrations.
* `Monitor.Holds.call`, `Monitor.Holds.answerAll` : calls keep a monitor and its registry together.
* `Monitor.answerAll_shows` : after any calls, a monitor shows its registry.
-/

namespace Percolator

/-! ### Registries -/

/-- The queries that are registered, in the order of their last registrations. -/
structure Registry where
  queries : List StoredQuery := []
  distinct : (queries.map (·.id)).Nodup := by exact List.nodup_nil

namespace Registry

variable {r : Registry} {query : StoredQuery} {id : String}

/-- The query with an id. -/
def find? (r : Registry) (id : String) : Option StoredQuery := r.queries.find? (·.id == id)

/-- The registry without a query. -/
def erase (r : Registry) (id : String) : Registry where
  queries := r.queries.filter (·.id != id)
  distinct := (r.queries.filter_sublist.map (·.id)).nodup r.distinct

theorem ne_of_mem_erase (h : query ∈ (r.erase id).queries) : query.id ≠ id :=
  bne_iff_ne.mp (List.mem_filter.mp h).2

/-- The registry with a query, which replaces the one with its id and becomes the last one. -/
def insert (r : Registry) (query : StoredQuery) : Registry where
  queries := (r.erase query.id).queries ++ [query]
  distinct := by
    rw [List.map_append, List.nodup_append]
    refine ⟨(r.erase query.id).distinct, List.nodup_singleton query.id, fun id hid id' hid' => ?_⟩
    obtain ⟨other, hother, rfl⟩ := List.mem_map.mp hid
    rw [List.map_singleton, List.mem_singleton] at hid'
    exact hid' ▸ ne_of_mem_erase hother

theorem find?_eq_some_iff : r.find? id = some query ↔ query ∈ r.queries ∧ query.id = id := by
  rw [find?]
  constructor
  · intro h
    have hid := List.find?_some h
    exact ⟨List.mem_of_find?_eq_some h, beq_iff_eq.mp hid⟩
  · rintro ⟨hmem, rfl⟩
    have hsome : (r.queries.find? (·.id == query.id)).isSome = true :=
      List.find?_isSome.mpr ⟨query, hmem, beq_self_eq_true query.id⟩
    obtain ⟨other, hother⟩ := Option.isSome_iff_exists.mp hsome
    have hid := List.find?_some hother
    rw [hother, List.inj_on_of_nodup_map r.distinct (List.mem_of_find?_eq_some hother) hmem
      (beq_iff_eq.mp hid)]

/-- Queries with new ids become the last ones. -/
theorem queries_foldl_insert {queries : List StoredQuery}
    (h : ((r.queries ++ queries).map (·.id)).Nodup) :
    (queries.foldl insert r).queries = r.queries ++ queries := by
  induction queries generalizing r with
  | nil => exact (List.append_nil _).symm
  | cons query rest ih =>
    have hnew : (r.insert query).queries = r.queries ++ [query] := by
      refine congrArg (· ++ [query]) (List.filter_eq_self.mpr fun other hother => ?_)
      rw [List.map_append, List.nodup_append] at h
      exact bne_iff_ne.mpr (h.2.2 _ (List.mem_map_of_mem hother) _
        (List.mem_map_of_mem List.mem_cons_self))
    have hrest : r.queries ++ query :: rest = (r.insert query).queries ++ rest := by
      rw [hnew, List.append_assoc, List.singleton_append]
    rw [hrest] at h ⊢
    exact ih h

end Registry

/-- Answers a call. Of several queries, those in front of the first that is refused are
registered. -/
def Registry.call (p : Presearch) (r : Registry) : Call → Answer × Registry
  | .register query =>
    match p.refusal? query with
    | none => (.done, r.insert query)
    | some error => (.refused error, r)
  | .registerAll queries =>
    ((queries.findSome? p.refusal?).elim .done .refused,
      (queries.takeWhile fun query => (p.refusal? query).isNone).foldl insert r)
  | .delete id => (.deleted (r.find? id).isSome, r.erase id)
  | .clear => (.done, {})

/-! ### The queries of a store -/

namespace Store

variable {p : Presearch} {s : Store} {id : String}

/-- The queries in the order of their slots. -/
def queries (s : Store) : List StoredQuery := s.ordered.map (·.query)

namespace Consistent

/-- Which queries a selection selects is up to the queries. -/
theorem select_eq (q : Query) : ∃ checked : Except Error Unit, ∀ s : Store, Consistent p s →
    (s.select q).map (·.map (·.query)) = checked.map fun _ => s.queries.filter (p.picks q) := by
  obtain ⟨checked, -, hsearch⟩ := KeyIndex.search_eq q
  refine ⟨checked, fun s h => ?_⟩
  have hqueries : ((s.index.picked q).filterMap s.inSlot?).map (·.query) =
      s.queries.filter (p.picks q) := by
    rw [h.filterMap_picked, queries, List.filter_map]
    rfl
  rw [select, hsearch s.index h.index, ← hqueries]
  cases checked <;> rfl

theorem ordered_erase (h : Consistent p s) (id : String) :
    (s.erase id).ordered = s.ordered.filter (·.query.id != id) := by
  have herase := h.erase id
  refine eq_of_pairwise_slot herase.pairwise_ordered (h.pairwise_ordered.filter _) fun e => ?_
  rw [herase.mem_ordered, List.mem_filter, h.mem_ordered, get?_erase, bne_iff_ne]
  split
  · next heq => simp only [reduceCtorEq, heq, ne_eq, not_true_eq_false, and_false]
  · next hne => exact (and_iff_left (Ne.symm hne)).symm

theorem ordered_insert (h : Consistent p s) {query : StoredQuery} {terms : List KeyTerm}
    {keys : KeySet} (hterms : p.terms query.query = .ok terms)
    (hkeys : p.keys query.query query.metadata = .ok keys) :
    (s.insert query terms keys).ordered =
      (s.erase query.id).ordered ++ [⟨s.nextSlot, query, terms⟩] := by
  have hinsert := h.insert hterms hkeys
  have herase := h.erase query.id
  refine eq_of_pairwise_slot hinsert.pairwise_ordered ?_ fun e => ?_
  · refine List.pairwise_append.mpr ⟨herase.pairwise_ordered, List.pairwise_singleton _ _,
      fun e he e' he' => ?_⟩
    rw [List.mem_singleton.mp he', ← @nextSlot_erase s query.id]
    exact herase.lt_nextSlot _ _ (herase.ids_slot _ e (herase.mem_ordered.mp he))
  · rw [hinsert.mem_ordered, get?_insert, List.mem_append, List.mem_singleton, herase.mem_ordered,
      get?_erase]
    split
    · next heq =>
      simp only [Option.some.injEq, reduceCtorEq, false_or]
      exact eq_comm
    · next hne =>
      refine (or_iff_left ?_).symm
      rintro rfl
      exact hne rfl

theorem queries_erase (h : Consistent p s) (id : String) :
    (s.erase id).queries = s.queries.filter (·.id != id) := by
  rw [queries, h.ordered_erase, queries, List.filter_map]
  rfl

theorem queries_insert (h : Consistent p s) {query : StoredQuery} {terms : List KeyTerm}
    {keys : KeySet} (hterms : p.terms query.query = .ok terms)
    (hkeys : p.keys query.query query.metadata = .ok keys) :
    (s.insert query terms keys).queries = s.queries.filter (·.id != query.id) ++ [query] := by
  rw [queries, h.ordered_insert hterms hkeys, List.map_append, ← queries, h.queries_erase]
  rfl

/-- The query that stands under an id is the one with the id. -/
theorem query?_eq_some_iff (h : Consistent p s) {query : StoredQuery} :
    (s.get? id).map (·.query) = some query ↔ query ∈ s.queries ∧ query.id = id := by
  simp only [queries, List.mem_map, h.mem_ordered, Option.map_eq_some_iff]
  constructor
  · rintro ⟨e, he, rfl⟩
    have hid := h.id_eq id e he
    exact ⟨⟨e, hid.symm ▸ he, rfl⟩, hid⟩
  · rintro ⟨⟨e, he, rfl⟩, rfl⟩
    exact ⟨e, he, rfl⟩

/-- The store counts its queries. -/
theorem size_eq (h : Consistent p s) : s.size = s.queries.length := by
  have hnodup : (s.ordered.map (·.query.id)).Nodup := by
    refine (nodup_of_pairwise_slot h.pairwise_ordered).map_on fun e he e' he' hid => ?_
    rw [h.mem_ordered] at he he'
    rw [hid, he'] at he
    exact (Option.some.inj he).symm
  have hperm : s.entries.keys.Perm (s.ordered.map (·.query.id)) := by
    refine (List.perm_ext_iff_of_nodup Std.TreeMap.nodup_keys hnodup).mpr fun id => ?_
    rw [Std.TreeMap.mem_keys, Std.TreeMap.mem_iff_isSome_getElem?, Option.isSome_iff_exists,
      List.mem_map]
    constructor
    · rintro ⟨e, he⟩
      have hid := h.id_eq id e he
      exact ⟨e, h.mem_ordered.mpr (hid.symm ▸ he), hid⟩
    · rintro ⟨e, he, rfl⟩
      exact ⟨e, h.mem_ordered.mp he⟩
  rw [size, ← Std.TreeMap.length_keys, hperm.length_eq, queries, List.length_map, List.length_map]

end Consistent

end Store

/-! ### Calls -/

namespace Monitor

variable {p : Presearch} {settings : MonitorSettings} {m : Monitor} {r : Registry}

/-- The monitor holds the queries of the registry, and each of them can be registered. -/
structure Holds (p : Presearch) (settings : MonitorSettings) (m : Monitor) (r : Registry) :
    Prop where
  reachable : Reachable p settings m
  queries : m.store.queries = r.queries
  accepted : ∀ query ∈ r.queries, p.refusal? query = none

theorem holds_empty : Holds p settings { presearch := p, settings } {} where
  reachable := .start
  queries := rfl
  accepted _ h := absurd h List.not_mem_nil

namespace Holds

theorem erase (h : Holds p settings m r) (id : String) :
    Holds p settings (m.delete id) (r.erase id) where
  reachable := h.reachable.delete id
  queries := by
    rw [delete, h.reachable.consistent.queries_erase, h.queries]
    rfl
  accepted query hquery := h.accepted query (List.mem_of_mem_filter hquery)

theorem register_cases (h : Holds p settings m r) (query : StoredQuery) :
    (∃ error, p.refusal? query = some error ∧ m.register query = .error error) ∨
      p.refusal? query = none ∧
        ∃ m', m.register query = .ok m' ∧ Holds p settings m' (r.insert query) := by
  have hcases := m.register_cases query
  rw [h.reachable.presearch_eq] at hcases
  refine hcases.imp_right ?_
  rintro ⟨hnone, terms, keys, hterms, hkeys, hregister⟩
  refine ⟨hnone, _, hregister, h.reachable.register hregister, ?_, fun other hother => ?_⟩
  · rw [h.reachable.consistent.queries_insert hterms hkeys, h.queries]
    rfl
  · rcases List.mem_append.mp hother with hother | hother
    · exact h.accepted other (List.mem_of_mem_filter hother)
    · rwa [List.mem_singleton.mp hother]

/-- Queries are registered up to the first that is refused. -/
theorem registerAll (h : Holds p settings m r) (queries : List StoredQuery) :
    (m.registerAll queries).2 = queries.findSome? p.refusal? ∧
      Holds p settings (m.registerAll queries).1
        ((queries.takeWhile fun query => (p.refusal? query).isNone).foldl Registry.insert r) := by
  induction queries generalizing m r with
  | nil => exact ⟨rfl, h⟩
  | cons query rest ih =>
    rcases h.register_cases query with ⟨error, herror, hregister⟩ | ⟨hnone, m', hregister, hm'⟩
    · simp only [Monitor.registerAll, hregister, List.findSome?_cons, herror, List.takeWhile_cons,
        Option.isNone_some, Bool.false_eq_true, if_false, List.foldl_nil, true_and]
      exact h
    · simp only [Monitor.registerAll, hregister, List.findSome?_cons, hnone, List.takeWhile_cons,
        Option.isNone_none, if_true, List.foldl_cons]
      exact ih hm'

/-- The query that a monitor has under an id is the one in its registry. -/
theorem query?_eq (h : Holds p settings m r) (id : String) : m.query? id = r.find? id := by
  refine Option.ext fun query => ?_
  rw [Monitor.query?, h.reachable.consistent.query?_eq_some_iff, h.queries,
    Registry.find?_eq_some_iff]

/-- A monitor and its registry give the same answer to a call, and stay together. -/
theorem call (h : Holds p settings m r) (c : Call) :
    (m.call c).1 = (r.call p c).1 ∧ Holds p settings (m.call c).2 (r.call p c).2 := by
  cases c with
  | register query =>
    rcases h.register_cases query with ⟨error, herror, hregister⟩ | ⟨hnone, m', hregister, hm'⟩
    · simp only [Monitor.call, hregister, Registry.call, herror, true_and]
      exact h
    · simp only [Monitor.call, hregister, Registry.call, hnone, true_and]
      exact hm'
  | registerAll queries =>
    obtain ⟨hrefusal, hqueries⟩ := h.registerAll queries
    exact ⟨congrArg (Option.elim · Answer.done Answer.refused) hrefusal, hqueries⟩
  | delete id =>
    exact ⟨congrArg (fun query => Answer.deleted (Option.isSome query)) (h.query?_eq id),
      h.erase id⟩
  | clear =>
    exact ⟨rfl, h.reachable.clear, rfl, fun _ hquery => absurd hquery List.not_mem_nil⟩

/-- So they do for any number of calls. -/
theorem answerAll (h : Holds p settings m r) (calls : List Call) :
    (answerAll Monitor.call m calls).1 = (answerAll (Registry.call p) r calls).1 ∧
      Holds p settings (answerAll Monitor.call m calls).2
        (answerAll (Registry.call p) r calls).2 := by
  induction calls generalizing m r with
  | nil => exact ⟨rfl, h⟩
  | cons c rest ih =>
    obtain ⟨hanswer, hc⟩ := h.call c
    obtain ⟨hanswers, hrest⟩ := ih hc
    exact ⟨congrArg₂ List.cons hanswer hanswers, hrest⟩

end Holds

/-- What can be seen of the monitor is what stands in the registry. A selection selects what it
selects in a monitor where the queries of the registry are registered, each once and in order. -/
structure Shows (p : Presearch) (settings : MonitorSettings) (m : Monitor) (r : Registry) :
    Prop where
  query?_eq : ∀ id, m.query? id = r.find? id
  size_eq : m.size = r.queries.length
  terms?_eq : ∀ id, m.terms? id =
    (r.find? id).bind fun query => (p.terms query.query).toOption
  select_eq : ∃ fresh,
    ({ presearch := p, settings } : Monitor).registerAll r.queries = (fresh, none) ∧
      ∀ q, (m.store.select q).map (·.map (·.query)) = (fresh.store.select q).map (·.map (·.query))

/-- A monitor where the queries of a registry are registered in order. -/
theorem Holds.exists_fresh (h : Holds p settings m r) : ∃ fresh,
    ({ presearch := p, settings } : Monitor).registerAll r.queries = (fresh, none) ∧
      Holds p settings fresh r := by
  obtain ⟨hrefusal, hfresh⟩ := (@holds_empty p settings).registerAll r.queries
  rw [List.findSome?_eq_none_iff.mpr h.accepted] at hrefusal
  rw [List.takeWhile_eq_self_iff.mpr fun query hquery =>
    Option.isNone_iff_eq_none.mpr (h.accepted query hquery)] at hfresh
  have hqueries : (r.queries.foldl Registry.insert {}).queries = r.queries :=
    Registry.queries_foldl_insert r.distinct
  exact ⟨_, Prod.ext rfl hrefusal, hfresh.reachable, hfresh.queries.trans hqueries, h.accepted⟩

theorem Holds.shows (h : Holds p settings m r) : Shows p settings m r where
  query?_eq := h.query?_eq
  size_eq := by rw [size, h.reachable.consistent.size_eq, h.queries]
  terms?_eq id := by
    rw [← h.query?_eq, terms?, query?]
    cases he : m.store.get? id with
    | none => rfl
    | some e =>
      simp only [Option.map_some, Option.bind_some, h.reachable.consistent.terms_eq id e he]
      rfl
  select_eq := by
    obtain ⟨fresh, hregister, hfresh⟩ := h.exists_fresh
    refine ⟨fresh, hregister, fun q => ?_⟩
    obtain ⟨checked, hselect⟩ := Store.Consistent.select_eq q
    rw [hselect _ h.reachable.consistent, hselect _ hfresh.reachable.consistent, h.queries,
      hfresh.queries]

/-- After any calls, a monitor has given the answers of its registry and shows what stands in it. -/
theorem answerAll_shows (p : Presearch) (settings : MonitorSettings) (calls : List Call) :
    (answerAll call ({ presearch := p, settings } : Monitor) calls).1 =
        (answerAll (Registry.call p) {} calls).1 ∧
      Shows p settings (answerAll call ({ presearch := p, settings } : Monitor) calls).2
        (answerAll (Registry.call p) {} calls).2 := by
  obtain ⟨hanswers, hholds⟩ := holds_empty.answerAll calls
  exact ⟨hanswers, hholds.shows⟩

end Monitor

end Percolator
