import Percolator.Monitor.Basic
import Percolator.Proofs.Presearch.KeyIndex

/-!
# The store of a monitor

A store is consistent with a presearch if its three tables describe the same queries: each query has
a slot of its own, the slot leads back to the query, and the index holds in it the keys that the
presearch makes of the query. The operations of a monitor keep its store consistent, and a
consistent store selects the queries whose keys the selection picks.

## Main definitions

* `Store.ordered` : the entries in the order of their slots.
* `Store.Consistent` : the tables of the store describe the same queries.
* `Presearch.refusal?` : why a query cannot be registered.
* `Monitor.Reachable` : what becomes of a monitor.

## Main results

* `Monitor.register_cases` : a query is refused or inserted with its keys.
* `Monitor.Reachable.consistent` : the store of a monitor is consistent with its presearch.
* `Store.Consistent.select_spec` : what a selection selects.
-/

namespace Percolator

namespace Presearch

/-- A query picks the keys that the presearch makes of a stored query. -/
def picks (p : Presearch) (q : Query) (query : StoredQuery) : Bool :=
  match p.keys query.query query.metadata with
  | .ok keys => q.picks keys
  | .error _ => false

theorem picks_eq_true_iff {p : Presearch} {q : Query} {query : StoredQuery} :
    p.picks q query = true ↔
      ∃ keys, p.keys query.query query.metadata = .ok keys ∧ q.picks keys = true := by
  rw [picks]
  cases p.keys query.query query.metadata with
  | ok keys => simp only [Except.ok.injEq, exists_eq_left']
  | error error => simp only [Bool.false_eq_true, reduceCtorEq, false_and, exists_false]

/-- Why a query cannot be registered, if it cannot: it has no id, or its key terms are not found. -/
def refusal? (p : Presearch) (query : StoredQuery) : Option Error :=
  if query.id.isEmpty then some .emptyQueryId
  else match p.terms query.query with
    | .ok _ => none
    | .error error => some error

end Presearch

namespace Store

variable {p : Presearch} {s : Store} {id : String} {e : StoreEntry} {slot : Nat}

/-- The entries in the order of their slots. -/
def ordered (s : Store) : List StoreEntry := s.index.allSlots.filterMap s.inSlot?

theorem nodup_of_pairwise_slot {es : List StoreEntry} (h : es.Pairwise (·.slot < ·.slot)) :
    es.Nodup :=
  h.imp fun hlt heq => Nat.ne_of_lt hlt (congrArg StoreEntry.slot heq)

/-- Entries in the order of their slots are determined by their members. -/
theorem eq_of_pairwise_slot {es es' : List StoreEntry} (h : es.Pairwise (·.slot < ·.slot))
    (h' : es'.Pairwise (·.slot < ·.slot)) (hmem : ∀ e, e ∈ es ↔ e ∈ es') : es = es' := by
  refine List.Perm.eq_of_pairwise (fun a b _ _ hab hba => ?_) h h'
    ((List.perm_ext_iff_of_nodup (nodup_of_pairwise_slot h) (nodup_of_pairwise_slot h')).mpr hmem)
  exact absurd hba (Nat.lt_asymm hab)

/-- The tables of the store describe the same queries, with the key terms and the keys that the
presearch makes of them. Slots that were never given are free. -/
structure Consistent (p : Presearch) (s : Store) : Prop where
  index : s.index.Consistent
  id_eq : ∀ id e, s.get? id = some e → e.query.id = id
  ids_slot : ∀ id e, s.get? id = some e → s.ids[e.slot]? = some id
  terms_eq : ∀ id e, s.get? id = some e → p.terms e.query.query = .ok e.terms
  keys_eq : ∀ id e, s.get? id = some e →
    ∃ keys, p.keys e.query.query e.query.metadata = .ok keys ∧ s.index.keys? e.slot = some keys
  entry_of_ids : ∀ slot id, s.ids[slot]? = some id → ∃ e, s.get? id = some e ∧ e.slot = slot
  ids_of_keys : ∀ slot keys, s.index.keys? slot = some keys → ∃ id, s.ids[slot]? = some id
  lt_nextSlot : ∀ slot id, s.ids[slot]? = some id → slot < s.nextSlot

theorem consistent_empty (p : Presearch) (nextSlot : Nat) : Consistent p { nextSlot } where
  index := KeyIndex.consistent_empty
  id_eq _ _ h := by simp only [get?, Std.TreeMap.getElem?_emptyc, reduceCtorEq] at h
  ids_slot _ _ h := by simp only [get?, Std.TreeMap.getElem?_emptyc, reduceCtorEq] at h
  terms_eq _ _ h := by simp only [get?, Std.TreeMap.getElem?_emptyc, reduceCtorEq] at h
  keys_eq _ _ h := by simp only [get?, Std.TreeMap.getElem?_emptyc, reduceCtorEq] at h
  entry_of_ids _ _ h := by simp only [Std.TreeMap.getElem?_emptyc, reduceCtorEq] at h
  ids_of_keys _ _ h := by
    simp only [KeyIndex.keys?, Std.TreeMap.getElem?_emptyc, reduceCtorEq] at h
  lt_nextSlot _ _ h := by simp only [Std.TreeMap.getElem?_emptyc, reduceCtorEq] at h

theorem get?_erase {other : String} :
    (s.erase id).get? other = if id = other then none else s.get? other := by
  simp only [erase, get?]
  cases h : s.entries[id]? with
  | none =>
    by_cases heq : id = other
    · rw [if_pos heq, ← heq]
      exact h
    · rw [if_neg heq]
  | some e => simp only [Std.TreeMap.getElem?_erase, Std.LawfulEqCmp.compare_eq_iff_eq]

theorem erase_of_get?_eq_some (h : s.get? id = some e) :
    (s.erase id).ids = s.ids.erase e.slot ∧ (s.erase id).index = s.index.remove e.slot := by
  rw [get?] at h
  simp only [erase, h, and_self]

theorem ids_erase_eq_some_iff (h : s.get? id = some e) {other : String} :
    (s.erase id).ids[slot]? = some other ↔ e.slot ≠ slot ∧ s.ids[slot]? = some other := by
  rw [(erase_of_get?_eq_some h).1, Std.TreeMap.getElem?_erase]
  simp only [Std.LawfulEqCmp.compare_eq_iff_eq]
  split
  · next heq => simp only [heq, ne_eq, not_true_eq_false, false_and, reduceCtorEq]
  · next hne => simp only [ne_eq, hne, not_false_eq_true, true_and]

theorem erase_of_get?_eq_none (h : s.get? id = none) : s.erase id = s := by
  rw [get?] at h
  simp only [erase, h]

@[simp] theorem nextSlot_erase : (s.erase id).nextSlot = s.nextSlot := by
  simp only [erase]
  split <;> rfl

section Insert

variable {query : StoredQuery} {terms : List KeyTerm} {keys : KeySet}

theorem get?_insert : (s.insert query terms keys).get? id =
    if query.id = id then some ⟨s.nextSlot, query, terms⟩ else s.get? id := by
  have hget : (s.insert query terms keys).get? id =
      if query.id = id then some ⟨(s.erase query.id).nextSlot, query, terms⟩
      else (s.erase query.id).get? id := by
    simp only [insert, get?, Std.TreeMap.getElem?_insert, Std.LawfulEqCmp.compare_eq_iff_eq]
  rw [hget, nextSlot_erase]
  by_cases hid : query.id = id
  · rw [if_pos hid, if_pos hid]
  · rw [if_neg hid, if_neg hid, get?_erase, if_neg hid]

theorem ids_insert : (s.insert query terms keys).ids[slot]? =
    if s.nextSlot = slot then some query.id else (s.erase query.id).ids[slot]? := by
  rw [← @nextSlot_erase s query.id]
  simp only [insert, Std.TreeMap.getElem?_insert, Std.LawfulEqCmp.compare_eq_iff_eq]

theorem keys?_insert : (s.insert query terms keys).index.keys? slot =
    if s.nextSlot = slot then some keys else (s.erase query.id).index.keys? slot := by
  rw [← @nextSlot_erase s query.id]
  exact KeyIndex.keys?_add

end Insert

namespace Consistent

/-- Different queries have different slots. -/
theorem id_unique (h : Consistent p s) {other : String} {e' : StoreEntry} (he : s.get? id = some e)
    (he' : s.get? other = some e') (hslot : e.slot = e'.slot) : id = other := by
  have hid := h.ids_slot id e he
  rw [hslot, h.ids_slot other e' he'] at hid
  exact (Option.some.inj hid).symm

theorem get?_of_get?_erase (h : Consistent p s) (hid : s.get? id = some e) {other : String}
    {e' : StoreEntry} (he' : (s.erase id).get? other = some e') :
    s.get? other = some e' ∧ e.slot ≠ e'.slot := by
  rw [get?_erase] at he'
  split at he'
  · simp only [reduceCtorEq] at he'
  · next hne => exact ⟨he', fun hslot => hne (h.id_unique hid he' hslot)⟩

/-- Erasing a query keeps the store consistent. -/
theorem erase (h : Consistent p s) (id : String) : Consistent p (s.erase id) := by
  cases hid : s.get? id with
  | none => rwa [erase_of_get?_eq_none hid]
  | some e =>
    obtain ⟨-, hindex⟩ := erase_of_get?_eq_some hid
    have hget := fun other e' => @get?_of_get?_erase _ _ _ _ h hid other e'
    exact {
      index := hindex ▸ h.index.remove
      id_eq := fun other e' he' => h.id_eq other e' (hget other e' he').1
      ids_slot := fun other e' he' =>
        (ids_erase_eq_some_iff hid).mpr
          ⟨(hget other e' he').2, h.ids_slot other e' (hget other e' he').1⟩
      terms_eq := fun other e' he' => h.terms_eq other e' (hget other e' he').1
      keys_eq := fun other e' he' => by
        obtain ⟨he', hslot⟩ := hget other e' he'
        rw [hindex, KeyIndex.keys?_remove, if_neg hslot]
        exact h.keys_eq other e' he'
      entry_of_ids := fun slot other hother => by
        obtain ⟨hslot, hother⟩ := (ids_erase_eq_some_iff hid).mp hother
        obtain ⟨e', he', rfl⟩ := h.entry_of_ids slot other hother
        refine ⟨e', ?_, rfl⟩
        rw [get?_erase, if_neg]
        · exact he'
        · rintro rfl
          rw [hid] at he'
          exact hslot (Option.some.inj he' ▸ rfl)
      ids_of_keys := fun slot keys hkeys => by
        rw [hindex, KeyIndex.keys?_remove] at hkeys
        split at hkeys
        · simp only [reduceCtorEq] at hkeys
        · next hslot =>
          obtain ⟨other, hother⟩ := h.ids_of_keys slot keys hkeys
          exact ⟨other, (ids_erase_eq_some_iff hid).mpr ⟨hslot, hother⟩⟩
      lt_nextSlot := fun slot other hother => by
        rw [nextSlot_erase]
        exact h.lt_nextSlot slot other ((ids_erase_eq_some_iff hid).mp hother).2 }

/-- The slot that is given next is free. -/
theorem keys?_nextSlot (h : Consistent p s) : s.index.keys? s.nextSlot = none := by
  cases hkeys : s.index.keys? s.nextSlot with
  | none => rfl
  | some keys =>
    obtain ⟨id, hid⟩ := h.ids_of_keys _ _ hkeys
    exact absurd (h.lt_nextSlot _ _ hid) (Nat.lt_irrefl _)

/-- The slot of a query that stays is not the one that is given next. -/
theorem nextSlot_ne (h : Consistent p s) (he : s.get? id = some e) : s.nextSlot ≠ e.slot :=
  Nat.ne_of_gt (h.lt_nextSlot _ _ (h.ids_slot id e he))

section Insert

variable {query : StoredQuery} {terms : List KeyTerm} {keys : KeySet}

/-- A query of the store after an insertion is the new one, or it stays in a slot of its own. -/
theorem get?_insert_cases (h : Consistent p s)
    (he : (s.insert query terms keys).get? id = some e) :
    query.id = id ∧ e = ⟨s.nextSlot, query, terms⟩ ∨
      s.nextSlot ≠ e.slot ∧ (s.erase query.id).get? id = some e := by
  rw [get?_insert] at he
  split at he
  · next hid => exact .inl ⟨hid, (Option.some.inj he).symm⟩
  · next hid => exact .inr ⟨h.nextSlot_ne he, by rwa [get?_erase, if_neg hid]⟩

theorem get?_insert_of_get?_erase (he : (s.erase query.id).get? id = some e) :
    (s.insert query terms keys).get? id = some e := by
  rw [get?_erase] at he
  split at he
  · simp only [reduceCtorEq] at he
  · next hne => rwa [get?_insert, if_neg hne]

/-- Inserting a query with the key terms and the keys that the presearch makes of it keeps the store
consistent. -/
theorem insert (h : Consistent p s) (hterms : p.terms query.query = .ok terms)
    (hkeys : p.keys query.query query.metadata = .ok keys) :
    Consistent p (s.insert query terms keys) where
  index := (h.erase query.id).index.add (h.erase query.id).keys?_nextSlot
  id_eq id e he := by
    rcases h.get?_insert_cases he with ⟨hid, rfl⟩ | ⟨-, he⟩
    · exact hid
    · exact (h.erase query.id).id_eq id e he
  ids_slot id e he := by
    rw [ids_insert]
    rcases h.get?_insert_cases he with ⟨hid, rfl⟩ | ⟨hslot, he⟩
    · rw [if_pos rfl, hid]
    · rw [if_neg hslot, (h.erase query.id).ids_slot id e he]
  terms_eq id e he := by
    rcases h.get?_insert_cases he with ⟨-, rfl⟩ | ⟨-, he⟩
    · exact hterms
    · exact (h.erase query.id).terms_eq id e he
  keys_eq id e he := by
    rw [keys?_insert]
    rcases h.get?_insert_cases he with ⟨-, rfl⟩ | ⟨hslot, he⟩
    · exact ⟨keys, hkeys, if_pos rfl⟩
    · rw [if_neg hslot]
      exact (h.erase query.id).keys_eq id e he
  entry_of_ids slot id hid := by
    rw [ids_insert] at hid
    split at hid
    · next hslot => exact ⟨_, by rw [get?_insert, if_pos (Option.some.inj hid)], hslot⟩
    · obtain ⟨e, he, hslot⟩ := (h.erase query.id).entry_of_ids slot id hid
      exact ⟨e, get?_insert_of_get?_erase he, hslot⟩
  ids_of_keys slot keys' hkeys' := by
    rw [keys?_insert] at hkeys'
    rw [ids_insert]
    split at hkeys'
    · next hslot => exact ⟨query.id, if_pos hslot⟩
    · next hslot =>
      obtain ⟨id, hid⟩ := (h.erase query.id).ids_of_keys slot keys' hkeys'
      exact ⟨id, by rw [if_neg hslot, hid]⟩
  lt_nextSlot slot id hid := by
    have hnext : (s.insert query terms keys).nextSlot = s.nextSlot + 1 :=
      congrArg (· + 1) nextSlot_erase
    rw [ids_insert] at hid
    split at hid
    · omega
    · have hlt := (h.erase query.id).lt_nextSlot slot id hid
      rw [nextSlot_erase] at hlt
      omega

end Insert

/-! ### Selections -/

theorem inSlot?_eq_some_iff (h : Consistent p s) :
    s.inSlot? slot = some e ↔ s.get? e.query.id = some e ∧ e.slot = slot := by
  simp only [inSlot?, bind, Option.bind_eq_some_iff]
  constructor
  · rintro ⟨id, hid, he⟩
    obtain ⟨e', he', hslot⟩ := h.entry_of_ids slot id hid
    obtain rfl := Option.some.inj (he.symm.trans he')
    exact ⟨(h.id_eq id e he).symm ▸ he, hslot⟩
  · rintro ⟨he, rfl⟩
    exact ⟨e.query.id, h.ids_slot _ e he, he⟩

theorem mem_ordered (h : Consistent p s) : e ∈ s.ordered ↔ s.get? e.query.id = some e := by
  simp only [ordered, List.mem_filterMap, h.inSlot?_eq_some_iff]
  constructor
  · rintro ⟨slot, -, he, -⟩
    exact he
  · intro he
    obtain ⟨keys, -, hkeys⟩ := h.keys_eq _ e he
    exact ⟨e.slot, KeyIndex.mem_allSlots.mpr ⟨keys, hkeys⟩, he, rfl⟩

/-- The entries in slots that are in order are in the order of their slots. -/
theorem pairwise_slot (h : Consistent p s) {slots : List Nat} (hslots : Sorted.Increasing slots) :
    (slots.filterMap s.inSlot?).Pairwise (·.slot < ·.slot) := by
  refine List.pairwise_filterMap.mpr (hslots.imp fun hlt e he e' he' => ?_)
  obtain ⟨-, rfl⟩ := h.inSlot?_eq_some_iff.mp he
  obtain ⟨-, rfl⟩ := h.inSlot?_eq_some_iff.mp he'
  exact Nat.compare_eq_lt.mp hlt

theorem pairwise_ordered (h : Consistent p s) : s.ordered.Pairwise (·.slot < ·.slot) :=
  h.pairwise_slot s.index.slots.ordered_keys

/-- A query picks an entry by the keys that are filed in its slot. -/
theorem mem_filterMap_picked (h : Consistent p s) {q : Query} :
    e ∈ (s.index.picked q).filterMap s.inSlot? ↔
      e ∈ s.ordered ∧ p.picks q e.query = true := by
  simp only [List.mem_filterMap, h.inSlot?_eq_some_iff, KeyIndex.mem_picked, h.mem_ordered]
  constructor
  · rintro ⟨slot, ⟨keys, hkeys, hpicks⟩, he, rfl⟩
    obtain ⟨keys', hkeys', hslot⟩ := h.keys_eq _ e he
    obtain rfl := Option.some.inj (hkeys.symm.trans hslot)
    exact ⟨he, by rwa [Presearch.picks, hkeys']⟩
  · rintro ⟨he, hpicks⟩
    obtain ⟨keys, hkeys, hslot⟩ := h.keys_eq _ e he
    rw [Presearch.picks, hkeys] at hpicks
    exact ⟨e.slot, ⟨keys, hslot, hpicks⟩, he, rfl⟩

/-- The entries that are selected are those that the query picks, in the order of their slots. -/
theorem filterMap_picked (h : Consistent p s) (q : Query) :
    (s.index.picked q).filterMap s.inSlot? = s.ordered.filter fun e => p.picks q e.query :=
  eq_of_pairwise_slot (h.pairwise_slot KeyIndex.increasing_picked)
    (h.pairwise_ordered.filter _) fun e => by
      rw [h.mem_filterMap_picked, List.mem_filter]

/-- A selection selects the queries whose keys it picks. -/
theorem select_spec (h : Consistent p s) {q : Query} (hq : q.isSelection = true) :
    ∃ entries, s.select q = .ok entries ∧ ∀ e, e ∈ entries ↔
      ∃ id, s.get? id = some e ∧ ∃ keys,
        p.keys e.query.query e.query.metadata = .ok keys ∧ q.picks keys = true := by
  refine ⟨(s.index.picked q).filterMap s.inSlot?, ?_, fun e => ?_⟩
  · simp only [select, KeyIndex.search_spec h.index q hq, bind, Except.bind]
  · rw [h.mem_filterMap_picked, h.mem_ordered, Presearch.picks_eq_true_iff]
    constructor
    · rintro ⟨he, hpicks⟩
      exact ⟨_, he, hpicks⟩
    · rintro ⟨id, he, hpicks⟩
      exact ⟨(h.id_eq id e he).symm ▸ he, hpicks⟩

end Consistent

end Store

/-! ### Runs of a monitor -/

namespace Monitor

variable {p : Presearch} {settings : MonitorSettings} {m : Monitor}

/-- The monitor comes from one without queries by operations that went well. -/
inductive Reachable (p : Presearch) (settings : MonitorSettings) : Monitor → Prop
  | start : Reachable p settings { presearch := p, settings }
  | register {m m' : Monitor} {query : StoredQuery} (h : Reachable p settings m)
      (hm : m.register query = .ok m') : Reachable p settings m'
  | delete {m : Monitor} (h : Reachable p settings m) (id : String) :
    Reachable p settings (m.delete id)
  | clear {m : Monitor} (h : Reachable p settings m) : Reachable p settings m.clear

/-- A query is registered unless it is refused. -/
theorem register_cases (m : Monitor) (query : StoredQuery) :
    (∃ error, m.presearch.refusal? query = some error ∧ m.register query = .error error) ∨
      m.presearch.refusal? query = none ∧ ∃ terms keys,
        m.presearch.terms query.query = .ok terms ∧
        m.presearch.keys query.query query.metadata = .ok keys ∧
        m.register query = .ok { m with store := m.store.insert query terms keys } := by
  by_cases hid : query.id.isEmpty = true
  · exact .inl ⟨_, if_pos hid, if_pos hid⟩
  · rw [Presearch.refusal?, register, if_neg hid, if_neg hid]
    cases hterms : m.presearch.terms query.query with
    | error error => exact .inl ⟨error, rfl, rfl⟩
    | ok terms =>
      have hkeys : ∃ keys, m.presearch.keys query.query query.metadata = .ok keys := by
        simp only [Presearch.keys, hterms]
        exact ⟨_, rfl⟩
      obtain ⟨keys, hkeys⟩ := hkeys
      exact .inr ⟨rfl, terms, keys, rfl, hkeys, by rw [hkeys]; rfl⟩

/-- A registration that goes well inserts the query with its key terms and its keys. -/
theorem register_eq_ok {query : StoredQuery} {m' : Monitor} (h : m.register query = .ok m') :
    ∃ terms keys, m.presearch.terms query.query = .ok terms ∧
      m.presearch.keys query.query query.metadata = .ok keys ∧
      m' = { m with store := m.store.insert query terms keys } := by
  rcases m.register_cases query with ⟨error, -, hregister⟩ |
    ⟨-, terms, keys, hterms, hkeys, hregister⟩
  · simp only [hregister, reduceCtorEq] at h
  · exact ⟨terms, keys, hterms, hkeys, Except.ok.inj (h.symm.trans hregister)⟩

theorem Reachable.presearch_eq (h : Reachable p settings m) : m.presearch = p := by
  induction h with
  | start => rfl
  | register h hm ih =>
    obtain ⟨terms, keys, -, -, rfl⟩ := register_eq_ok hm
    exact ih
  | delete h id ih => exact ih
  | clear h ih => exact ih

/-- The store of a monitor is consistent with its presearch. -/
theorem Reachable.consistent (h : Reachable p settings m) : m.store.Consistent p := by
  induction h with
  | start => exact Store.consistent_empty p 0
  | register h hm ih =>
    obtain ⟨terms, keys, hterms, hkeys, rfl⟩ := register_eq_ok hm
    rw [h.presearch_eq] at hterms hkeys
    exact ih.insert hterms hkeys
  | delete h id ih => exact ih.erase id
  | clear h ih => exact Store.consistent_empty p _

end Monitor

end Percolator
