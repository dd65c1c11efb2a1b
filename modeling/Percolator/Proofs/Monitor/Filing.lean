import Percolator.Proofs.Monitor.Registry
import Percolator.Proofs.Presearch.NormalForm
import Percolator.Proofs.Presearch.Selection

/-!
# Registered queries are filed

A query that is registered can be found only if the index holds it under some key. The key terms of
a query are those of its tree, which the builders keep in normal form, so there is always one of
them. A consistent store holds the query under the key of each.

## Main results

* `Store.Consistent.exists_built` : the key terms of a query are those of a tree that is built.
* `Store.Consistent.mem_slotsUnder_keyOf` : a query is filed under the keys of its key terms.
* `Monitor.trees_normal_and_queries_filed` : the normal form of trees, and what follows for queries.
-/

namespace Percolator

namespace Store.Consistent

variable {p : Presearch} {s : Store} {id : String} {e : StoreEntry}

/-- The key terms of a query are those of the tree that the builders put together for it. -/
theorem exists_built (h : Consistent p s) (hp : p.extractor.Composing) (he : s.get? id = some e) :
    ∃ tree, p.extractor.tree e.query.query = .ok tree ∧ tree.Built ∧ e.terms = tree.terms := by
  have hterms := h.terms_eq id e he
  rw [Presearch.terms, Extractor.terms] at hterms
  cases htree : p.extractor.tree e.query.query with
  | error error => simp only [htree, Except.map, reduceCtorEq] at hterms
  | ok tree =>
    rw [htree] at hterms
    exact ⟨tree, rfl, Extractor.built_of_tree hp _ htree, (Except.ok.inj hterms).symm⟩

/-- A query is filed under the key of each of its key terms. -/
theorem mem_slotsUnder_keyOf (h : Consistent p s) (he : s.get? id = some e) {t : KeyTerm}
    (ht : t ∈ e.terms) : e.slot ∈ s.index.slotsUnder (p.keyOf t).1 (p.keyOf t).2 := by
  obtain ⟨keys, hkeys, hslot⟩ := h.keys_eq id e he
  refine (h.index _ _ e.slot).mpr ⟨keys, hslot, ?_⟩
  exact (Presearch.contains_keys_iff (h.terms_eq id e he) hkeys).mpr (.inl ⟨t, ht, rfl⟩)

end Store.Consistent

namespace Monitor

/-- Every tree that the builders put together, with any weights, is in normal form. It has a term,
and the term that every document has only by itself. So after any calls, every registered query is
filed under the keys of its terms, of which there is at least one. -/
theorem trees_normal_and_queries_filed :
    (∀ tree : KeyTree, tree.Built → tree.Normal ∧ tree.terms ≠ [] ∧
      ∀ t ∈ tree.terms, t.kind = .any → tree.terms = [t]) ∧
    ∀ (p : Presearch) (settings : MonitorSettings) (calls : List Call), p.extractor.Composing →
      let m := (answerAll call ({ presearch := p, settings } : Monitor) calls).2
      ∀ id e, m.store.get? id = some e →
        (∃ tree, p.extractor.tree e.query.query = .ok tree ∧ tree.Built ∧ e.terms = tree.terms) ∧
          (∀ t ∈ e.terms, e.slot ∈ m.store.index.slotsUnder (p.keyOf t).1 (p.keyOf t).2) ∧
          ∃ field text, e.slot ∈ m.store.index.slotsUnder field text := by
  refine ⟨fun tree htree => ?_, ?_⟩
  · have hnormal := htree.normal
    exact ⟨hnormal, hnormal.terms_ne_nil, fun t => hnormal.terms_eq_singleton⟩
  · intro p settings calls hp m id e he
    obtain ⟨-, hholds⟩ := (@holds_empty p settings).answerAll calls
    have hconsistent := hholds.reachable.consistent
    obtain ⟨tree, htree, hbuilt, hterms⟩ := hconsistent.exists_built hp he
    obtain ⟨t, ht⟩ := List.exists_mem_of_ne_nil _ hbuilt.normal.terms_ne_nil
    refine ⟨⟨tree, htree, hbuilt, hterms⟩, fun t => hconsistent.mem_slotsUnder_keyOf he, ?_⟩
    exact ⟨_, _, hconsistent.mem_slotsUnder_keyOf he (hterms ▸ ht)⟩

/-- The leaf of a word twice, with a weight that is not a number. Both leaves are kept. -/
def rustTwice : KeyTree :=
  .conjunction [.leaf ⟨"body", "rust", .exact⟩ (0 / 0), .leaf ⟨"body", "rust", .exact⟩ (0 / 0)]

/-- A presearch that files queries for everything under that word. -/
def rustForAll : Presearch :=
  { extractor := { rules := [.made "rust" .all fun _ _ _ => .ok rustTwice] } }

theorem trees_normal_and_queries_filed_rustTwice :
    rustTwice.Built ∧ rustTwice.isAll = true ∧ rustTwice.Normal ∧
    rustForAll.extractor.Composing ∧
    ∃ e, (answerAll call ({ presearch := rustForAll } : Monitor)
        [.register { id := "q", query := .all 1 }]).2.store.get? "q" = some e ∧
      ∃ field text, e.slot ∈ (answerAll call ({ presearch := rustForAll } : Monitor)
        [.register { id := "q", query := .all 1 }]).2.store.index.slotsUnder field text := by
  have hleaf : KeyTree.Built (.leaf ⟨"body", "rust", .exact⟩ (0 / 0)) :=
    .leaf (by simp only [ne_eq, reduceCtorEq, not_false_eq_true]) trivial
  have hbuilt : rustTwice.Built :=
    .conjunction (List.forall_mem_cons.mpr ⟨hleaf, List.forall_mem_singleton.mpr hleaf⟩)
  have hcomposing : rustForAll.extractor.Composing := by
    intro name kind build hrule q hkind parts hparts tree htree
    obtain ⟨-, -, rfl⟩ := TreeRule.made.inj (List.mem_singleton.mp hrule)
    exact Except.ok.inj htree ▸ hbuilt
  obtain ⟨htrees, hqueries⟩ := trees_normal_and_queries_filed
  obtain ⟨e, he⟩ := Option.isSome_iff_exists.mp (by decide +kernel :
    ((answerAll call ({ presearch := rustForAll } : Monitor)
      [.register { id := "q", query := .all 1 }]).2.store.get? "q").isSome = true)
  obtain ⟨-, -, hfiled⟩ := hqueries rustForAll {} _ hcomposing "q" e he
  exact ⟨hbuilt, by decide +kernel, (htrees rustTwice hbuilt).1, hcomposing, e, he, hfiled⟩

end Monitor

end Percolator
