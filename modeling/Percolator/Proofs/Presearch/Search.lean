import Percolator.Proofs.Presearch.Extraction
import Percolator.Proofs.Presearch.KeyIndex

/-!
# Searching is evaluating

The keys of a slot can be listed in a document, with one token for each of them. A search goes
through sets of slots and counts in how many sets a slot is, an evaluation goes through the clauses
of a query for one document and stops where the result is known: both find the same slots.

## Main definitions

* `DocumentIndex.Lists`, `KeySet.listed` : documents that list a set of keys.
* `KeyIndex.Reachable` : the indexes that filing into free slots and emptying lead to.

## Main results

* `Query.holds_eq_picks` : a selection matches a document that lists a set of keys if it picks them.
* `KeyIndex.Reachable.search_finds_holding` : a search finds the slots whose keys, listed in a
  document, match the selection.
-/

namespace Percolator

open Std

/-! ### Documents that list keys -/

/-- The document has one token for each key of the set, and no other tokens. -/
def DocumentIndex.Lists (d : DocumentIndex) (keys : KeySet) : Prop :=
  ∀ field, ((d.field field).tokens.map (·.text)).Perm (keys.texts field).toList

/-- The document that lists the texts of each field in order. -/
def KeySet.listed (keys : KeySet) : DocumentIndex :=
  ⟨keys.fields.map fun _ texts =>
    ⟨texts.toList.zipIdx.map fun (text, position) => { text, position }⟩⟩

theorem KeySet.lists_listed (keys : KeySet) : keys.listed.Lists keys := by
  intro field
  simp only [DocumentIndex.field, listed, TreeMap.getD_map]
  rw [texts, TreeMap.getD_eq_getD_getElem?]
  cases keys.fields[field]? with
  | none => rfl
  | some texts =>
    simp only [Option.map_some, Option.getD_some, List.map_map]
    exact .of_eq (List.zipIdx_map_fst 0 texts.toList)

namespace Query

variable {d : DocumentIndex} {keys : KeySet} {clauses : List (Occur × Query)} {role : Occur}

theorem holds_term_eq (hd : d.Lists keys) {field text : String} {boost : Float32} :
    (Query.term field text boost).holds d = .ok (keys.contains field text) := by
  have hmem : (d.field field).occurrences text ≠ [] ↔ keys.contains field text = true := by
    rw [FieldIndex.occurrences_ne_nil_iff, ← List.mem_map, (hd field).mem_iff, TreeSet.mem_toList,
      ← TreeSet.contains_iff_mem]
    rfl
  rw [holds, Except.ok.injEq, Bool.eq_iff_iff, ← hmem, Bool.not_eq_true', List.isEmpty_eq_false_iff]

theorem countPicks_eq : countPicks keys role clauses = countWhere (picks keys) role clauses := by
  induction clauses with
  | nil => rfl
  | cons clause rest ih =>
    obtain ⟨occur, q⟩ := clause
    rw [countPicks, countWhere, ih]

/-- A boolean selection picks the keys if its clauses do as their roles say. -/
theorem picks_boolean_eq {minShould : Nat} {boost : Float32} :
    (Query.boolean clauses minShould boost).picks keys =
      satisfied (picks keys) clauses minShould := by
  simp only [picks, countPicks_eq, satisfied]

mutual

/-- A selection matches a document that lists a set of keys if and only if it picks the keys. -/
theorem holds_eq_picks (hd : d.Lists keys) :
    (q : Query) → q.isSelection = true → q.holds d = .ok (q.picks keys)
  | .term _ _ _, _ => holds_term_eq hd
  | .all _, _ => rfl
  | .boolean clauses _ _, hq => by
    rw [holds_boolean_eq (forall_holds_eq_picks hd clauses hq), picks_boolean_eq]

/-- Each of the clauses matches if and only if it picks the keys. -/
theorem forall_holds_eq_picks (hd : d.Lists keys) :
    (clauses : List (Occur × Query)) → allSelections clauses = true →
      ∀ clause ∈ clauses, clause.2.holds d = .ok (clause.2.picks keys)
  | [], _ => fun _ hclause => absurd hclause List.not_mem_nil
  | (_, q) :: rest, hclauses => by
    obtain ⟨hq, hrest⟩ := Bool.and_eq_true_iff.mp hclauses
    exact List.forall_mem_cons.mpr ⟨holds_eq_picks hd q hq, forall_holds_eq_picks hd rest hrest⟩

end

end Query

/-! ### Searches -/

namespace KeyIndex

/-- The index comes about by filing keys into free slots, by emptying slots and by emptying the
whole index. -/
inductive Reachable : KeyIndex → Prop
  | start : Reachable {}
  | add {index slot} (h : Reachable index) (hfree : index.keys? slot = none) (keys : KeySet) :
    Reachable (index.add slot keys)
  | remove {index} (h : Reachable index) (slot : Nat) : Reachable (index.remove slot)
  | clear {index} (h : Reachable index) : Reachable {}

variable {index : KeyIndex}

theorem Reachable.consistent (h : index.Reachable) : index.Consistent := by
  induction h with
  | start => exact consistent_empty
  | add _ hfree keys ih => exact ih.add hfree
  | remove _ slot ih => exact ih.remove
  | clear => exact consistent_empty

/-- A search for a selection goes well, and finds the slots for which the selection matches a
document that has one token for each key of the slot. -/
theorem Reachable.search_finds_holding (h : index.Reachable) {q : Query}
    (hq : q.isSelection = true) {shown : Nat → DocumentIndex}
    (hshown : ∀ slot keys, index.keys? slot = some keys → (shown slot).Lists keys) :
    ∃ slots, index.search q = .ok slots ∧ Sorted.Increasing slots ∧
      ∀ slot, slot ∈ slots ↔ slot ∈ index.allSlots ∧ q.holds (shown slot) = .ok true := by
  refine ⟨_, search_spec h.consistent q hq, increasing_picked, fun slot => ?_⟩
  rw [mem_picked, mem_allSlots]
  constructor
  · rintro ⟨keys, hkeys, hpicks⟩
    exact ⟨⟨keys, hkeys⟩, by rw [Query.holds_eq_picks (hshown slot keys hkeys) q hq, hpicks]⟩
  · rintro ⟨⟨keys, hkeys⟩, hholds⟩
    rw [Query.holds_eq_picks (hshown slot keys hkeys) q hq] at hholds
    exact ⟨keys, hkeys, Except.ok.inj hholds⟩

/-- Three slots, one of which was emptied and filled again. -/
def catsAndDogs : KeyIndex :=
  (((({} : KeyIndex).add 1 (.ofPairs [("body", "cat"), ("language", "en")])).add 2
    (.ofPairs [("body", "cow")])).remove 2).add 2 (.ofPairs [("body", "cat"), ("body", "dog")])

/-- Cats or dogs, or both of them, but not in English. -/
def notInEnglish : Query :=
  .boolean [
    (.must, .boolean [(.should, .term "body" "cat" 1), (.should, .term "body" "dog" 1)] 0 1),
    (.mustNot, .boolean [(.must, .all 1), (.must, .term "language" "en" 1)] 0 1)] 0 1

/-- A search of the slots for cats or dogs finds those whose keys match the query. -/
theorem search_finds_holding_catsAndDogs : catsAndDogs.Reachable ∧
    notInEnglish.isSelection = true ∧
    (∀ slot keys, catsAndDogs.keys? slot = some keys →
      ((catsAndDogs.keys? slot).elim {} KeySet.listed).Lists keys) ∧
    ∃ slots, catsAndDogs.search notInEnglish = .ok slots ∧ Sorted.Increasing slots ∧
      ∀ slot, slot ∈ slots ↔ slot ∈ catsAndDogs.allSlots ∧
        notInEnglish.holds ((catsAndDogs.keys? slot).elim {} KeySet.listed) = .ok true := by
  have hreachable : catsAndDogs.Reachable :=
    .add (.remove (.add (.add .start rfl _) rfl _) 2) rfl _
  have hshown : ∀ slot keys, catsAndDogs.keys? slot = some keys →
      ((catsAndDogs.keys? slot).elim {} KeySet.listed).Lists keys :=
    fun slot keys hkeys => hkeys ▸ keys.lists_listed
  exact ⟨hreachable, rfl, hshown, hreachable.search_finds_holding rfl hshown⟩

example : catsAndDogs.search notInEnglish = .ok [2] := rfl

end KeyIndex

end Percolator
