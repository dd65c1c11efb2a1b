import Mathlib.Data.List.Nodup
import Mathlib.Tactic.Set
import Mathlib.Tactic.Tauto
import Percolator.Presearch.Index
import Percolator.Proofs.Sorted

/-!
# Postings and selections

The index holds the keys of its slots twice: by slot, and as the slots under each key. An index is
*consistent* when the two agree. Filing keys into a free slot and emptying a slot keep an index
consistent, and a search of a consistent index selects the slots whose keys the selection picks.

## Main definitions

* `KeyIndex.Consistent` : the two tables of an index agree.
* `Query.isSelection`, `Query.picks` : the queries that can be searched for, and the sets of keys
  that they pick.
* `KeyIndex.picked` : the slots whose keys a query picks.

## Main results

* `KeyIndex.Consistent.add`, `KeyIndex.Consistent.remove` : what the operations preserve.
* `KeyIndex.search_eq` : a search selects the slots whose keys are picked, or fails for every index.
-/

namespace Percolator

open Std

/-! ### Sets of keys -/

namespace KeySet

theorem contains_add {s : KeySet} {field text field' text' : String} :
    (s.add field text).contains field' text' = true ↔
      (field = field' ∧ text = text') ∨ s.contains field' text' = true := by
  simp only [contains, texts, add, TreeMap.getD_insert, LawfulEqCmp.compare_eq_iff_eq]
  split
  · next h =>
    subst h
    simp only [TreeSet.contains_insert, Bool.or_eq_true, beq_iff_eq,
      LawfulEqCmp.compare_eq_iff_eq, true_and]
  · next h => simp only [h, false_and, false_or]

@[simp] theorem contains_empty {field text : String} :
    (({} : KeySet).contains field text) = false := by
  simp only [contains, texts, TreeMap.getD_emptyc, TreeSet.contains_emptyc]

theorem contains_foldl_add {pairs : List (String × String)} {s : KeySet} {field text : String} :
    (pairs.foldl (fun s (p : String × String) => s.add p.1 p.2) s).contains field text = true ↔
      (field, text) ∈ pairs ∨ s.contains field text = true := by
  induction pairs generalizing s with
  | nil => simp only [List.foldl_nil, List.not_mem_nil, false_or]
  | cons p pairs ih =>
    obtain ⟨field', text'⟩ := p
    simp only [List.foldl_cons, ih, contains_add, List.mem_cons, Prod.mk.injEq]
    tauto

theorem contains_ofPairs {pairs : List (String × String)} {field text : String} :
    (ofPairs pairs).contains field text = true ↔ (field, text) ∈ pairs := by
  refine contains_foldl_add.trans ?_
  simp only [contains_empty, Bool.false_eq_true, or_false]

theorem mem_pairs {s : KeySet} {field text : String} :
    (field, text) ∈ s.pairs ↔ s.contains field text = true := by
  simp only [pairs, List.mem_flatMap, List.mem_map, Prod.mk.injEq, Prod.exists, contains, texts,
    TreeMap.mem_toList_iff_getElem?_eq_some, TreeSet.mem_toList, ← TreeSet.contains_iff_mem]
  constructor
  · rintro ⟨field', texts, hfield, text', htext, rfl, rfl⟩
    simpa only [TreeMap.getD_eq_getD_getElem?, hfield, Option.getD_some] using htext
  · intro h
    cases hfield : s.fields[field]? with
    | none =>
      simp only [TreeMap.getD_eq_getD_getElem?, hfield, Option.getD_none,
        TreeSet.contains_emptyc, Bool.false_eq_true] at h
    | some texts =>
      simp only [TreeMap.getD_eq_getD_getElem?, hfield, Option.getD_some] at h
      exact ⟨field, texts, hfield, text, h, rfl, rfl⟩

/-- No key is listed twice. -/
theorem nodup_pairs (s : KeySet) : s.pairs.Nodup := by
  refine List.nodup_flatMap.mpr ⟨fun (field, texts) _ => ?_, ?_⟩
  · have htexts : texts.toList.Nodup := TreeSet.distinct_toList.imp fun hne heq =>
      hne (LawfulEqCmp.compare_eq_iff_eq.mpr heq)
    exact htexts.map fun _ _ heq => (Prod.mk.inj heq).2
  · refine TreeMap.distinct_keys_toList.imp fun hne key hkey hkey' => ?_
    obtain ⟨_, -, rfl⟩ := List.mem_map.mp hkey
    obtain ⟨_, -, heq⟩ := List.mem_map.mp hkey'
    exact hne (LawfulEqCmp.compare_eq_iff_eq.mpr (Prod.mk.inj heq).1.symm)

end KeySet

/-! ### The slots under a key -/

namespace KeyIndex

variable {index : KeyIndex} {slot s : Nat} {field text : String} {keys : KeySet}

private theorem slotsUnder_update {f : TreeSet Nat → TreeSet Nat} {field' text' : String} :
    (index.update field text f).slotsUnder field' text' =
      if field = field' ∧ text = text' then f (index.slotsUnder field text)
      else index.slotsUnder field' text' := by
  simp only [slotsUnder, update, TreeMap.getD_insert, LawfulEqCmp.compare_eq_iff_eq]
  by_cases hfield : field = field'
  · subst hfield
    simp only [true_and, if_true, TreeMap.getD_insert, LawfulEqCmp.compare_eq_iff_eq]
  · simp only [hfield, false_and, if_false]

@[simp] private theorem slots_update {f : TreeSet Nat → TreeSet Nat} :
    (index.update field text f).slots = index.slots := rfl

private theorem slots_foldl_update {pairs : List (String × String)}
    {f : TreeSet Nat → TreeSet Nat} :
    (pairs.foldl (fun index (p : String × String) => index.update p.1 p.2 f) index).slots =
      index.slots := by
  induction pairs generalizing index with
  | nil => rfl
  | cons p pairs ih => rw [List.foldl_cons, ih, slots_update]

/-- An update that changes nothing when it is made again is made once under each of some keys. -/
private theorem mem_slotsUnder_foldl_update {f : TreeSet Nat → TreeSet Nat}
    (hf : ∀ slots, s ∈ f (f slots) ↔ s ∈ f slots) {pairs : List (String × String)} :
    s ∈ (pairs.foldl (fun index (p : String × String) =>
        index.update p.1 p.2 f) index).slotsUnder field text ↔
      s ∈ if (field, text) ∈ pairs then f (index.slotsUnder field text)
        else index.slotsUnder field text := by
  induction pairs generalizing index with
  | nil => rw [List.foldl_nil, if_neg List.not_mem_nil]
  | cons p pairs ih =>
    obtain ⟨field', text'⟩ := p
    rw [List.foldl_cons, ih, slotsUnder_update]
    by_cases hkey : field' = field ∧ text' = text
    · obtain ⟨rfl, rfl⟩ := hkey
      simp only [and_self, if_true, List.mem_cons, true_or]
      split
      · exact hf _
      · exact Iff.rfl
    · have hne : (field, text) ≠ (field', text') := fun heq =>
        hkey ⟨(Prod.mk.inj heq).1.symm, (Prod.mk.inj heq).2.symm⟩
      simp only [if_neg hkey, List.mem_cons, hne, false_or]

theorem mem_slotsUnder_add :
    s ∈ (index.add slot keys).slotsUnder field text ↔
      (s = slot ∧ keys.contains field text = true) ∨ s ∈ index.slotsUnder field text := by
  rw [← KeySet.mem_pairs]
  refine (mem_slotsUnder_foldl_update fun slots => ?_).trans ?_
  · simp only [TreeSet.mem_insert, or_self_left]
  · split
    · next hmem => simp only [hmem, and_true, TreeSet.mem_insert, LawfulEqCmp.compare_eq_iff_eq,
        @eq_comm _ slot]
    · next hmem => simp only [hmem, and_false, false_or]

theorem keys?_add :
    (index.add slot keys).keys? s = if slot = s then some keys else index.keys? s := by
  simp only [keys?, add, slots_foldl_update, TreeMap.getElem?_insert,
    LawfulEqCmp.compare_eq_iff_eq]

theorem mem_slotsUnder_remove :
    s ∈ (index.remove slot).slotsUnder field text ↔
      ¬(s = slot ∧ ∃ keys, index.keys? slot = some keys ∧ keys.contains field text = true) ∧
        s ∈ index.slotsUnder field text := by
  simp only [remove, keys?]
  cases h : index.slots[slot]? with
  | none => simp only [reduceCtorEq, false_and, exists_false, and_false, not_false_eq_true,
      true_and]
  | some keys =>
    simp only [Option.some.injEq, exists_eq_left', ← KeySet.mem_pairs]
    refine (mem_slotsUnder_foldl_update fun slots => ?_).trans ?_
    · simp only [TreeSet.mem_erase, and_self_left]
    · split
      · next hmem => simp only [hmem, and_true, TreeSet.mem_erase, ne_eq,
          LawfulEqCmp.compare_eq_iff_eq, @eq_comm _ slot]
      · next hmem => simp only [hmem, and_false, not_false_eq_true, true_and]

theorem keys?_remove : (index.remove slot).keys? s = if slot = s then none else index.keys? s := by
  simp only [remove, keys?]
  cases h : index.slots[slot]? with
  | none =>
    by_cases hs : slot = s
    · rw [if_pos hs, ← hs]
      exact h
    · rw [if_neg hs]
  | some keys =>
    simp only [slots_foldl_update, TreeMap.getElem?_erase, LawfulEqCmp.compare_eq_iff_eq]

/-! ### Consistent indexes -/

/-- A slot is under the keys that are filed in it, and under no others. -/
def Consistent (index : KeyIndex) : Prop :=
  ∀ field text s, s ∈ index.slotsUnder field text ↔
    ∃ keys, index.keys? s = some keys ∧ keys.contains field text = true

theorem consistent_empty : Consistent {} := by
  intro field text s
  simp only [slotsUnder, keys?, TreeMap.getD_emptyc, TreeSet.not_mem_emptyc,
    TreeMap.getElem?_emptyc, reduceCtorEq, false_and, exists_false]

/-- Filing keys into a free slot keeps the two tables in step. -/
theorem Consistent.add (h : Consistent index) (hfree : index.keys? slot = none) :
    Consistent (index.add slot keys) := by
  intro field text s
  rw [mem_slotsUnder_add, keys?_add, h]
  split
  · next hs =>
    subst hs
    simp only [true_and, hfree, reduceCtorEq, false_and, exists_false, or_false,
      Option.some.injEq, exists_eq_left']
  · next hs => simp only [Ne.symm hs, false_and, false_or]

/-- Emptying a slot keeps the two tables in step. -/
theorem Consistent.remove (h : Consistent index) : Consistent (index.remove slot) := by
  intro field text s
  rw [mem_slotsUnder_remove, keys?_remove, ← h]
  split
  · next hs =>
    subst hs
    simp only [true_and, reduceCtorEq, false_and, exists_false, iff_false, not_and, imp_self]
  · next hs =>
    simp only [Ne.symm hs, false_and, not_false_eq_true, true_and]
    exact h field text s

end KeyIndex

/-! ### Selections -/

namespace Query

mutual

/-- The index can be searched for the query. -/
def isSelection : Query → Bool
  | .term _ _ _ => true
  | .all _ => true
  | .boolean clauses _ _ => allSelections clauses
  | _ => false

/-- The index can be searched for every clause. -/
def allSelections : List (Occur × Query) → Bool
  | [] => true
  | (_, q) :: rest => isSelection q && allSelections rest

end

mutual

/-- The selection picks a set of keys. -/
def picks (keys : KeySet) : Query → Bool
  | .term field text _ => keys.contains field text
  | .all _ => true
  | .boolean clauses minShould _ =>
    !clauses.isEmpty && countPicks keys .must clauses == countOf .must clauses &&
      requiredShould clauses minShould ≤ countPicks keys .should clauses &&
      countPicks keys .mustNot clauses == 0
  | _ => false

/-- How many of the clauses with a role pick a set of keys. -/
def countPicks (keys : KeySet) (role : Occur) : List (Occur × Query) → Nat
  | [] => 0
  | (occur, q) :: rest =>
    if occur = role ∧ picks keys q = true then countPicks keys role rest + 1
    else countPicks keys role rest

end

end Query

namespace KeyIndex

variable {index : KeyIndex} {s : Nat}

theorem mem_allSlots : s ∈ index.allSlots ↔ ∃ keys, index.keys? s = some keys := by
  rw [allSlots, TreeMap.mem_keys, TreeMap.mem_iff_isSome_getElem?, Option.isSome_iff_exists]
  rfl

theorem mem_inAll {slots : List Nat} {sets : List (List Nat)} :
    s ∈ inAll slots sets ↔ s ∈ slots ∧ ∀ slots ∈ sets, s ∈ slots := by
  simp only [inAll, List.mem_filter, List.all_eq_true, List.contains_iff_mem]

theorem mem_inMany {required : Nat} {sets : List (List Nat)} (h : 0 < required) :
    s ∈ inMany required sets ↔ required ≤ (sets.filter (·.contains s)).length := by
  simp only [inMany, List.mem_filter, TreeSet.mem_toList, TreeSet.mem_ofList,
    List.contains_iff_mem, List.mem_flatten, decide_eq_true_eq, and_iff_right_iff_imp]
  intro hle
  obtain ⟨slots, hset⟩ := List.exists_mem_of_length_pos (Nat.lt_of_lt_of_le h hle)
  exact ⟨slots, (List.mem_filter.mp hset).1, List.contains_iff_mem.mp (List.mem_filter.mp hset).2⟩

/-- The slots that are in all of the sets, and all slots of the index where there are no sets. -/
def intersection (index : KeyIndex) : List (List Nat) → List Nat
  | [] => index.allSlots
  | first :: rest => inAll first rest

theorem mem_intersection {sets : List (List Nat)}
    (hsets : ∀ slots ∈ sets, s ∈ slots → s ∈ index.allSlots) :
    s ∈ index.intersection sets ↔ s ∈ index.allSlots ∧ ∀ slots ∈ sets, s ∈ slots := by
  cases sets with
  | nil => simp only [intersection, List.not_mem_nil, false_implies, implies_true, and_true]
  | cons first rest =>
    simp only [intersection, mem_inAll, List.forall_mem_cons]
    constructor
    · rintro ⟨hfirst, hrest⟩
      exact ⟨hsets first List.mem_cons_self hfirst, hfirst, hrest⟩
    · rintro ⟨-, h⟩
      exact h

/-- The slots whose keys a query picks, in order. -/
def picked (index : KeyIndex) (q : Query) : List Nat :=
  index.allSlots.filter fun slot => (index.keys? slot).any (Query.picks · q)

/-- The slots that each clause with a role picks. -/
def pickedEach (index : KeyIndex) (role : Occur) (clauses : List (Occur × Query)) :
    List (List Nat) :=
  (clauses.filter (·.1 = role)).map fun clause => index.picked clause.2

theorem mem_picked {q : Query} :
    s ∈ index.picked q ↔ ∃ keys, index.keys? s = some keys ∧ q.picks keys = true := by
  rw [picked, List.mem_filter, mem_allSlots]
  cases index.keys? s with
  | none => simp only [reduceCtorEq, exists_false, false_and]
  | some keys => simp only [Option.some.injEq, exists_eq', true_and, Option.any_some,
      exists_eq_left']

theorem increasing_picked {q : Query} : Sorted.Increasing (index.picked q) :=
  index.slots.ordered_keys.filter _

/-- Slots in order are those that a query picks if they have the same members. -/
private theorem eq_picked {q : Query} {slots : List Nat} (hslots : Sorted.Increasing slots)
    (h : ∀ s, s ∈ slots ↔ ∃ keys, index.keys? s = some keys ∧ q.picks keys = true) :
    slots = index.picked q :=
  hslots.ext increasing_picked fun s => (h s).trans mem_picked.symm

section Clauses

variable {role : Occur} {clauses : List (Occur × Query)} {keys : KeySet} {required : Nat}

private theorem present_pickedEach {slots : List Nat}
    (hslots : slots ∈ index.pickedEach role clauses) (hs : s ∈ slots) : s ∈ index.allSlots := by
  obtain ⟨clause, -, rfl⟩ := List.mem_map.mp hslots
  exact List.mem_of_mem_filter hs

/-- A slot is in as many of the sets as there are clauses that pick its keys. -/
private theorem count_pickedEach (hkeys : index.keys? s = some keys) :
    ((index.pickedEach role clauses).filter (·.contains s)).length =
      Query.countPicks keys role clauses := by
  induction clauses with
  | nil => rfl
  | cons clause rest ih =>
    obtain ⟨occur, q⟩ := clause
    have hs : (index.picked q).contains s = q.picks keys := by
      rw [Bool.eq_iff_iff, List.contains_iff_mem, mem_picked]
      simp only [hkeys, Option.some.injEq, exists_eq_left']
    rw [pickedEach] at ih ⊢
    by_cases hrole : occur = role
    · simp only [List.filter_cons, hrole, decide_true, if_true, List.map_cons, hs,
        Query.countPicks, true_and]
      split
      · rw [List.length_cons, ih]
      · exact ih
    · simp only [List.filter_cons, hrole, decide_false, Bool.false_eq_true, if_false,
        Query.countPicks, false_and]
      exact ih

/-- A slot is in all of the sets if all of the clauses pick its keys. -/
private theorem forall_mem_pickedEach_iff (hkeys : index.keys? s = some keys) :
    (∀ slots ∈ index.pickedEach role clauses, s ∈ slots) ↔
      Query.countPicks keys role clauses = Query.countOf role clauses := by
  have hlength : (index.pickedEach role clauses).length = Query.countOf role clauses :=
    List.length_map _
  rw [← count_pickedEach hkeys, ← hlength, List.length_filter_eq_length_iff]
  simp only [List.contains_iff_mem]

/-- A slot is in some of the sets if some clause picks its keys. -/
private theorem any_pickedEach_iff (hkeys : index.keys? s = some keys) :
    (index.pickedEach role clauses).any (·.contains s) = false ↔
      Query.countPicks keys role clauses = 0 := by
  rw [← count_pickedEach hkeys, List.length_eq_zero_iff, List.filter_eq_nil_iff, List.any_eq_false]

/-- The sets that the slots of a boolean selection are in: those of the clauses that must match, and
the slots that enough of the optional clauses select. -/
def needed (index : KeyIndex) (required : Nat) (clauses : List (Occur × Query)) :
    List (List Nat) :=
  if required > 0 then
    index.pickedEach .must clauses ++ [inMany required (index.pickedEach .should clauses)]
  else index.pickedEach .must clauses

private theorem increasing_needed {slots : List Nat}
    (hslots : slots ∈ index.needed required clauses) : Sorted.Increasing slots := by
  have hmust : slots ∈ index.pickedEach .must clauses → Sorted.Increasing slots := by
    intro hslots
    obtain ⟨clause, -, rfl⟩ := List.mem_map.mp hslots
    exact increasing_picked
  rw [needed] at hslots
  split at hslots
  · rcases List.mem_append.mp hslots with hslots | hslots
    · exact hmust hslots
    · rw [List.mem_singleton.mp hslots]
      exact TreeSet.ordered_toList.filter _
  · exact hmust hslots

/-- Only slots that are taken are needed. -/
private theorem present_needed {slots : List Nat} (hslots : slots ∈ index.needed required clauses)
    (hs : s ∈ slots) : s ∈ index.allSlots := by
  rw [needed] at hslots
  split at hslots
  · next hpos =>
    rcases List.mem_append.mp hslots with hslots | hslots
    · exact present_pickedEach hslots hs
    · rw [List.mem_singleton.mp hslots, mem_inMany hpos] at hs
      obtain ⟨slots', hslots'⟩ := List.exists_mem_of_length_pos (Nat.lt_of_lt_of_le hpos hs)
      obtain ⟨hmem, hcontains⟩ := List.mem_filter.mp hslots'
      exact present_pickedEach hmem (List.contains_iff_mem.mp hcontains)
  · exact present_pickedEach hslots hs

/-- A slot is in all sets that are needed if all clauses that must match and enough of the optional
ones pick its keys. -/
private theorem forall_mem_needed_iff (hkeys : index.keys? s = some keys) :
    (∀ slots ∈ index.needed required clauses, s ∈ slots) ↔
      Query.countPicks keys .must clauses = Query.countOf .must clauses ∧
        required ≤ Query.countPicks keys .should clauses := by
  rw [← forall_mem_pickedEach_iff hkeys, ← count_pickedEach hkeys, needed]
  split
  · next hpos => simp only [List.forall_mem_append, List.forall_mem_singleton, mem_inMany hpos]
  · next hpos => simp only [Nat.eq_zero_of_not_pos hpos, Nat.zero_le, and_true]

/-- A boolean selection picks the slots that its clauses pick together. -/
private theorem filter_intersection (hempty : clauses.isEmpty = false) (minShould : Nat)
    (boost : Float32) :
    (index.intersection (index.needed (Query.requiredShould clauses minShould) clauses)).filter
        (fun slot => !(index.pickedEach .mustNot clauses).any (·.contains slot)) =
      index.picked (.boolean clauses minShould boost) := by
  refine eq_picked (List.Pairwise.filter _ ?_) fun s => ?_
  · cases hsets : index.needed (Query.requiredShould clauses minShould) clauses with
    | nil => exact index.slots.ordered_keys
    | cons first rest =>
      have hfirst : first ∈ index.needed (Query.requiredShould clauses minShould) clauses :=
        hsets ▸ List.mem_cons_self
      exact (increasing_needed hfirst).filter _
  · rw [List.mem_filter, mem_intersection fun _ hslots => present_needed hslots, mem_allSlots,
      Bool.not_eq_true']
    constructor
    · rintro ⟨⟨⟨keys, hkeys⟩, hin⟩, hout⟩
      obtain ⟨hmust, hshould⟩ := (forall_mem_needed_iff hkeys).mp hin
      have hnone := (any_pickedEach_iff hkeys).mp hout
      refine ⟨keys, hkeys, ?_⟩
      simp only [Query.picks, hempty, hmust, hshould, hnone, Bool.not_false, beq_self_eq_true,
        Bool.and_self, decide_true]
    · rintro ⟨keys, hkeys, hpicks⟩
      simp only [Query.picks, Bool.and_eq_true, beq_iff_eq, decide_eq_true_eq] at hpicks
      obtain ⟨⟨⟨-, hmust⟩, hshould⟩, hnone⟩ := hpicks
      have hin := (forall_mem_needed_iff hkeys).mpr ⟨hmust, hshould⟩
      exact ⟨⟨⟨keys, hkeys⟩, hin⟩, (any_pickedEach_iff hkeys).mpr hnone⟩

end Clauses

/-- What a search for a boolean query comes to, from what the searches for its clauses come to. -/
private theorem search_boolean {clauses : List (Occur × Query)} (minShould : Nat) (boost : Float32)
    (heach : ∀ role, ∃ checked : Except Error Unit,
      (Query.allSelections clauses = true → checked = .ok ()) ∧ ∀ index : KeyIndex,
        index.Consistent → index.searchEach role clauses =
          checked.map fun _ => index.pickedEach role clauses) :
    ∃ checked : Except Error Unit, (Query.allSelections clauses = true → checked = .ok ()) ∧
      ∀ index : KeyIndex, index.Consistent → index.search (.boolean clauses minShould boost) =
        checked.map fun _ => index.picked (.boolean clauses minShould boost) := by
  obtain ⟨musts, hmusts, fmusts⟩ := heach .must
  obtain ⟨shoulds, hshoulds, fshoulds⟩ := heach .should
  obtain ⟨mustNots, hmustNots, fmustNots⟩ := heach .mustNot
  cases hempty : clauses.isEmpty with
  | true =>
    refine ⟨.ok (), fun _ => rfl, fun index _ => ?_⟩
    have hnone : index.picked (.boolean clauses minShould boost) = [] := by
      refine List.eq_nil_iff_forall_not_mem.mpr fun s hs => ?_
      obtain ⟨keys, -, hpicks⟩ := mem_picked.mp hs
      simp only [Query.picks, hempty, Bool.not_true, Bool.false_and, Bool.false_eq_true] at hpicks
    simp only [search, hempty, if_true, hnone, Except.map]
  | false =>
    refine ⟨do
      musts
      if Query.requiredShould clauses minShould > 0 then shoulds else .ok ()
      mustNots, fun hq => ?_, fun index hindex => ?_⟩
    · simp only [hmusts hq, hshoulds hq, hmustNots hq, ite_self]
      rfl
    · rw [← filter_intersection hempty]
      simp only [search, hempty, fmusts index hindex, fshoulds index hindex,
        fmustNots index hindex, needed]
      cases musts with
      | error error => rfl
      | ok =>
        by_cases hpos : Query.requiredShould clauses minShould > 0
        · simp only [if_pos hpos]
          cases shoulds <;> cases mustNots <;> rfl
        · simp only [if_neg hpos]
          cases mustNots <;> rfl

mutual

/-- Whether a search fails, and how, is up to the query. A search of a consistent index that does
not fail comes to the slots whose keys the query picks. -/
theorem search_eq : (q : Query) → ∃ checked : Except Error Unit,
    (q.isSelection = true → checked = .ok ()) ∧ ∀ index : KeyIndex, index.Consistent →
      index.search q = checked.map fun _ => index.picked q
  | .term field text boost => ⟨.ok (), fun _ => rfl, fun index hindex =>
      congrArg Except.ok <| eq_picked TreeSet.ordered_toList fun s =>
        TreeSet.mem_toList.trans (hindex field text s)⟩
  | .all boost => ⟨.ok (), fun _ => rfl, fun index _ =>
      congrArg Except.ok <| eq_picked index.slots.ordered_keys fun s => by
        simp only [← mem_allSlots, Query.picks, and_true, allSlots]⟩
  | .boolean clauses minShould boost => search_boolean minShould boost fun role =>
      searchEach_eq role clauses
  | .phrase _ _ _ _ | .interval _ _ _ | .anyTerm _ _ _ | .custom _ =>
      ⟨.error _, fun hq => by simp only [Query.isSelection, Bool.false_eq_true] at hq,
        fun _ _ => rfl⟩

/-- The searches for the clauses with a role. -/
private theorem searchEach_eq (role : Occur) : (clauses : List (Occur × Query)) →
    ∃ checked : Except Error Unit, (Query.allSelections clauses = true → checked = .ok ()) ∧
      ∀ index : KeyIndex, index.Consistent → index.searchEach role clauses =
        checked.map fun _ => index.pickedEach role clauses
  | [] => ⟨.ok (), fun _ => rfl, fun _ _ => rfl⟩
  | (occur, q) :: rest => by
    obtain ⟨first, hfirst, ffirst⟩ := search_eq q
    obtain ⟨others, hothers, fothers⟩ := searchEach_eq role rest
    simp only [Query.allSelections, Bool.and_eq_true]
    by_cases hrole : occur = role
    · refine ⟨first.bind fun _ => others, fun hq => ?_, fun index hindex => ?_⟩
      · rw [hfirst hq.1, hothers hq.2]
        rfl
      · simp only [searchEach, ffirst index hindex, fothers index hindex, pickedEach,
          List.filter_cons, hrole, decide_true, if_true, List.map_cons]
        cases first <;> cases others <;> rfl
    · refine ⟨others, fun hq => hothers hq.2, fun index hindex => ?_⟩
      simp only [searchEach, fothers index hindex, pickedEach, List.filter_cons, hrole,
        decide_false, Bool.false_eq_true, if_false]

end

/-- Searching a consistent index for a selection gives the slots whose keys the selection picks. -/
theorem search_spec (h : Consistent index) (q : Query) (hq : q.isSelection = true) :
    index.search q = .ok (index.picked q) := by
  obtain ⟨checked, hchecked, hsearch⟩ := search_eq q
  rw [hsearch index h, hchecked hq]
  rfl

end KeyIndex

end Percolator
