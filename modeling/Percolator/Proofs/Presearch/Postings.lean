import Mathlib.Data.List.Induction
import Mathlib.Tactic.Tauto
import Percolator.Proofs.Presearch.KeyIndex

/-!
# Postings after any changes

An index changes by filing keys into slots, by emptying slots and by being cleared. Filing into a
slot that is taken replaces its keys, but nobody takes the slot off the postings of the keys that
it had: those of them that it has no longer are *left behind*. A later removal does not find them,
as it goes by the keys that are in the slot. They stay until the index is cleared, or until the slot
is given keys that have them again.

## Main definitions

* `KeyIndex.Change`, `KeyIndex.ofChanges` : the changes of an index, and what they lead to.
* `KeyIndex.Files` : a key is among those that are filed in a slot.
* `KeyIndex.LeftBehind` : a key was left behind in a slot.

## Main results

* `KeyIndex.mem_slotsUnder_ofChanges_iff` : a slot is under the keys that are filed in it and under
  those that were left behind in it.
* `KeyIndex.Absent.not_mem_search` : no search finds a slot that is empty and under no key.
* `KeyIndex.finds_filed_or_leftBehind` : what searches for a key find after any changes, and when a
  slot that was emptied is found no more.
* `KeyIndex.finds_replaced_keys` : a slot is found by a key that was replaced, also if it is empty.
-/

namespace Percolator.KeyIndex

open Std

/-! ### Changes -/

/-- A change of an index. -/
inductive Change where
  | add (slot : Nat) (keys : KeySet)
  | remove (slot : Nat)
  | clear

/-- The index behind a change. -/
def change (index : KeyIndex) : Change → KeyIndex
  | .add slot keys => index.add slot keys
  | .remove slot => index.remove slot
  | .clear => {}

/-- The index that changes lead to from the empty one. -/
def ofChanges (changes : List Change) : KeyIndex := changes.foldl change {}

/-- The key is among those that are filed in the slot. -/
def Files (index : KeyIndex) (slot : Nat) (field text : String) : Prop :=
  ∃ keys, index.keys? slot = some keys ∧ keys.contains field text = true

/-- The change takes the slot off the postings of the key, or files the key in the slot. -/
def Change.Settles (slot : Nat) (field text : String) : Change → Prop
  | .add slot' keys => slot' = slot ∧ keys.contains field text = true
  | .remove _ => False
  | .clear => True

/-- The key was left behind in the slot: keys with it were replaced there by keys without it, and
nothing has settled that since. -/
def LeftBehind (changes : List Change) (slot : Nat) (field text : String) : Prop :=
  ∃ before keys since, changes = before ++ .add slot keys :: since ∧
    (ofChanges before).Files slot field text ∧ keys.contains field text = false ∧
    ∀ c ∈ since, ¬c.Settles slot field text

variable {index : KeyIndex} {changes : List Change} {c : Change} {keys : KeySet} {slot s : Nat}
  {field text : String}

/-! ### What one change does -/

theorem ofChanges_concat : ofChanges (changes ++ [c]) = (ofChanges changes).change c :=
  List.foldl_concat _ _ _ _

theorem not_files_empty : ¬Files {} s field text := by
  rintro ⟨keys, hkeys, -⟩
  simp only [keys?, TreeMap.getElem?_emptyc, reduceCtorEq] at hkeys

theorem not_mem_slotsUnder_empty : s ∉ slotsUnder {} field text :=
  fun h => not_files_empty ((consistent_empty field text s).mp h)

theorem files_add_iff : (index.add slot keys).Files s field text ↔
    (slot = s ∧ keys.contains field text = true) ∨ (slot ≠ s ∧ index.Files s field text) := by
  rw [Files, keys?_add]
  by_cases hs : slot = s
  · simp only [hs, if_true, Option.some.injEq, exists_eq_left', true_and, ne_eq, not_true,
      false_and, or_false]
  · simp only [hs, if_false, false_and, ne_eq, not_false_eq_true, true_and, false_or, Files]

theorem files_remove_iff :
    (index.remove slot).Files s field text ↔ slot ≠ s ∧ index.Files s field text := by
  rw [Files, keys?_remove]
  by_cases hs : slot = s
  · simp only [hs, if_true, reduceCtorEq, false_and, exists_false, ne_eq, not_true]
  · simp only [hs, if_false, ne_eq, not_false_eq_true, true_and, Files]

theorem leftBehind_concat_iff : LeftBehind (changes ++ [c]) s field text ↔
    (∃ keys, c = .add s keys ∧ (ofChanges changes).Files s field text ∧
      keys.contains field text = false) ∨
    LeftBehind changes s field text ∧ ¬c.Settles s field text := by
  refine ⟨?_, ?_⟩
  · rintro ⟨before, keys, since, heq, hfiles, hkeys, hsince⟩
    rcases List.eq_nil_or_concat since with rfl | ⟨since, last, rfl⟩
    · obtain ⟨rfl, hlast⟩ := List.append_inj' heq rfl
      exact .inl ⟨keys, (List.cons.inj hlast).1, hfiles, hkeys⟩
    · rw [List.concat_eq_append, ← List.cons_append, ← List.append_assoc] at heq
      obtain ⟨rfl, hlast⟩ := List.append_inj' heq rfl
      obtain rfl := (List.cons.inj hlast).1
      rw [List.concat_eq_append, List.forall_mem_append] at hsince
      exact .inr ⟨⟨before, keys, since, rfl, hfiles, hkeys, hsince.1⟩,
        hsince.2 c List.mem_cons_self⟩
  · rintro (⟨keys, rfl, hfiles, hkeys⟩ | ⟨⟨before, keys, since, rfl, hfiles, hkeys, hsince⟩, hc⟩)
    · exact ⟨changes, keys, [], rfl, hfiles, hkeys, fun _ h => absurd h List.not_mem_nil⟩
    · refine ⟨before, keys, since ++ [c], by rw [List.append_assoc, List.cons_append], hfiles,
        hkeys, List.forall_mem_append.mpr ⟨hsince, List.forall_mem_singleton.mpr hc⟩⟩

/-! ### What changes lead to -/

/-- A key that was left behind in a slot is not among the keys that are filed there. -/
theorem LeftBehind.not_files (h : LeftBehind changes s field text) :
    ¬(ofChanges changes).Files s field text := by
  induction changes using List.reverseRecOn with
  | nil => exact not_files_empty
  | append_singleton changes c ih =>
    rw [ofChanges_concat]
    rcases leftBehind_concat_iff.mp h with ⟨keys, rfl, -, hkeys⟩ | ⟨hleft, hc⟩
    · rw [change, files_add_iff]
      rintro (⟨-, hcontains⟩ | ⟨hne, -⟩)
      · exact Bool.false_ne_true (hkeys.symm.trans hcontains)
      · exact hne rfl
    · cases c with
      | add slot keys =>
        rw [change, files_add_iff]
        exact fun h => h.elim hc fun h => ih hleft h.2
      | remove slot =>
        rw [change, files_remove_iff]
        exact fun h => ih hleft h.2
      | clear => exact absurd trivial hc

/-- A slot is under the keys that are filed in it and under those that were left behind in it. -/
theorem mem_slotsUnder_ofChanges_iff : s ∈ (ofChanges changes).slotsUnder field text ↔
    (ofChanges changes).Files s field text ∨ LeftBehind changes s field text := by
  induction changes using List.reverseRecOn with
  | nil =>
    refine iff_of_false not_mem_slotsUnder_empty (not_or_intro not_files_empty ?_)
    rintro ⟨before, keys, since, heq, -⟩
    exact List.append_ne_nil_of_right_ne_nil before (List.cons_ne_nil _ since) heq.symm
  | append_singleton changes c ih =>
    rw [ofChanges_concat, leftBehind_concat_iff]
    cases c with
    | add slot keys =>
      rw [change, mem_slotsUnder_add, files_add_iff, ih]
      simp only [Change.add.injEq, Change.Settles]
      by_cases hs : slot = s
      · cases hkeys : keys.contains field text <;> simp [hs, hkeys]
      · simp [hs, Ne.symm hs]
    | remove slot =>
      -- The removal goes by the keys in the slot, among which those left behind are not.
      have hunder : s ∈ ((ofChanges changes).remove slot).slotsUnder field text ↔
          ¬(s = slot ∧ (ofChanges changes).Files slot field text) ∧
            s ∈ (ofChanges changes).slotsUnder field text := mem_slotsUnder_remove
      have hleft : LeftBehind changes s field text → ¬(ofChanges changes).Files s field text :=
        LeftBehind.not_files
      rw [change, hunder, files_remove_iff, ih]
      simp only [reduceCtorEq, false_and, exists_false, false_or, Change.Settles, not_false_eq_true,
        and_true]
      by_cases hs : slot = s
      · subst hs
        tauto
      · simp only [hs, Ne.symm hs, false_and, not_false_eq_true, true_and, ne_eq]
    | clear =>
      simp only [change, reduceCtorEq, false_and, exists_false, Change.Settles, not_true, and_false,
        or_false]
      exact iff_of_false not_mem_slotsUnder_empty not_files_empty

/-! ### Slots that no search finds -/

/-- A computation that comes to a value has come to one at each of its steps. -/
theorem exists_of_bind_eq_ok {ε α β : Type} {first : Except ε α} {next : α → Except ε β} {b : β}
    (h : (first >>= next) = .ok b) : ∃ a, first = .ok a ∧ next a = .ok b := by
  cases first with
  | error e => exact absurd h (by simp only [bind, Except.bind, reduceCtorEq, not_false_eq_true])
  | ok a => exact ⟨a, rfl, h⟩

/-- A slot that none of the sets has is in none of them often enough. -/
theorem not_mem_inMany {required : Nat} {sets : List (List Nat)} (h : ∀ slots ∈ sets, s ∉ slots) :
    s ∉ inMany required sets := by
  intro hs
  have hflatten := TreeSet.mem_ofList.mp (TreeSet.mem_toList.mp (List.mem_filter.mp hs).1)
  obtain ⟨slots, hslots, hs⟩ := List.mem_flatten.mp (List.contains_iff_mem.mp hflatten)
  exact h slots hslots hs

/-- What a search for a boolean query finds is in all of some sets, which the clauses that must
match have selected, or enough of the optional ones. -/
theorem exists_sets_of_search_boolean {clauses : List (Occur × Query)} {minShould : Nat}
    {boost : Float32} {slots : List Nat}
    (h : index.search (.boolean clauses minShould boost) = .ok slots) (hs : s ∈ slots) :
    ∃ sets, s ∈ index.intersection sets ∧ ∀ set ∈ sets,
      (∃ musts, index.searchEach .must clauses = .ok musts ∧ set ∈ musts) ∨
      ∃ required shoulds, index.searchEach .should clauses = .ok shoulds ∧
        set = inMany required shoulds := by
  rw [search] at h
  split at h
  · obtain rfl := Except.ok.inj h
    exact absurd hs List.not_mem_nil
  · obtain ⟨musts, hmusts, h⟩ := exists_of_bind_eq_ok h
    dsimp only at h
    split at h
    · obtain ⟨shoulds, hshoulds, h⟩ := exists_of_bind_eq_ok h
      obtain ⟨mustNots, -, h⟩ := exists_of_bind_eq_ok h
      obtain rfl := Except.ok.inj h
      exact ⟨_, (List.mem_filter.mp hs).1, List.forall_mem_append.mpr
        ⟨fun set hset => .inl ⟨musts, hmusts, hset⟩,
          List.forall_mem_singleton.mpr (.inr ⟨_, shoulds, hshoulds, rfl⟩)⟩⟩
    · obtain ⟨-, -, h⟩ := exists_of_bind_eq_ok h
      obtain ⟨mustNots, -, h⟩ := exists_of_bind_eq_ok h
      obtain rfl := Except.ok.inj h
      exact ⟨_, (List.mem_filter.mp hs).1, fun set hset => .inl ⟨musts, hmusts, hset⟩⟩

/-- The slot is empty, and under no key. -/
structure Absent (index : KeyIndex) (s : Nat) : Prop where
  keys?_eq : index.keys? s = none
  not_mem_slotsUnder : ∀ field text, s ∉ index.slotsUnder field text

theorem Absent.not_mem_intersection {sets : List (List Nat)} (habsent : index.Absent s)
    (h : ∀ slots ∈ sets, s ∉ slots) : s ∉ index.intersection sets := by
  cases sets with
  | nil =>
    rw [intersection, mem_allSlots, habsent.keys?_eq]
    rintro ⟨keys, hnone⟩
    simp only [reduceCtorEq] at hnone
  | cons first rest => exact fun hs => h first List.mem_cons_self (mem_inAll.mp hs).1

mutual

/-- No search finds a slot that is absent. -/
theorem Absent.not_mem_search (habsent : index.Absent s) :
    (q : Query) → ∀ slots, index.search q = .ok slots → s ∉ slots
  | .term field text _, slots, h => by
    obtain rfl := Except.ok.inj h
    exact fun hs => habsent.not_mem_slotsUnder field text (TreeSet.mem_toList.mp hs)
  | .all _, slots, h => by
    obtain rfl := Except.ok.inj h
    have hnil : s ∉ index.intersection [] :=
      habsent.not_mem_intersection fun _ h => absurd h List.not_mem_nil
    exact hnil
  | .boolean clauses _ _, slots, h => fun hs => by
    obtain ⟨sets, hsets, heach⟩ := exists_sets_of_search_boolean h hs
    refine habsent.not_mem_intersection (fun set hset => ?_) hsets
    rcases heach set hset with ⟨musts, hmusts, hset⟩ | ⟨required, shoulds, hshoulds, rfl⟩
    · exact habsent.not_mem_searchEach .must clauses musts hmusts set hset
    · exact not_mem_inMany (habsent.not_mem_searchEach .should clauses shoulds hshoulds)
  | .phrase _ _ _ _, _, h | .interval _ _ _, _, h | .anyTerm _ _ _, _, h | .custom _, _, h => by
    simp only [search, reduceCtorEq] at h

/-- The searches for the clauses with a role do not find it either. -/
theorem Absent.not_mem_searchEach (habsent : index.Absent s) (role : Occur) :
    (clauses : List (Occur × Query)) →
      ∀ sets, index.searchEach role clauses = .ok sets → ∀ slots ∈ sets, s ∉ slots
  | [], sets, h => by
    obtain rfl := Except.ok.inj h
    exact fun _ hslots => absurd hslots List.not_mem_nil
  | (occur, q) :: rest, sets, h => by
    rw [searchEach] at h
    split at h
    · obtain ⟨slots, hq, h⟩ := exists_of_bind_eq_ok h
      obtain ⟨others, hrest, h⟩ := exists_of_bind_eq_ok h
      obtain rfl := Except.ok.inj h
      exact List.forall_mem_cons.mpr
        ⟨habsent.not_mem_search q slots hq, habsent.not_mem_searchEach role rest others hrest⟩
    · exact habsent.not_mem_searchEach role rest sets h

end

/-! ### Searches after any changes -/

/-- A key that was left behind in a slot stays there when the slot is emptied. -/
theorem leftBehind_remove_iff : LeftBehind (changes ++ [.remove slot]) s field text ↔
    LeftBehind changes s field text := by
  simp only [leftBehind_concat_iff, reduceCtorEq, false_and, exists_false, false_or,
    Change.Settles, not_false_eq_true, and_true]

/-- After any changes, a search for a key finds the slots whose keys have it, and besides them those
in which it was left behind, whose keys do not have it. A slot that is emptied is found by no search
any more if and only if no key was left behind in it. -/
theorem finds_filed_or_leftBehind (changes : List Change) :
    (∀ field text boost, ∃ slots,
      (ofChanges changes).search (.term field text boost) = .ok slots ∧ Sorted.Increasing slots ∧
      ∀ slot, slot ∈ slots ↔
        (ofChanges changes).Files slot field text ∨ LeftBehind changes slot field text) ∧
    (∀ slot field text, LeftBehind changes slot field text →
      ¬(ofChanges changes).Files slot field text) ∧
    ∀ slot, (∀ q slots, (ofChanges (changes ++ [.remove slot])).search q = .ok slots →
        slot ∉ slots) ↔
      ∀ field text, ¬LeftBehind changes slot field text := by
  have hterm : ∀ (changes : List Change) (slot : Nat) (field text : String),
      slot ∈ ((ofChanges changes).slotsUnder field text).toList ↔
        (ofChanges changes).Files slot field text ∨ LeftBehind changes slot field text :=
    fun _ _ _ _ => TreeSet.mem_toList.trans mem_slotsUnder_ofChanges_iff
  refine ⟨fun field text boost => ⟨_, rfl, TreeSet.ordered_toList, fun slot =>
    hterm changes slot field text⟩, fun _ _ _ => LeftBehind.not_files, fun slot => ⟨?_, ?_⟩⟩
  · intro h field text hleft
    exact h (.term field text 1) _ rfl ((hterm _ slot field text).mpr
      (.inr (leftBehind_remove_iff.mpr hleft)))
  · intro h
    have hkeys : (ofChanges (changes ++ [.remove slot])).keys? slot = none := by
      rw [ofChanges_concat, change, keys?_remove, if_pos rfl]
    refine Absent.not_mem_search ⟨hkeys, fun field text => ?_⟩
    rw [mem_slotsUnder_ofChanges_iff, leftBehind_remove_iff, Files, hkeys]
    rintro (⟨keys, hnone, -⟩ | hleft)
    · simp only [reduceCtorEq] at hnone
    · exact h field text hleft

/-- Keys with cats that are replaced by keys with dogs. -/
def catsReplaced : List Change :=
  [.add 1 (.ofPairs [("body", "cat")]), .add 1 (.ofPairs [("body", "dog")])]

/-- A search for cats finds a slot whose keys are about dogs, and it still does when the slot is
emptied. -/
theorem finds_replaced_keys :
    (ofChanges catsReplaced).search (.term "body" "cat" 1) = .ok [1] ∧
      ¬(ofChanges catsReplaced).Files 1 "body" "cat" ∧
      (ofChanges (catsReplaced ++ [.remove 1])).search (.term "body" "cat" 1) = .ok [1] ∧
      (ofChanges (catsReplaced ++ [.remove 1])).keys? 1 = none := by
  have hleft : LeftBehind catsReplaced 1 "body" "cat" :=
    ⟨[.add 1 (.ofPairs [("body", "cat")])], .ofPairs [("body", "dog")], [], rfl,
      ⟨_, rfl, rfl⟩, rfl, fun _ h => absurd h List.not_mem_nil⟩
  exact ⟨rfl, hleft.not_files, rfl, rfl⟩

end Percolator.KeyIndex
