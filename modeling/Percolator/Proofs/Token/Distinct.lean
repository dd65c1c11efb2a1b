import Percolator.Token.Distinct

/-!
# The texts of distinct streams

A stream yields tokens of its input, and every text of a token that is not marked as removed.

## Main results

* `DistinctStream.mem_of_mem_toList` : what is yielded comes from the input and is not removed.
* `DistinctStream.sublist_toList` : it comes in the order of the input.
* `DistinctStream.exists_text_iff` : the texts that a stream yields.
* `DistinctStream.toList_filter` : tokens that are marked as removed change nothing.
-/

namespace Percolator.DistinctStream

variable {seen : Std.TreeSet String} {input rest : List Token} {t : Token} {text : String}

theorem firstNew?_eq_some (h : firstNew? seen input = some (t, rest)) :
    t.stopped = false ∧ t.text ∉ seen ∧ ∃ skipped, input = skipped ++ t :: rest ∧
      ∀ s ∈ skipped, s.stopped = true ∨ s.text ∈ seen := by
  induction input with
  | nil => simp only [firstNew?, reduceCtorEq] at h
  | cons first tail ih =>
    simp only [firstNew?] at h
    split at h
    · next hskip =>
      obtain ⟨hstopped, hseen, skipped, rfl, hskipped⟩ := ih h
      refine ⟨hstopped, hseen, first :: skipped, rfl, List.forall_mem_cons.mpr ⟨?_, hskipped⟩⟩
      simpa only [Bool.or_eq_true, Std.TreeSet.contains_iff_mem] using hskip
    · next hskip =>
      simp only [Option.some.injEq, Prod.mk.injEq] at h
      obtain ⟨rfl, rfl⟩ := h
      simp only [Bool.or_eq_true, Std.TreeSet.contains_iff_mem, not_or, Bool.not_eq_true] at hskip
      exact ⟨hskip.1, hskip.2, [], rfl, fun _ hs => absurd hs List.not_mem_nil⟩

theorem firstNew?_eq_none (h : firstNew? seen input = none) :
    ∀ s ∈ input, s.stopped = true ∨ s.text ∈ seen := by
  induction input with
  | nil => exact fun _ hs => absurd hs List.not_mem_nil
  | cons first tail ih =>
    simp only [firstNew?] at h
    split at h
    · next hskip =>
      refine List.forall_mem_cons.mpr ⟨?_, ih h⟩
      simpa only [Bool.or_eq_true, Std.TreeSet.contains_iff_mem] using hskip
    · simp only [reduceCtorEq] at h

/-- A token that is taken comes from the input and is not marked as removed. -/
theorem mem_of_mem_take {n : Nat} {s : DistinctStream} (h : t ∈ (s.take n).1) :
    t ∈ s.input ∧ t.stopped = false := by
  induction n generalizing s with
  | zero => exact absurd h List.not_mem_nil
  | succ n ih =>
    simp only [take, next] at h
    cases hfirst : firstNew? s.seen s.input with
    | none =>
      simp only [hfirst] at h
      exact absurd h List.not_mem_nil
    | some found =>
      obtain ⟨first, rest⟩ := found
      obtain ⟨hstopped, -, skipped, hinput, -⟩ := firstNew?_eq_some hfirst
      simp only [hfirst] at h
      rcases List.mem_cons.mp h with rfl | h
      · exact ⟨hinput ▸ List.mem_append_right _ List.mem_cons_self, hstopped⟩
      · obtain ⟨hmem, hstopped⟩ := ih h
        exact ⟨hinput ▸ List.mem_append_right _ (List.mem_cons_of_mem _ hmem), hstopped⟩

/-- What was skipped has no new text, so that the tokens behind the one that is yielded have all
other new texts. -/
theorem exists_text_iff_of_firstNew? {seen : Std.TreeSet String} {first : Token}
    {rest : List Token} (h : firstNew? seen input = some (first, rest)) (hunseen : text ∉ seen)
    (hne : first.text ≠ text) :
    (∃ t ∈ input, t.stopped = false ∧ t.text = text) ↔
      ∃ t ∈ rest, t.stopped = false ∧ t.text = text := by
  obtain ⟨-, -, skipped, rfl, hskipped⟩ := firstNew?_eq_some h
  constructor
  · rintro ⟨t, ht, hstopped, rfl⟩
    rcases List.mem_append.mp ht with ht | ht
    · rcases hskipped t ht with hskip | hskip
      · exact absurd hskip (Bool.eq_false_iff.mp hstopped)
      · exact absurd hskip hunseen
    · rcases List.mem_cons.mp ht with rfl | ht
      · exact absurd rfl hne
      · exact ⟨t, ht, hstopped, rfl⟩
  · rintro ⟨t, ht, h⟩
    exact ⟨t, List.mem_append_right _ (List.mem_cons_of_mem _ ht), h⟩

/-- The texts that are taken are the new ones of tokens that are not marked as removed, as long as
as many tokens may be taken as there are. -/
theorem exists_text_take_iff {n : Nat} {s : DistinctStream} (h : s.input.length ≤ n) :
    (∃ t ∈ (s.take n).1, t.text = text) ↔
      text ∉ s.seen ∧ ∃ t ∈ s.input, t.stopped = false ∧ t.text = text := by
  induction n generalizing s with
  | zero =>
    have hnil : s.input = [] := List.eq_nil_of_length_eq_zero (Nat.le_zero.mp h)
    simp only [take, hnil, List.not_mem_nil, false_and, exists_false, and_false]
  | succ n ih =>
    simp only [take, next]
    cases hfirst : firstNew? s.seen s.input with
    | none =>
      simp only [List.not_mem_nil, false_and, exists_false, false_iff]
      rintro ⟨hnew, t, ht, hstopped, rfl⟩
      rcases firstNew?_eq_none hfirst t ht with hskip | hskip
      · exact absurd hskip (Bool.eq_false_iff.mp hstopped)
      · exact hnew hskip
    | some found =>
      obtain ⟨first, rest⟩ := found
      obtain ⟨hstopped, hnew, skipped, hinput, -⟩ := firstNew?_eq_some hfirst
      have hlength : rest.length ≤ n := by
        rw [hinput, List.length_append, List.length_cons] at h
        omega
      -- The rest may not repeat the text that was yielded.
      have hrest := ih (s := ⟨rest, s.seen.insert first.text⟩) hlength
      simp only [Std.TreeSet.mem_insert, Std.LawfulEqCmp.compare_eq_iff_eq, not_or] at hrest
      simp only [List.mem_cons, or_and_right, exists_or, exists_eq_left, hrest]
      by_cases htext : first.text = text
      · refine iff_of_true (.inl htext) ⟨htext ▸ hnew, first, ?_, hstopped, htext⟩
        exact hinput ▸ List.mem_append_right _ List.mem_cons_self
      · simp only [htext, not_false_eq_true, true_and, false_or]
        exact and_congr_right fun hunseen =>
          (exists_text_iff_of_firstNew? hfirst hunseen htext).symm

theorem mem_of_mem_toList (h : t ∈ toList { input }) : t ∈ input ∧ t.stopped = false :=
  mem_of_mem_take h

/-- What is taken stands in the input in the same order. -/
theorem sublist_take (n : Nat) (s : DistinctStream) : (s.take n).1.Sublist s.input := by
  induction n generalizing s with
  | zero => exact List.nil_sublist _
  | succ n ih =>
    simp only [take, next]
    cases hfirst : firstNew? s.seen s.input with
    | none => exact List.nil_sublist _
    | some found =>
      obtain ⟨first, rest⟩ := found
      obtain ⟨-, -, skipped, hinput, -⟩ := firstNew?_eq_some hfirst
      rw [hinput]
      exact ((ih ⟨rest, s.seen.insert first.text⟩).cons_cons first).trans
        (List.sublist_append_right skipped (first :: rest))

theorem sublist_toList : (toList { input }).Sublist input :=
  sublist_take input.length { input }

/-- The texts that a stream yields are those of the tokens that are not marked as removed. -/
theorem exists_text_iff :
    (∃ t ∈ toList { input }, t.text = text) ↔ ∃ t ∈ input, t.stopped = false ∧ t.text = text := by
  have htake := @exists_text_take_iff text _ { input } (Nat.le_refl input.length)
  simp only [Std.TreeSet.not_mem_emptyc, not_false_eq_true, true_and] at htake
  exact htake

/-! ### Inputs without the tokens that are marked as removed -/

theorem firstNew?_filter : firstNew? seen (input.filter (!·.stopped)) =
    (firstNew? seen input).map fun (t, rest) => (t, rest.filter (!·.stopped)) := by
  induction input with
  | nil => rfl
  | cons first tail ih =>
    cases hstopped : first.stopped with
    | true =>
      rw [List.filter_cons_of_neg (by simp only [hstopped, Bool.not_true, Bool.false_eq_true,
        not_false_eq_true]), ih]
      simp only [firstNew?, hstopped, Bool.true_or, if_true]
    | false =>
      rw [List.filter_cons_of_pos (by simp only [hstopped, Bool.not_false])]
      simp only [firstNew?, hstopped, Bool.false_or]
      split
      · exact ih
      · rfl

theorem take_filter {n : Nat} {s : DistinctStream} :
    (take n ⟨s.input.filter (!·.stopped), s.seen⟩).1 = (s.take n).1 := by
  induction n generalizing s with
  | zero => rfl
  | succ n ih =>
    simp only [take, next, firstNew?_filter]
    cases firstNew? s.seen s.input with
    | none => rfl
    | some found =>
      obtain ⟨first, rest⟩ := found
      exact congrArg (first :: ·) (ih (s := ⟨rest, s.seen.insert first.text⟩))

/-- To take more tokens than there are is to take all of them. -/
theorem take_eq_of_le {n m : Nat} {s : DistinctStream} (h : s.input.length ≤ n) (hnm : n ≤ m) :
    (s.take m).1 = (s.take n).1 := by
  induction n generalizing m s with
  | zero =>
    have hnil : s.input = [] := List.eq_nil_of_length_eq_zero (Nat.le_zero.mp h)
    cases m with
    | zero => rfl
    | succ m => simp only [take, next, hnil, firstNew?]
  | succ n ih =>
    obtain ⟨m, rfl⟩ : ∃ k, m = k + 1 := ⟨m - 1, by omega⟩
    simp only [take, next]
    cases hfirst : firstNew? s.seen s.input with
    | none => rfl
    | some found =>
      obtain ⟨first, rest⟩ := found
      obtain ⟨-, -, skipped, hinput, -⟩ := firstNew?_eq_some hfirst
      rw [hinput, List.length_append, List.length_cons] at h
      have hlength : rest.length ≤ n := by omega
      exact congrArg (first :: ·)
        (ih (s := ⟨rest, s.seen.insert first.text⟩) hlength (Nat.le_of_succ_le_succ hnm))

/-- A stream yields the same without the tokens that are marked as removed. -/
theorem toList_filter : toList { input := input.filter (!·.stopped) } = toList { input } := by
  rw [toList, drain, ← take_eq_of_le (Nat.le_refl _) (List.length_filter_le _ input)]
  exact take_filter (s := { input })

end Percolator.DistinctStream
