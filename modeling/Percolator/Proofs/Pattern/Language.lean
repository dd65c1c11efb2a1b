import Percolator.Pattern.Matching

/-!
# The language of an expression

An expression matches the text between two places. Which places these are follows the structure of
the expression and has nothing to do with how matches are searched for: a sequence goes from place
to place, a repetition goes on for a number of times that it admits, and a condition on a place
stays where it is.

## Main definitions

* `Pattern.Between` : a text stands between two places.
* `Pattern.Times` : several steps of a relation between places.
* `Pattern.Expr.Matches` : the expression matches the text between two places.
* `Pattern.Expr.Feasible` : repetitions admit as many times as they ask for.

## Main results

* `Pattern.Expr.Matches.le`, `Pattern.Expr.Matches.le_size` : a match goes forward, in the text.
-/

namespace Percolator.Pattern

variable {text : Array Char} {i j k : Nat} {s t : List Char}

/-- The text `s` stands between two places. -/
def Between (text : Array Char) (i j : Nat) (s : List Char) : Prop :=
  text.toList.drop i = s ++ text.toList.drop j

namespace Between

theorem refl (text : Array Char) (i : Nat) : Between text i i [] := rfl

theorem trans (h : Between text i j s) (h' : Between text j k t) :
    Between text i k (s ++ t) := by
  rw [Between, List.append_assoc, ← h', ← h]

theorem of_getElem? {c : Char} (h : text[i]? = some c) : Between text i (i + 1) [c] := by
  obtain ⟨hi, hc⟩ := Array.getElem?_eq_some_iff.mp h
  have hi' : i < text.toList.length := by simpa only [Array.length_toList] using hi
  have hc' : text.toList[i] = c := by simpa only [Array.getElem_toList] using hc
  rw [Between, List.drop_eq_getElem_cons hi', hc']
  rfl

theorem of_standsAt : (s : List Char) → (i : Nat) → standsAt text i s = true →
    Between text i (i + s.length) s
  | [], i, _ => refl text i
  | c :: s, i, h => by
    simp only [standsAt, Bool.and_eq_true, beq_iff_eq] at h
    have hrest := of_standsAt s (i + 1) h.2
    rw [Nat.add_assoc, Nat.add_comm 1] at hrest
    exact (of_getElem? h.1).trans hrest

/-- There is only one text between two places. -/
theorem toList_extract (h : Between text i j s) : (text.extract i j).toList = s := by
  have hlength := congrArg List.length h
  simp only [List.length_drop, List.length_append, Array.length_toList] at hlength
  rw [Array.toList_extract, List.extract_eq_take_drop, h, List.take_append]
  by_cases hj : text.size ≤ j
  · rw [List.drop_eq_nil_of_le (by rwa [Array.length_toList]), List.take_nil, List.append_nil]
    exact List.take_of_length_le (by omega)
  · have hexact : j - i = s.length := by omega
    rw [hexact, Nat.sub_self, List.take_zero, List.append_nil, List.take_length]

end Between

theorem le_size_of_standsAt : (s : List Char) → (i : Nat) → standsAt text i s = true →
    i + s.length ≤ text.size
  | [], i, h => of_decide_eq_true h
  | c :: s, i, h => by
    simp only [standsAt, Bool.and_eq_true] at h
    have hrest := le_size_of_standsAt s (i + 1) h.2
    rw [List.length_cons]
    omega

/-! ### Several steps -/

/-- A relation leads from one place to another one in `n` steps. -/
def Times (R : Nat → Nat → Prop) : Nat → Nat → Nat → Prop
  | 0, i, j => i = j
  | n + 1, i, j => ∃ k, R i k ∧ Times R n k j

namespace Times

variable {R : Nat → Nat → Prop} {m n : Nat}

theorem add_iff : Times R (m + n) i k ↔ ∃ j, Times R m i j ∧ Times R n j k := by
  induction m generalizing i with
  | zero => simp only [Nat.zero_add, Times, exists_eq_left']
  | succ m ih =>
    simp only [Nat.succ_add, Times, ih]
    constructor
    · rintro ⟨next, hnext, j, hj, hk⟩
      exact ⟨j, ⟨next, hnext, hj⟩, hk⟩
    · rintro ⟨j, ⟨next, hnext, hj⟩, hk⟩
      exact ⟨next, hnext, j, hj, hk⟩

/-- What each step keeps is kept by several steps. -/
theorem preserves {P : Nat → Prop} (hR : ∀ i j, R i j → P i → P j) (h : Times R n i j) (hi : P i) :
    P j := by
  induction n generalizing i with
  | zero => exact h ▸ hi
  | succ n ih =>
    obtain ⟨k, hk, hrest⟩ := h
    exact ih hrest (hR i k hk hi)

theorem le (hR : ∀ i j, R i j → i ≤ j) (h : Times R n i j) : i ≤ j :=
  h.preserves (fun k l hkl hk => Nat.le_trans hk (hR k l hkl)) (Nat.le_refl i)

/-- Steps that stay where they are can be left out, so that there are no more steps than places. -/
theorem exists_le_sub (hR : ∀ i j, R i j → i ≤ j) (h : Times R n i j) :
    ∃ m ≤ j - i, Times R m i j := by
  induction n generalizing i with
  | zero => exact ⟨0, Nat.zero_le _, h⟩
  | succ n ih =>
    obtain ⟨k, hk, hrest⟩ := h
    obtain ⟨m, hm, hshort⟩ := ih hrest
    rcases Nat.eq_or_lt_of_le (hR i k hk) with rfl | hlt
    · exact ⟨m, hm, hshort⟩
    · have hle := hrest.le hR
      exact ⟨m + 1, by omega, k, hk, hshort⟩

end Times

/-! ### Matches -/

namespace Expr

mutual

/-- The expression matches the text between two places. -/
def Matches (text : Array Char) : Expr → Nat → Nat → Prop
  | .empty, i, j => i = j
  | .literal s, i, j => standsAt text i s = true ∧ j = i + s.length
  | .oneOf _ set, i, j => (∃ c, text[i]? = some c ∧ set.contains c = true) ∧ j = i + 1
  | .look place, i, j => place.holds text i = true ∧ i = j
  | .repetition least most _ body, i, j =>
    ∃ n, least ≤ n ∧ (∀ m, most = some m → n ≤ m) ∧ Times (fun i j => Matches text body i j) n i j
  | .group _ body, i, j => Matches text body i j
  | .concat parts, i, j => MatchesAll text parts i j
  | .alternation choices, i, j => MatchesAny text choices i j

/-- The expressions match the text between two places, one after the other. -/
def MatchesAll (text : Array Char) : List Expr → Nat → Nat → Prop
  | [], i, j => i = j
  | e :: rest, i, j => ∃ k, Matches text e i k ∧ MatchesAll text rest k j

/-- One of the expressions matches the text between two places. -/
def MatchesAny (text : Array Char) : List Expr → Nat → Nat → Prop
  | [], _, _ => False
  | e :: rest, i, j => Matches text e i j ∨ MatchesAny text rest i j

end

/-- The expression matches the text from its beginning to its end. -/
def MatchesText (e : Expr) (text : Array Char) : Prop := e.Matches text 0 text.size

mutual

/-- A match goes forward. -/
theorem Matches.le : (e : Expr) → {i j : Nat} → e.Matches text i j → i ≤ j
  | .empty, _, _, h => Nat.le_of_eq h
  | .literal _, _, _, h => h.2 ▸ Nat.le_add_right _ _
  | .oneOf _ _, _, _, h => h.2 ▸ Nat.le_add_right _ _
  | .look _, _, _, h => Nat.le_of_eq h.2
  | .repetition _ _ _ body, _, _, ⟨_, _, _, h⟩ => h.le fun _ _ => Matches.le body
  | .group _ body, _, _, h => Matches.le body h
  | .concat parts, _, _, h => MatchesAll.le parts h
  | .alternation choices, _, _, h => MatchesAny.le choices h

/-- Matches one after the other go forward. -/
theorem MatchesAll.le : (es : List Expr) → {i j : Nat} → MatchesAll text es i j → i ≤ j
  | [], _, _, h => Nat.le_of_eq h
  | e :: rest, _, _, ⟨_, he, hrest⟩ => Nat.le_trans (Matches.le e he) (MatchesAll.le rest hrest)

/-- A match of one of several expressions goes forward. -/
theorem MatchesAny.le : (es : List Expr) → {i j : Nat} → MatchesAny text es i j → i ≤ j
  | e :: _, _, _, .inl h => Matches.le e h
  | _ :: rest, _, _, .inr h => MatchesAny.le rest h

end

mutual

/-- A match that begins in the text ends in the text. -/
theorem Matches.le_size : (e : Expr) → {i j : Nat} → e.Matches text i j → i ≤ text.size →
    j ≤ text.size
  | .empty, _, _, h, hi => h ▸ hi
  | .literal s, i, _, h, _ => h.2 ▸ le_size_of_standsAt s i h.1
  | .oneOf _ _, _, _, h, _ => by
    obtain ⟨⟨c, hc, -⟩, rfl⟩ := h
    exact (Array.getElem?_eq_some_iff.mp hc).1
  | .look _, _, _, h, hi => h.2 ▸ hi
  | .repetition _ _ _ body, _, _, ⟨_, _, _, h⟩, hi =>
    h.preserves (P := (· ≤ text.size)) (fun _ _ => Matches.le_size body) hi
  | .group _ body, _, _, h, hi => Matches.le_size body h hi
  | .concat parts, _, _, h, hi => MatchesAll.le_size parts h hi
  | .alternation choices, _, _, h, hi => MatchesAny.le_size choices h hi

/-- Matches one after the other that begin in the text end in the text. -/
theorem MatchesAll.le_size : (es : List Expr) → {i j : Nat} → MatchesAll text es i j →
    i ≤ text.size → j ≤ text.size
  | [], _, _, h, hi => h ▸ hi
  | e :: rest, _, _, ⟨_, he, hrest⟩, hi => MatchesAll.le_size rest hrest (Matches.le_size e he hi)

/-- A match of one of several expressions that begins in the text ends in the text. -/
theorem MatchesAny.le_size : (es : List Expr) → {i j : Nat} → MatchesAny text es i j →
    i ≤ text.size → j ≤ text.size
  | e :: _, _, _, .inl h, hi => Matches.le_size e h hi
  | _ :: rest, _, _, .inr h, hi => MatchesAny.le_size rest h hi

end

mutual

/-- Every repetition admits as many times as it asks for. -/
def Feasible : Expr → Prop
  | .repetition least most _ body => (∀ m, most = some m → least ≤ m) ∧ Feasible body
  | .group _ body => Feasible body
  | .concat parts => AllFeasible parts
  | .alternation choices => AllFeasible choices
  | .empty | .literal _ | .oneOf _ _ | .look _ => True

/-- The expressions are feasible. -/
def AllFeasible : List Expr → Prop
  | [] => True
  | e :: rest => Feasible e ∧ AllFeasible rest

end

theorem allFeasible_iff {es : List Expr} : AllFeasible es ↔ ∀ e ∈ es, Feasible e := by
  induction es with
  | nil => simp only [AllFeasible, List.not_mem_nil, false_implies, implies_true]
  | cons e rest ih => simp only [AllFeasible, ih, List.forall_mem_cons]

end Expr

end Percolator.Pattern
