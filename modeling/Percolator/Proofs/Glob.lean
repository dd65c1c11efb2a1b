import Mathlib.Data.List.Infix
import Percolator.Glob

/-!
# What globs match

A glob matches a term if the term falls into pieces, one for each element, that the elements read.
The marks by which `Glob.contains` decides this stand at the places behind pieces.

## Main definitions

* `GlobItem.Reads`, `Glob.Splits` : an element reads a piece; a text falls into pieces for elements.

## Main results

* `Glob.contains_iff_splits` : the marks decide whether the term falls into pieces.
* `Glob.isInfix_longestLiteral` : a term that a glob matches contains its longest literal.
-/

namespace Percolator

/-- The element stands for the piece of text. -/
def GlobItem.Reads : GlobItem → List Char → Prop
  | .char c, piece => piece = [c]
  | .one, piece => ∃ c, piece = [c] ∧ Glob.isWild c = true
  | .many, piece => ∀ c ∈ piece, Glob.isWild c = true

namespace Glob

/-- The text falls into pieces, one for each element. -/
inductive Splits : List GlobItem → List Char → Prop
  | nil : Splits [] []
  | cons {item items piece rest} (hpiece : GlobItem.Reads item piece) (hrest : Splits items rest) :
      Splits (item :: items) (piece ++ rest)

theorem splits_cons_iff {item : GlobItem} {items : List GlobItem} {text : List Char} :
    Splits (item :: items) text ↔
      ∃ piece rest, text = piece ++ rest ∧ item.Reads piece ∧ Splits items rest := by
  constructor
  · intro h
    cases h with
    | cons hpiece hrest => exact ⟨_, _, rfl, hpiece, hrest⟩
  · rintro ⟨piece, rest, rfl, hpiece, hrest⟩
    exact .cons hpiece hrest

theorem splits_char_iff {c : Char} {items : List GlobItem} {text : List Char} :
    Splits (.char c :: items) text ↔ ∃ rest, text = c :: rest ∧ Splits items rest := by
  rw [splits_cons_iff]
  constructor
  · rintro ⟨piece, rest, rfl, rfl, hrest⟩
    exact ⟨rest, rfl, hrest⟩
  · rintro ⟨rest, rfl, hrest⟩
    exact ⟨[c], rest, rfl, rfl, hrest⟩

/-- A character is no backslash if neither the end of the text nor a character behind it makes it a
lone backslash or an escape. -/
theorem ne_backslash {c : Char} {rest : List Char} (hlone : c = '\\' → rest = [] → False)
    (hescape : ∀ d rest', c = '\\' → rest = d :: rest' → False) : c ≠ '\\' := by
  intro hc
  cases rest with
  | nil => exact hlone hc rfl
  | cons d rest => exact hescape d rest hc rfl

/-! ### Marks -/

section Marks

variable {text : List Char} {marks : List Bool} {p : Char → Bool} {j : Nat}

/-- A place is marked. -/
def Marked (marks : List Bool) (j : Nat) : Prop := marks[j]? = some true

/-- A piece from one place to another place that is in the text. -/
structure Piece (text : List Char) (i j : Nat) (piece : List Char) : Prop where
  drop_eq : text.drop i = piece ++ text.drop j
  length_eq : i + piece.length = j

theorem Piece.refl (text : List Char) (i : Nat) : Piece text i i [] := ⟨rfl, rfl⟩

theorem Piece.trans {i k : Nat} {piece rest : List Char} (h : Piece text i j piece)
    (h' : Piece text j k rest) : Piece text i k (piece ++ rest) where
  drop_eq := by rw [List.append_assoc, ← h'.drop_eq, ← h.drop_eq]
  length_eq := by rw [List.length_append, ← Nat.add_assoc, h.length_eq, h'.length_eq]

theorem Piece.split {i : Nat} {piece rest : List Char} (h : Piece text i j (piece ++ rest)) :
    ∃ k, Piece text i k piece ∧ Piece text k j rest := by
  have hdrop : text.drop (i + piece.length) = rest ++ text.drop j := by
    rw [← List.drop_drop, h.drop_eq, List.append_assoc, List.drop_left]
  refine ⟨i + piece.length, ⟨?_, rfl⟩, hdrop, ?_⟩
  · rw [hdrop, h.drop_eq, List.append_assoc]
  · rw [← h.length_eq, List.length_append, Nat.add_assoc]

theorem piece_whole_iff {piece : List Char} : Piece text 0 text.length piece ↔ piece = text := by
  constructor
  · rintro ⟨hdrop, -⟩
    simpa only [List.drop_zero, List.drop_length, List.append_nil] using hdrop.symm
  · rintro rfl
    exact ⟨by simp only [List.drop_zero, List.drop_length, List.append_nil], Nat.zero_add _⟩

theorem piece_singleton_iff {i : Nat} {c : Char} :
    Piece text i (i + 1) [c] ↔ text[i]? = some c := by
  constructor
  · rintro ⟨h, -⟩
    have := congrArg (·[0]?) h
    simpa only [List.getElem?_drop, Nat.add_zero, List.singleton_append,
      List.getElem?_cons_zero] using this
  · intro h
    obtain ⟨hi, hc⟩ := List.getElem?_eq_some_iff.mp h
    exact ⟨by rw [List.drop_eq_getElem_cons hi, hc]; rfl, rfl⟩

theorem piece_to_zero_iff {i : Nat} {piece : List Char} :
    Piece text i 0 piece ↔ i = 0 ∧ piece = [] := by
  constructor
  · rintro ⟨-, h⟩
    exact ⟨Nat.eq_zero_of_add_eq_zero_right h,
      List.eq_nil_of_length_eq_zero (Nat.eq_zero_of_add_eq_zero_left h)⟩
  · rintro ⟨rfl, rfl⟩
    exact .refl text 0

theorem piece_succ_succ_iff {c : Char} {i : Nat} {piece : List Char} :
    Piece (c :: text) (i + 1) (j + 1) piece ↔ Piece text i j piece := by
  constructor
  · rintro ⟨hdrop, hlength⟩
    exact ⟨hdrop, by omega⟩
  · rintro ⟨hdrop, hlength⟩
    exact ⟨hdrop, by omega⟩

theorem piece_zero_succ_iff {c : Char} {piece : List Char} :
    Piece (c :: text) 0 (j + 1) piece ↔ ∃ rest, piece = c :: rest ∧ Piece text 0 j rest := by
  constructor
  · rintro ⟨hdrop, hlength⟩
    cases piece with
    | nil => simp only [List.length_nil, Nat.add_zero, Nat.right_eq_add, Nat.add_eq_zero_iff,
        Nat.succ_ne_self, and_false] at hlength
    | cons c' rest =>
      simp only [List.drop_zero, List.drop_succ_cons, List.cons_append, List.cons.injEq] at hdrop
      simp only [List.length_cons] at hlength
      exact ⟨rest, by rw [hdrop.1], hdrop.2, by omega⟩
  · rintro ⟨rest, rfl, hdrop, hlength⟩
    refine ⟨congrArg (c :: ·) hdrop, ?_⟩
    simp only [List.length_cons]
    omega

theorem length_advance (h : marks.length = text.length + 1) :
    (advance p marks text).length = text.length + 1 := by
  simp only [advance, List.length_cons, List.length_zipWith, h]
  omega

theorem marked_advance : Marked (advance p marks text) j ↔
    ∃ i c, Marked marks i ∧ Piece text i j [c] ∧ p c = true := by
  constructor
  · intro h
    cases j with
    | zero => simp only [Marked, advance, List.getElem?_cons_zero, Option.some.injEq,
        Bool.false_eq_true] at h
    | succ i =>
      simp only [Marked, advance, List.getElem?_cons_succ, List.getElem?_zipWith_eq_some,
        Bool.and_eq_true] at h
      obtain ⟨marked, c, hmarked, hc, hm, hp⟩ := h
      rw [hm] at hmarked
      exact ⟨i, c, hmarked, piece_singleton_iff.mpr hc, hp⟩
  · rintro ⟨i, c, hmarked, hpiece, hp⟩
    obtain rfl : i + 1 = j := hpiece.length_eq
    simp only [Marked, advance, List.getElem?_cons_succ, List.getElem?_zipWith_eq_some,
      Bool.and_eq_true]
    exact ⟨true, c, hmarked, piece_singleton_iff.mp hpiece, rfl, hp⟩

theorem length_spread {marked : Bool} (h : marks.length = text.length + 1) :
    (spread marked marks text).length = text.length + 1 := by
  induction text generalizing marked marks with
  | nil =>
    obtain ⟨m, rfl⟩ := List.length_eq_one_iff.mp h
    rfl
  | cons c text ih =>
    obtain ⟨m, marks, rfl⟩ := List.exists_cons_of_length_eq_add_one h
    simp only [spread, List.length_cons, ih (Nat.succ.inj h)]

/-- The place is marked, or the text is entered there, which is at its start. -/
def Entered (marked : Bool) (marks : List Bool) (i : Nat) : Prop :=
  marked = true ∧ i = 0 ∨ Marked marks i

theorem marked_spread_zero {marked m : Bool} :
    Marked (spread marked (m :: marks) text) 0 ↔ ∃ i piece,
      Entered marked (m :: marks) i ∧ Piece text i 0 piece ∧ ∀ c ∈ piece, isWild c = true := by
  have hspread : Marked (spread marked (m :: marks) text) 0 ↔ Entered marked (m :: marks) 0 := by
    cases text <;> simp only [Marked, Entered, spread, List.getElem?_cons_zero,
      Option.some.injEq, Bool.or_eq_true, and_true]
  rw [hspread]
  constructor
  · exact fun h => ⟨0, [], h, .refl text 0, fun _ hc => absurd hc List.not_mem_nil⟩
  · rintro ⟨i, piece, h, hpiece, -⟩
    rwa [(piece_to_zero_iff.mp hpiece).1] at h

theorem not_piece_nil_succ {marked m : Bool} :
    ¬∃ i piece, Entered marked [m] i ∧ Piece [] i (j + 1) piece ∧ ∀ c ∈ piece, isWild c = true := by
  rintro ⟨i, piece, hi, ⟨hdrop, hlength⟩, -⟩
  rw [List.drop_nil, List.drop_nil, List.append_nil] at hdrop
  rw [← hdrop] at hlength
  obtain rfl : i = j + 1 := hlength
  rcases hi with ⟨-, hi⟩ | hi
  · exact absurd hi (Nat.succ_ne_zero j)
  · simp only [Marked, List.getElem?_cons_succ, List.getElem?_nil, reduceCtorEq] at hi

/-- Behind a first character, the text is entered if it was entered before and the character is a
wildcard. -/
theorem exists_wild_cons_iff {marked m : Bool} {c : Char} :
    (∃ i piece, Entered marked (m :: marks) i ∧ Piece (c :: text) i (j + 1) piece ∧
        ∀ c ∈ piece, isWild c = true) ↔
      ∃ i piece, Entered ((marked || m) && isWild c) marks i ∧ Piece text i j piece ∧
        ∀ c ∈ piece, isWild c = true := by
  have hentered : Entered marked (m :: marks) 0 ↔ (marked || m) = true := by
    simp only [Entered, Marked, List.getElem?_cons_zero, Option.some.injEq, Bool.or_eq_true,
      and_true]
  constructor
  · rintro ⟨i, piece, hi, hpiece, hwild⟩
    cases i with
    | zero =>
      obtain ⟨rest, rfl, hrest⟩ := piece_zero_succ_iff.mp hpiece
      obtain ⟨hc, hwild⟩ := List.forall_mem_cons.mp hwild
      exact ⟨0, rest, .inl ⟨by rw [hentered.mp hi, hc]; rfl, rfl⟩, hrest, hwild⟩
    | succ i =>
      rcases hi with ⟨-, hi⟩ | hi
      · exact absurd hi (Nat.succ_ne_zero i)
      · exact ⟨i, piece, .inr hi, piece_succ_succ_iff.mp hpiece, hwild⟩
  · rintro ⟨i, piece, ⟨hm, rfl⟩ | hi, hpiece, hwild⟩
    · rw [Bool.and_eq_true, ← hentered] at hm
      exact ⟨0, c :: piece, hm.1, piece_zero_succ_iff.mpr ⟨piece, rfl, hpiece⟩,
        List.forall_mem_cons.mpr ⟨hm.2, hwild⟩⟩
    · exact ⟨i + 1, piece, .inr hi, piece_succ_succ_iff.mpr hpiece, hwild⟩

/-- Wildcards lead from the places where the text is entered to the marked ones. -/
theorem marked_spread {marked : Bool} (h : marks.length = text.length + 1) :
    Marked (spread marked marks text) j ↔ ∃ i piece,
      Entered marked marks i ∧ Piece text i j piece ∧ ∀ c ∈ piece, isWild c = true := by
  induction text generalizing marked marks j with
  | nil =>
    obtain ⟨m, rfl⟩ := List.length_eq_one_iff.mp h
    cases j with
    | zero => exact marked_spread_zero
    | succ j =>
      refine iff_of_false (fun h => ?_) not_piece_nil_succ
      simp only [Marked, spread, List.getElem?_cons_succ, List.getElem?_nil, reduceCtorEq] at h
  | cons c text ih =>
    obtain ⟨m, marks, rfl⟩ := List.exists_cons_of_length_eq_add_one h
    cases j with
    | zero => exact marked_spread_zero
    | succ j =>
      have hspread : Marked (spread marked (m :: marks) (c :: text)) (j + 1) ↔
          Marked (spread ((marked || m) && isWild c) marks text) j := by
        simp only [Marked, spread, List.getElem?_cons_succ]
      rw [hspread, ih (Nat.succ.inj h), exists_wild_cons_iff]

theorem length_reach (item : GlobItem) (h : marks.length = text.length + 1) :
    (reach text marks item).length = text.length + 1 := by
  cases item with
  | char c => exact length_advance h
  | one => exact length_advance h
  | many => exact length_spread h

/-- An element marks the places behind the pieces that it reads from marked places on. -/
theorem marked_reach {item : GlobItem} (h : marks.length = text.length + 1) :
    Marked (reach text marks item) j ↔ ∃ i piece,
      Marked marks i ∧ Piece text i j piece ∧ item.Reads piece := by
  cases item with
  | char c =>
    refine marked_advance.trans ⟨?_, ?_⟩
    · rintro ⟨i, c', hi, hpiece, hc⟩
      exact ⟨i, [c'], hi, hpiece, by rw [beq_iff_eq.mp hc]; rfl⟩
    · rintro ⟨i, piece, hi, hpiece, rfl⟩
      exact ⟨i, c, hi, hpiece, beq_self_eq_true c⟩
  | one =>
    refine marked_advance.trans ⟨?_, ?_⟩
    · rintro ⟨i, c, hi, hpiece, hc⟩
      exact ⟨i, [c], hi, hpiece, c, rfl, hc⟩
    · rintro ⟨i, piece, hi, hpiece, c, rfl, hc⟩
      exact ⟨i, c, hi, hpiece, hc⟩
  | many =>
    refine (marked_spread h).trans ?_
    simp only [Entered, Bool.false_eq_true, false_and, false_or]
    rfl

theorem length_foldl_reach (items : List GlobItem) (h : marks.length = text.length + 1) :
    (items.foldl (reach text) marks).length = text.length + 1 := by
  induction items generalizing marks with
  | nil => exact h
  | cons item items ih => exact ih (length_reach item h)

/-- The elements mark the places behind the texts that they split from marked places on. -/
theorem marked_foldl_reach {items : List GlobItem} (h : marks.length = text.length + 1) :
    Marked (items.foldl (reach text) marks) j ↔ ∃ i piece,
      Marked marks i ∧ Piece text i j piece ∧ Splits items piece := by
  induction items generalizing marks with
  | nil =>
    constructor
    · exact fun hj => ⟨j, [], hj, .refl text j, .nil⟩
    · rintro ⟨i, piece, hi, hpiece, hsplits⟩
      cases hsplits
      rwa [← hpiece.length_eq]
  | cons item items ih =>
    rw [List.foldl_cons, ih (length_reach item h)]
    simp only [marked_reach h]
    constructor
    · rintro ⟨k, rest, ⟨i, piece, hi, hpiece, hreads⟩, hrest, hsplits⟩
      exact ⟨i, piece ++ rest, hi, hpiece.trans hrest, .cons hreads hsplits⟩
    · rintro ⟨i, _, hi, hwhole, hsplits⟩
      obtain ⟨piece, rest, rfl, hreads, hsplits⟩ := splits_cons_iff.mp hsplits
      obtain ⟨k, hpiece, hrest⟩ := hwhole.split
      exact ⟨k, rest, ⟨i, piece, hi, hpiece, hreads⟩, hrest, hsplits⟩

end Marks

/-- The marks decide whether the term falls into pieces for the elements of the glob. -/
theorem contains_iff_splits {g : Glob} {term : String} :
    g.contains term = true ↔ Splits g.items term.toList := by
  generalize htext : term.toList = text
  have hlength : (true :: text.map fun _ => false).length = text.length + 1 := by
    rw [List.length_cons, List.length_map]
  have hstart : ∀ i, Marked (true :: text.map fun _ => false) i ↔ i = 0 := by
    intro i
    cases i with
    | zero => simp only [Marked, List.getElem?_cons_zero]
    | succ i => simp only [Marked, List.getElem?_cons_succ, List.getElem?_map,
        Option.map_eq_some_iff, Bool.false_eq_true, and_false, exists_false, Nat.succ_ne_zero]
  have hlast : g.contains term = true ↔
      Marked (g.items.foldl (reach text) (true :: text.map fun _ => false)) text.length := by
    have hmarks := length_foldl_reach g.items hlength
    rw [Marked, contains, htext, List.getLastD_eq_getLast?, List.getLast?_eq_getElem?, hmarks,
      Nat.add_sub_cancel]
    cases (g.items.foldl (reach text) (true :: text.map fun _ => false))[text.length]? with
    | none => simp only [Option.getD_none, Bool.false_eq_true, reduceCtorEq]
    | some m => simp only [Option.getD_some, Option.some.injEq]
  rw [hlast, marked_foldl_reach hlength]
  constructor
  · rintro ⟨i, piece, hi, hpiece, hsplits⟩
    obtain rfl := (hstart i).mp hi
    rwa [piece_whole_iff.mp hpiece] at hsplits
  · exact fun h => ⟨0, text, (hstart 0).mpr rfl, piece_whole_iff.mpr rfl, h⟩

/-! ### The longest literal -/

/-- The longest text between wildcards is in every text that ends in the text since the last
wildcard and the pieces for the elements that are left. -/
theorem isInfix_longestRun {best run source front piece : List Char} (hbest : best <:+: front)
    (hrun : run <:+ front) (hsplits : Splits (read source) piece) :
    longestRun best run source <:+: front ++ piece := by
  fun_induction longestRun best run source generalizing front piece with
  | case1 best run | case2 best run =>
    exact (Text.isInfix_longer hbest hrun.isInfix).trans (List.prefix_append front piece).isInfix
  | case3 best run c rest ih =>
    obtain ⟨piece, rfl, hrest⟩ := splits_char_iff.mp hsplits
    rw [List.append_cons front c piece]
    exact ih (hbest.trans (List.prefix_append front [c]).isInfix)
      (List.suffix_append_self_iff.mpr hrun) hrest
  | case4 best run rest ih | case5 best run rest ih =>
    obtain ⟨wild, piece, rfl, -, hrest⟩ := splits_cons_iff.mp hsplits
    rw [← List.append_assoc]
    have hlonger := Text.isInfix_longer hbest hrun.isInfix
    exact ih (hlonger.trans (List.prefix_append front wild).isInfix) List.nil_suffix hrest
  | case6 best run c rest hlone hescape hmany hone ih =>
    rw [read.eq_6 c rest hlone hescape hmany hone] at hsplits
    obtain ⟨piece, rfl, hrest⟩ := splits_char_iff.mp hsplits
    rw [List.append_cons front c piece]
    exact ih (hbest.trans (List.prefix_append front [c]).isInfix)
      (List.suffix_append_self_iff.mpr hrun) hrest

/-- A term that a glob matches contains its longest literal. -/
theorem isInfix_longestLiteral {g : Glob} {term : String} (h : g.contains term = true) :
    g.longestLiteral.toList <:+: term.toList := by
  rw [longestLiteral, String.toList_ofList]
  exact isInfix_longestRun List.nil_infix (List.nil_suffix (l := [])) (contains_iff_splits.mp h)

end Glob

end Percolator
