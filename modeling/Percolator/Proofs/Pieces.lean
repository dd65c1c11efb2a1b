import Mathlib.Order.Monotone.Basic

/-!
# Pieces from left to right

A piece of a text or of a field is given by the place where it begins and the place where it ends.
Pieces that are found by going through a text stand one behind the other. They leave stretches in
front of them, between them and behind them, and together with these they cover the text.

## Main definitions

* `LeftToRight` : pieces stand one behind the other between two places.
* `Tiles` : pieces stand one behind the other and leave nothing out.
* `stretches` : what pieces leave out.
* `StandsIn` : a text stands in another one between two offsets.

## Main results

* `LeftToRight.of_mem`, `LeftToRight.pairwise` : where single pieces stand, and two of them.
* `LeftToRight.append`, `LeftToRight.sublist`, `LeftToRight.map` : what keeps pieces in this order.
* `LeftToRight.exists_tiles` : pieces cover a text together with the stretches that they leave out.
* `Tiles.countP_eq_one` : what is covered by such pieces is covered once.
-/

namespace Percolator

/-- The pieces stand one behind the other between two places. A piece may be empty. -/
def LeftToRight (place size : Nat) : List (Nat × Nat) → Prop
  | [] => place ≤ size
  | (i, j) :: rest => place ≤ i ∧ i ≤ j ∧ LeftToRight j size rest

namespace LeftToRight

variable {place size : Nat} {pieces : List (Nat × Nat)}

theorem le (h : LeftToRight place size pieces) : place ≤ size := by
  induction pieces generalizing place with
  | nil => exact h
  | cons piece rest ih => exact Nat.le_trans h.1 (Nat.le_trans h.2.1 (ih h.2.2))

theorem mono {start : Nat} (h : LeftToRight place size pieces) (hle : start ≤ place) :
    LeftToRight start size pieces := by
  cases pieces with
  | nil => exact Nat.le_trans hle h
  | cons piece rest => exact ⟨Nat.le_trans hle h.1, h.2⟩

/-- The pieces stand between the two places, and do not end before they begin. -/
theorem of_mem (h : LeftToRight place size pieces) {piece : Nat × Nat} (hpiece : piece ∈ pieces) :
    place ≤ piece.1 ∧ piece.1 ≤ piece.2 ∧ piece.2 ≤ size := by
  induction pieces generalizing place with
  | nil => exact absurd hpiece List.not_mem_nil
  | cons first rest ih =>
    obtain ⟨hplace, hfirst, hrest⟩ := h
    rcases List.mem_cons.mp hpiece with rfl | hpiece
    · exact ⟨hplace, hfirst, hrest.le⟩
    · exact ih (hrest.mono (Nat.le_trans hplace hfirst)) hpiece

/-- A piece ends before the next ones begin. -/
theorem pairwise (h : LeftToRight place size pieces) :
    pieces.Pairwise fun piece next => piece.2 ≤ next.1 := by
  induction pieces generalizing place with
  | nil => exact List.Pairwise.nil
  | cons first rest ih =>
    exact List.pairwise_cons.mpr ⟨fun next hnext => (h.2.2.of_mem hnext).1, ih h.2.2⟩

theorem append {middle : Nat} {behind : List (Nat × Nat)} (h : LeftToRight place middle pieces)
    (hbehind : LeftToRight middle size behind) : LeftToRight place size (pieces ++ behind) := by
  induction pieces generalizing place with
  | nil => exact hbehind.mono h
  | cons piece rest ih => exact ⟨h.1, h.2.1, ih h.2.2⟩

theorem sublist {kept : List (Nat × Nat)} (h : LeftToRight place size pieces)
    (hkept : kept.Sublist pieces) : LeftToRight place size kept := by
  induction hkept generalizing place with
  | slnil => exact h
  | cons piece _ ih => exact ih (h.2.2.mono (Nat.le_trans h.1 h.2.1))
  | cons_cons piece _ ih => exact ⟨h.1, h.2.1, ih h.2.2⟩

/-- Places that are moved without changing their order keep the order of the pieces. -/
theorem map {f : Nat → Nat} (h : LeftToRight place size pieces) (hf : Monotone f) :
    LeftToRight (f place) (f size) (pieces.map (Prod.map f f)) := by
  induction pieces generalizing place with
  | nil => exact hf h
  | cons piece rest ih => exact ⟨hf h.1, hf h.2.1, ih h.2.2⟩

end LeftToRight

/-! ### Pieces that leave nothing out -/

/-- The pieces cover the stretch between two places, one behind the other. -/
def Tiles (place size : Nat) : List (Nat × Nat) → Prop
  | [] => place = size
  | (i, j) :: rest => place = i ∧ i ≤ j ∧ Tiles j size rest

/-- The place lies in the piece. -/
def covers (k : Nat) (piece : Nat × Nat) : Bool := decide (piece.1 ≤ k ∧ k < piece.2)

theorem covers_iff {k : Nat} {piece : Nat × Nat} :
    covers k piece = true ↔ piece.1 ≤ k ∧ k < piece.2 := decide_eq_true_iff

namespace Tiles

variable {place size : Nat} {pieces : List (Nat × Nat)}

theorem leftToRight (h : Tiles place size pieces) : LeftToRight place size pieces := by
  induction pieces generalizing place with
  | nil => exact Nat.le_of_eq h
  | cons piece rest ih => exact ⟨Nat.le_of_eq h.1, h.2.1, ih h.2.2⟩

/-- A place that is covered lies in one piece only. -/
theorem countP_eq_one {k : Nat} (h : Tiles place size pieces) (hplace : place ≤ k) (hk : k < size) :
    pieces.countP (covers k) = 1 := by
  induction pieces generalizing place with
  | nil => exact absurd hk (Nat.not_lt.mpr (h ▸ hplace))
  | cons piece rest ih =>
    obtain ⟨rfl, -, hrest⟩ := h
    by_cases hpiece : covers k piece = true
    · have hbehind : rest.countP (covers k) = 0 := by
        refine List.countP_eq_zero.mpr fun next hnext hcovers => ?_
        have hle := (hrest.leftToRight.of_mem hnext).1
        have hlt := (covers_iff.mp hpiece).2
        exact Nat.not_lt.mpr (covers_iff.mp hcovers).1 (Nat.lt_of_lt_of_le hlt hle)
      rw [List.countP_cons_of_pos hpiece, hbehind]
    · rw [List.countP_cons_of_neg hpiece]
      exact ih hrest (Nat.not_lt.mp fun hlt => hpiece (covers_iff.mpr ⟨hplace, hlt⟩))

end Tiles

/-! ### What pieces leave out -/

/-- The piece is not empty. -/
def hasPlace (piece : Nat × Nat) : Bool := decide (piece.1 < piece.2)

theorem hasPlace_iff {piece : Nat × Nat} : hasPlace piece = true ↔ piece.1 < piece.2 :=
  decide_eq_true_iff

theorem eq_of_not_hasPlace {i j : Nat} (h : ¬hasPlace (i, j) = true) (hij : i ≤ j) : i = j :=
  Nat.le_antisymm hij (Nat.not_lt.mp fun hlt => h (hasPlace_iff.mpr hlt))

/-- The stretches in front of pieces, between them and behind them. A stretch may be empty. -/
def stretches (place size : Nat) (pieces : List (Nat × Nat)) : List (Nat × Nat) :=
  (place :: pieces.map Prod.snd).zip (pieces.map Prod.fst ++ [size])

section Stretches

variable {place size : Nat} {pieces : List (Nat × Nat)}

theorem stretches_nil : stretches place size [] = [(place, size)] := rfl

theorem stretches_cons {i j : Nat} :
    stretches place size ((i, j) :: pieces) = (place, i) :: stretches j size pieces := rfl

theorem map_stretches (f : Nat → Nat) : (stretches place size pieces).map (Prod.map f f) =
    stretches (f place) (f size) (pieces.map (Prod.map f f)) := by
  induction pieces generalizing place with
  | nil => rfl
  | cons piece rest ih => rw [stretches_cons, List.map_cons, ih, List.map_cons]; rfl

theorem LeftToRight.of_mem_stretches (h : LeftToRight place size pieces) {stretch : Nat × Nat}
    (hstretch : stretch ∈ stretches place size pieces) :
    stretch.1 ≤ stretch.2 ∧ stretch.2 ≤ size := by
  induction pieces generalizing place with
  | nil =>
    rw [List.mem_singleton.mp hstretch]
    exact ⟨h, Nat.le_refl size⟩
  | cons piece rest ih =>
    obtain ⟨hplace, hpiece, hrest⟩ := h
    rcases List.mem_cons.mp hstretch with rfl | hstretch
    · exact ⟨hplace, Nat.le_trans hpiece hrest.le⟩
    · exact ih hrest hstretch

/-- Pieces cover the stretch that they stand in, together with what they leave out. -/
theorem LeftToRight.exists_tiles (h : LeftToRight place size pieces) : ∃ tiles,
    tiles.Perm ((stretches place size pieces).filter hasPlace ++ pieces) ∧
      Tiles place size tiles := by
  induction pieces generalizing place with
  | nil =>
    rw [stretches_nil, List.append_nil]
    refine ⟨_, List.Perm.refl _, ?_⟩
    by_cases hlast : hasPlace (place, size) = true
    · rw [List.filter_cons_of_pos hlast]
      exact ⟨rfl, h, rfl⟩
    · rw [List.filter_cons_of_neg hlast]
      exact eq_of_not_hasPlace hlast h
  | cons piece rest ih =>
    obtain ⟨hplace, hpiece, hrest⟩ := h
    obtain ⟨tiles, hperm, htiles⟩ := ih hrest
    have hbehind := (hperm.cons piece).trans List.perm_middle.symm
    rw [stretches_cons]
    by_cases hfront : hasPlace (place, piece.1) = true
    · rw [List.filter_cons_of_pos hfront]
      exact ⟨_, hbehind.cons (place, piece.1), rfl, hplace, rfl, hpiece, htiles⟩
    · rw [List.filter_cons_of_neg hfront]
      exact ⟨_, hbehind, eq_of_not_hasPlace hfront hplace, hpiece, htiles⟩

end Stretches

/-! ### Pieces of a text -/

/-- The piece stands in the text between two offsets, which are counted in bytes. So both offsets
are at the boundaries of characters. -/
def StandsIn (piece text : String) (extent : Nat × Nat) : Prop :=
  ∃ front back, text = front ++ piece ++ back ∧
    extent = (front.utf8ByteSize, (front ++ piece).utf8ByteSize)

namespace StandsIn

variable {piece value text : String} {extent : Nat × Nat}

theorem self (text : String) : StandsIn text text (0, text.utf8ByteSize) :=
  ⟨"", "", by rw [String.empty_append, String.append_empty], by rw [String.empty_append]; rfl⟩

theorem le (h : StandsIn piece text extent) : extent.1 ≤ extent.2 := by
  obtain ⟨front, back, -, rfl⟩ := h
  rw [String.utf8ByteSize_append]
  exact Nat.le_add_right _ _

/-- A piece of a value stands in the text behind what stands in front of the value. -/
theorem within (h : StandsIn piece value extent) (front back : String) :
    StandsIn piece (front ++ value ++ back)
      (front.utf8ByteSize + extent.1, front.utf8ByteSize + extent.2) := by
  obtain ⟨before, behind, rfl, rfl⟩ := h
  refine ⟨front ++ before, behind ++ back, ?_, ?_⟩
  · simp only [String.append_assoc]
  · simp only [String.utf8ByteSize_append, Nat.add_assoc]

end StandsIn

end Percolator
