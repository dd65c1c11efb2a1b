/-!
# Sorted lists

Sets are kept as lists in increasing order, without repetitions. Such a list is the same for every
way in which the set was put together.
-/

namespace Percolator.Sorted

variable {α : Type} [Ord α]

/-- Inserts an element into a sorted list, unless it is there. -/
def insert (a : α) : List α → List α
  | [] => [a]
  | b :: rest =>
    match compare a b with
    | .lt => a :: b :: rest
    | .eq => b :: rest
    | .gt => b :: insert a rest

/-- The elements of a list in order and without repetitions. -/
def ofList (as : List α) : List α := as.foldr insert []

/-- The elements of two sorted lists. -/
def union : List α → List α → List α
  | [], bs => bs
  | as, [] => as
  | a :: as, b :: bs =>
    match compare a b with
    | .lt => a :: union as (b :: bs)
    | .eq => a :: union as bs
    | .gt => b :: union (a :: as) bs

/-- The elements of a sorted list that are not in another one. -/
def diff : List α → List α → List α
  | [], _ => []
  | as, [] => as
  | a :: as, b :: bs =>
    match compare a b with
    | .lt => a :: diff as (b :: bs)
    | .eq => diff as bs
    | .gt => diff (a :: as) bs

end Percolator.Sorted
