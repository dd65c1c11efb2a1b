import Percolator.Pattern.Search
import Percolator.Proofs.Pieces

/-!
# Matches stand from left to right

A thread of a search keeps the place at which its match begins, and it is begun at the place where
the search is. So a match does not end before it begins, and it begins where the search was begun or
behind it. The next search is begun where the last match ended: the matches of an expression stand
one behind the other, within the text.

## Main results

* `Program.matchFrom_findFrom?` : where the match stands that a search finds.
* `Expr.leftToRight_findAll` : the matches of an expression stand one behind the other.
-/

namespace Percolator.Pattern

namespace Program

variable {p : Program} {text : Array Char} {threads waiting : List Thread} {t : Thread}
  {visits : Array Nat} {i n fuel start : Nat} {lastEnd : Option Nat} {best : Option (Nat × Nat)}

/-- The steps that take no character leave the threads where they began. -/
theorem settle_start {P : Nat → Prop} (hwaiting : ∀ t ∈ waiting, P t.start)
    (hthreads : ∀ t ∈ threads, P t.start) :
    (∀ t ∈ (p.settle text i fuel visits waiting threads).waiting, P t.start) ∧
      ∀ k ∈ (p.settle text i fuel visits waiting threads).ended, P k := by
  fun_induction settle p text i fuel visits waiting threads with
  | case1 _ _ _ _ _ _ ih => exact ih hwaiting (List.forall_mem_cons.mp hthreads).2
  | case2 _ _ _ t _ _ _ _ _ _ _ ih =>
    obtain ⟨ht, hthreads⟩ := List.forall_mem_cons.mp hthreads
    exact ih hwaiting (List.forall_mem_cons.mpr ⟨ht, hthreads⟩)
  | case3 _ _ _ _ _ _ _ _ _ _ _ ih => exact ih hwaiting (List.forall_mem_cons.mp hthreads).2
  | case4 _ _ _ t _ _ _ _ _ _ ih =>
    obtain ⟨ht, hthreads⟩ := List.forall_mem_cons.mp hthreads
    exact ih hwaiting (List.forall_mem_cons.mpr ⟨ht, List.forall_mem_cons.mpr ⟨ht, hthreads⟩⟩)
  | case5 =>
    refine ⟨hwaiting, fun k hk => ?_⟩
    obtain rfl := Option.some.inj hk
    exact (List.forall_mem_cons.mp hthreads).1
  | case6 _ _ _ _ _ _ _ _ _ _ _ _ ih =>
    obtain ⟨ht, hthreads⟩ := List.forall_mem_cons.mp hthreads
    exact ih (List.forall_mem_cons.mpr ⟨ht, hwaiting⟩) hthreads
  | case7 _ _ _ _ _ _ _ _ ih => exact ih hwaiting (List.forall_mem_cons.mp hthreads).2
  | case8 => exact ⟨hwaiting, nofun⟩

theorem start_of_take? {c : Char} {next : Thread} (h : p.take? c t = some next) :
    next.start = t.start := by
  rw [take?] at h
  split at h
  · obtain ⟨-, h⟩ := Option.ite_none_right_eq_some.mp h
    rw [← Option.some.inj h]
  · obtain ⟨-, h⟩ := Option.ite_none_right_eq_some.mp h
    rw [← Option.some.inj h]
  · simp only [reduceCtorEq] at h

/-- The match stands within the text, from place `start` on. -/
def MatchFrom (text : Array Char) (start : Nat) (found : Nat × Nat) : Prop :=
  start ≤ found.1 ∧ found.1 ≤ found.2 ∧ found.2 ≤ text.size

/-- What threads come to at a place: those that go on begin within the same stretch as before, or at
the place, and so does the match, which ends at the place if it was not known before. -/
theorem matchFrom_settle (hi : start ≤ i) (hsize : i ≤ text.size)
    (hthreads : ∀ t ∈ threads, start ≤ t.start ∧ t.start ≤ i)
    (hbest : ∀ found ∈ best, MatchFrom text start found) :
    let settled := p.settle text i fuel visits []
      (if best.isNone then threads ++ [⟨p.first, i⟩] else threads)
    (∀ t ∈ settled.waiting, start ≤ t.start ∧ t.start ≤ i) ∧
      ∀ found ∈ (settled.ended.map (·, i)).or best, MatchFrom text start found := by
  have hbegun : ∀ t ∈ if best.isNone then threads ++ [⟨p.first, i⟩] else threads,
      start ≤ t.start ∧ t.start ≤ i := by
    split
    · exact List.forall_mem_append.mpr
        ⟨hthreads, List.forall_mem_singleton.mpr ⟨hi, Nat.le_refl i⟩⟩
    · exact hthreads
  obtain ⟨hwaiting, hended⟩ := settle_start (P := fun k => start ≤ k ∧ k ≤ i)
    (List.forall_mem_nil _) hbegun
  refine ⟨hwaiting, fun found hfound => ?_⟩
  rcases Option.or_eq_some_iff.mp hfound with hfound | ⟨-, hfound⟩
  · obtain ⟨k, hk, rfl⟩ := Option.map_eq_some_iff.mp hfound
    exact ⟨(hended k hk).1, (hended k hk).2, hsize⟩
  · exact hbest found hfound

/-- Threads that begin at `start` or behind it come to matches that do. -/
theorem matchFrom_follow (hi : start ≤ i) (hn : i + n ≤ text.size)
    (hthreads : ∀ t ∈ threads, start ≤ t.start ∧ t.start ≤ i)
    (hbest : ∀ found ∈ best, MatchFrom text start found) :
    ∀ found ∈ p.follow text n i visits threads best, MatchFrom text start found := by
  fun_induction follow p text n i visits threads best with
  | case1 => exact (matchFrom_settle hi (by omega) hthreads hbest).2
  | case2 i visits _ best threads fuel settled best' n c hc taken hgo ih =>
    obtain ⟨hwaiting, hbest'⟩ : (∀ t ∈ settled.waiting, start ≤ t.start ∧ t.start ≤ i) ∧
        ∀ found ∈ best', MatchFrom text start found :=
      matchFrom_settle hi (by omega) hthreads hbest
    refine ih (by omega) (by omega) (fun t ht => ?_) hbest'
    obtain ⟨u, hu, htake⟩ := List.mem_filterMap.mp ht
    have hstart := hwaiting u (List.mem_reverse.mp hu)
    rw [start_of_take? htake]
    omega
  | case3 => exact (matchFrom_settle hi (by omega) hthreads hbest).2

/-- A search from a place finds a match that begins there or behind it. -/
theorem matchFrom_findFrom? : ∀ found ∈ p.findFrom? text i, MatchFrom text i found := by
  intro found hfound
  rw [findFrom?] at hfound
  split at hfound
  · next hle =>
    refine matchFrom_follow (Nat.le_refl i) (by omega) (List.forall_mem_nil _) ?_ found hfound
    exact fun _ hnone => absurd hnone (Option.not_mem_none _)
  · simp only [Option.mem_def, reduceCtorEq] at hfound

theorem matchFrom_findNext? : ∀ found ∈ p.findNext? text i lastEnd, MatchFrom text i found := by
  intro found hfound
  rw [findNext?] at hfound
  split at hfound
  · next k j hfind =>
    split at hfound
    · -- An empty match was found where the last one ended, and the search goes on behind it.
      obtain ⟨hle, hrest⟩ := matchFrom_findFrom? found hfound
      exact ⟨Nat.le_of_succ_le hle, hrest⟩
    · exact Option.some.inj hfound ▸ matchFrom_findFrom? (k, j) hfind
  · simp only [Option.mem_def, reduceCtorEq] at hfound

theorem leftToRight_findUpTo (hi : i ≤ text.size) :
    LeftToRight i text.size (p.findUpTo text n i lastEnd) := by
  induction n generalizing i lastEnd with
  | zero => exact hi
  | succ n ih =>
    rw [findUpTo]
    split
    · next k j hnext =>
      obtain ⟨hk, hkj, hj⟩ := matchFrom_findNext? (k, j) hnext
      exact ⟨hk, hkj, ih hj⟩
    · exact hi

end Program

/-- The matches of an expression stand one behind the other in the text. -/
theorem Expr.leftToRight_findAll (e : Expr) (text : Array Char) :
    LeftToRight 0 text.size (e.findAll text) :=
  Program.leftToRight_findUpTo (Nat.zero_le _)

end Percolator.Pattern
