import Percolator.Pattern.Read
import Percolator.Proofs.Pattern.Language

/-!
# What is read is feasible

The counts of a repetition are compared when they are read, and the builders of expressions only
rearrange expressions, so the expression of a pattern is feasible.

## Main results

* `Pattern.Expr.feasible_of_read?` : the expression of a pattern is feasible.
-/

namespace Percolator.Pattern

namespace Expr

/-! ### The builders -/

theorem feasible_ofSet {alphabet : Alphabet} {set : CharSet} : Feasible (ofSet alphabet set) := by
  simp only [ofSet]
  split
  · exact trivial
  · split <;> exact trivial

theorem feasible_repeated {least : Nat} {most : Option Nat} {greedy : Bool} {body : Expr}
    (hcounts : ∀ m, most = some m → least ≤ m) (hbody : body.Feasible) :
    (body.repeated least most greedy).Feasible := by
  have hrepetition : ∀ least most, (∀ m, most = some m → least ≤ m) → Feasible
      (if least = 0 ∧ most = some 0 then .empty else if least = 1 ∧ most = some 1 then body
        else .repetition least most greedy body) := by
    intro least most hcounts
    split
    · exact trivial
    · split
      · exact hbody
      · exact ⟨hcounts, hbody⟩
  simp only [repeated]
  split
  · refine hrepetition _ _ fun m hm => ?_
    cases most with
    | none =>
      simp only [Option.map_none, Option.getD_none, Option.some.injEq] at hm
      omega
    | some most =>
      have := hcounts most rfl
      simp only [Option.map_some, Option.getD_some, Option.some.injEq] at hm
      omega
  · exact hrepetition _ _ hcounts

theorem allFeasible_parts {e : Expr} (h : e.Feasible) : AllFeasible e.parts := by
  cases e with
  | empty => exact trivial
  | concat parts => exact h
  | literal _ | oneOf _ _ | look _ | repetition _ _ _ _ | group _ _ | alternation _ =>
    exact ⟨h, trivial⟩

theorem allFeasible_choices {e : Expr} (h : e.Feasible) : AllFeasible e.choices := by
  cases e with
  | alternation choices => exact h
  | empty | literal _ | oneOf _ _ | look _ | repetition _ _ _ _ | group _ _ | concat _ =>
    exact ⟨h, trivial⟩

theorem allFeasible_flatMap {f : Expr → List Expr} (hf : ∀ e, e.Feasible → AllFeasible (f e))
    {es : List Expr} (h : AllFeasible es) : AllFeasible (es.flatMap f) :=
  allFeasible_iff.mpr fun _ ha =>
    let ⟨e, he, ha⟩ := List.mem_flatMap.mp ha
    allFeasible_iff.mp (hf e (allFeasible_iff.mp h e he)) _ ha

theorem allFeasible_glue {e : Expr} {es : List Expr} (he : e.Feasible) (h : AllFeasible es) :
    AllFeasible (glue e es) := by
  unfold glue
  split
  · exact ⟨trivial, h.2⟩
  · exact ⟨he, h⟩

theorem feasible_seq {es : List Expr} (h : AllFeasible es) : (seq es).Feasible := by
  have hglued : ∀ es, AllFeasible es → AllFeasible (es.foldr glue []) := by
    intro es
    induction es with
    | nil => exact id
    | cons e rest ih => exact fun h => allFeasible_glue h.1 (ih h.2)
  have hparts := hglued _ (allFeasible_flatMap (fun _ => allFeasible_parts) h)
  simp only [seq]
  split
  · exact trivial
  · next e heq => exact (heq ▸ hparts).1
  · exact hparts

theorem feasible_flatChoice {es : List Expr} (h : AllFeasible es) : (flatChoice es).Feasible := by
  have hchoices := allFeasible_flatMap (fun _ => allFeasible_choices) h
  simp only [flatChoice]
  split
  · exact trivial
  · next e heq => exact (heq ▸ hchoices).1
  · split
    · exact feasible_ofSet
    · split
      · exact feasible_ofSet
      · exact hchoices

theorem mem_of_mem_commonFront {e : Expr} :
    (as bs : List Expr) → e ∈ commonFront as bs → e ∈ as
  | a :: as, b :: bs, h => by
    simp only [commonFront] at h
    split at h
    · rcases List.mem_cons.mp h with rfl | h
      · exact List.mem_cons_self
      · exact List.mem_cons_of_mem _ (mem_of_mem_commonFront as bs h)
    · exact absurd h List.not_mem_nil
  | [], _, h | _ :: _, [], h => absurd h List.not_mem_nil

theorem mem_of_mem_foldl_commonFront {e : Expr} {lists : List (List Expr)} {front : List Expr}
    (h : e ∈ lists.foldl commonFront front) : e ∈ front := by
  induction lists generalizing front with
  | nil => exact h
  | cons first rest ih => exact mem_of_mem_commonFront front first (ih h)

theorem feasible_of_concat? {e : Expr} {parts : List Expr} (h : e.Feasible)
    (hparts : e.concat? = some parts) : AllFeasible parts := by
  cases e with
  | concat ps =>
    obtain rfl : ps = parts := Option.some.inj hparts
    exact h
  | empty | literal _ | oneOf _ _ | look _ | repetition _ _ _ _ | group _ _ | alternation _ =>
    simp only [concat?, reduceCtorEq] at hparts

/-- What all the sequences have in common is made of parts of the first of them. -/
theorem allFeasible_of_sharedFront? {es front : List Expr} (h : AllFeasible es)
    (hfront : sharedFront? es = some front) : AllFeasible front := by
  simp only [sharedFront?] at hfront
  split at hfront
  · next first second rest hlists =>
    split at hfront
    · simp only [reduceCtorEq] at hfront
    · obtain rfl := Option.some.inj hfront
      cases es with
      | nil => simp only [List.mapM_nil, Option.pure_def, Option.some.injEq, reduceCtorEq] at hlists
      | cons e es =>
        rw [List.mapM_cons] at hlists
        obtain ⟨parts, hparts, tails, -, heq⟩ :
            ∃ parts, e.concat? = some parts ∧ ∃ tails, es.mapM concat? = some tails ∧
              parts :: tails = first :: second :: rest := by
          simpa only [bind, Option.bind_eq_some_iff, pure, Option.some.injEq] using hlists
        obtain rfl : parts = first := (List.cons.inj heq).1
        exact allFeasible_iff.mpr fun a ha => allFeasible_iff.mp
          (feasible_of_concat? h.1 hparts) a (mem_of_mem_foldl_commonFront ha)
  · simp only [reduceCtorEq] at hfront

theorem feasible_choice {es : List Expr} (h : AllFeasible es) : (choice es).Feasible := by
  have hchoices := allFeasible_flatMap (fun _ => allFeasible_choices) h
  simp only [choice]
  split
  · next front hfront =>
    refine feasible_seq (allFeasible_iff.mpr fun e he => ?_)
    rcases List.mem_append.mp he with he | he
    · exact allFeasible_iff.mp (allFeasible_of_sharedFront? hchoices hfront) e he
    · rw [List.mem_singleton.mp he]
      refine feasible_flatChoice (allFeasible_iff.mpr fun tail htail => ?_)
      obtain ⟨whole, hwhole, rfl⟩ := List.mem_map.mp htail
      have hparts := allFeasible_parts (allFeasible_iff.mp hchoices whole hwhole)
      exact feasible_seq (allFeasible_iff.mpr fun part hpart =>
        allFeasible_iff.mp hparts part (List.mem_of_mem_drop hpart))
  · exact feasible_flatChoice h

end Expr

/-! ### Reading -/

/-- Everything that was read of a group is feasible. -/
structure Level.Feasible (l : Level) : Prop where
  finished : ∀ branch ∈ l.finished, branch.1.Feasible
  elements : ∀ e ∈ l.elements, e.expr.Feasible

namespace Level

variable {l l' : Level}

theorem Feasible.add (h : l.Feasible) {e : Element} (he : e.expr.Feasible) : (l.add e).Feasible :=
  ⟨h.finished, List.forall_mem_cons.mpr ⟨he, h.elements⟩⟩

theorem Feasible.branch (h : l.Feasible) : l.branch.1.Feasible :=
  Expr.feasible_seq (Expr.allFeasible_iff.mpr fun _ he =>
    let ⟨element, helement, heq⟩ := List.mem_map.mp he
    heq ▸ h.elements element (List.mem_reverse.mp helement))

theorem Feasible.bar (h : l.Feasible) : l.bar.Feasible :=
  ⟨List.forall_mem_cons.mpr ⟨h.branch, h.finished⟩, fun _ he => absurd he List.not_mem_nil⟩

theorem Feasible.body (h : l.Feasible) : l.body.1.Feasible := by
  simp only [Level.body]
  split
  · exact h.branch
  · next hfinished =>
    refine Expr.feasible_choice (Expr.allFeasible_iff.mpr fun e he => ?_)
    obtain ⟨branch, hbranch, rfl⟩ := List.mem_map.mp he
    exact h.bar.finished branch (List.mem_reverse.mp hbranch)

theorem Feasible.close (h : l.Feasible) : l.close.expr.Feasible := by
  simp only [Level.close]
  cases l.number with
  | none => exact h.body
  | some number => exact h.body

theorem Feasible.repeat? (h : l.Feasible) {least : Nat} {most : Option Nat} {lazy : Bool}
    (hcounts : ∀ m, most = some m → least ≤ m) (hl : l.repeat? least most lazy = some l') :
    l'.Feasible := by
  simp only [Level.repeat?] at hl
  split at hl
  · next e elements helements =>
    split at hl
    · simp only [reduceCtorEq] at hl
    · obtain rfl := Option.some.inj hl
      have hlist := h.elements
      rw [helements, List.forall_mem_cons] at hlist
      exact ⟨h.finished,
        List.forall_mem_cons.mpr ⟨Expr.feasible_repeated hcounts hlist.1, hlist.2⟩⟩
  · simp only [reduceCtorEq] at hl

end Level

theorem le_of_counts? {f : Flags} {text rest : List Char} {least : Nat} {most : Option Nat}
    (h : counts? f text = some (least, most, rest)) : ∀ m, most = some m → least ≤ m := by
  intro m hm
  subst hm
  simp only [counts?, bind, Option.bind_eq_some_iff] at h
  obtain ⟨first, -, h⟩ := h
  split at h
  · simp only [reduceCtorEq] at h
  · split at h
    · simp only [Option.some.injEq, Prod.mk.injEq] at h
      exact Nat.le_of_eq (h.1.symm.trans h.2.1)
    · split at h
      · simp only [Option.some.injEq, Prod.mk.injEq, reduceCtorEq, false_and, and_false] at h
      · split at h
        · split at h
          · simp only [reduceCtorEq] at h
          · next hle =>
            simp only [Option.some.injEq, Prod.mk.injEq] at h
            omega
        · simp only [reduceCtorEq] at h
    · simp only [reduceCtorEq] at h

/-- Everything that was read is feasible. -/
structure Reading.Feasible (r : Reading) : Prop where
  level : r.level.Feasible
  outer : ∀ l ∈ r.outer, l.Feasible

namespace Reading

variable {r r' : Reading} {text rest : List Char}

theorem Feasible.push (h : r.Feasible) {e : Element} (he : e.expr.Feasible) :
    (r.push e rest).Feasible :=
  ⟨h.level.add he, h.outer⟩

theorem Feasible.openGroup (h : r.Feasible) {flags : Flags} :
    (r.openGroup flags rest).Feasible :=
  ⟨⟨fun _ hb => absurd hb List.not_mem_nil, fun _ he => absurd he List.not_mem_nil⟩,
    List.forall_mem_cons.mpr ⟨h.level, h.outer⟩⟩

theorem Feasible.openCapture (h : r.Feasible) : (r.openCapture rest).Feasible :=
  ⟨⟨fun _ hb => absurd hb List.not_mem_nil, fun _ he => absurd he List.not_mem_nil⟩,
    List.forall_mem_cons.mpr ⟨h.level, h.outer⟩⟩

theorem Feasible.openNamed? (h : r.Feasible) (hr : r.openNamed? text = some r') : r'.Feasible := by
  simp only [Reading.openNamed?, bind, Option.bind_eq_some_iff] at hr
  obtain ⟨⟨name, rest⟩, -, hr⟩ := hr
  split at hr
  · simp only [reduceCtorEq] at hr
  · obtain rfl := Option.some.inj hr
    have hopen : (r.openCapture rest).Feasible := h.openCapture
    exact ⟨hopen.level, hopen.outer⟩

theorem Feasible.group? (h : r.Feasible) (hr : r.group? text = some r') : r'.Feasible := by
  unfold Reading.group? at hr
  split at hr
  iterate 4 simp only [reduceCtorEq] at hr
  · exact h.openNamed? hr
  · exact h.openNamed? hr
  · split at hr
    · obtain rfl := Option.some.inj hr
      exact h.openGroup
    · split at hr
      · simp only [reduceCtorEq] at hr
      · obtain rfl := Option.some.inj hr
        have hadd := h.level.add (e := ⟨.empty, 0, true⟩) trivial
        exact ⟨⟨hadd.finished, hadd.elements⟩, h.outer⟩
    · simp only [reduceCtorEq] at hr
  · obtain rfl := Option.some.inj hr
    exact h.openCapture

theorem Feasible.closeGroup? (h : r.Feasible) (hr : r.closeGroup? rest = some r') :
    r'.Feasible := by
  simp only [Reading.closeGroup?] at hr
  split at hr
  · simp only [reduceCtorEq] at hr
  · next level outer houter =>
    obtain rfl := Option.some.inj hr
    have hlist := h.outer
    rw [houter, List.forall_mem_cons] at hlist
    exact ⟨hlist.1.add h.level.close, hlist.2⟩

theorem Feasible.repetition? (h : r.Feasible) {least : Nat} {most : Option Nat}
    (hcounts : ∀ m, most = some m → least ≤ m) (hr : r.repetition? least most rest = some r') :
    r'.Feasible := by
  simp only [Reading.repetition?, bind, Option.bind_eq_some_iff] at hr
  obtain ⟨level, hlevel, hr⟩ := hr
  obtain rfl := Option.some.inj hr
  exact ⟨h.level.repeat? hcounts hlevel, h.outer⟩

theorem feasible_of_ofChar? {f : Flags} {c : Char} {byte : Bool} {e : Expr}
    (h : f.ofChar? c byte = some e) : e.Feasible := by
  simp only [Flags.ofChar?] at h
  split at h
  · simp only [reduceCtorEq] at h
  · split at h <;> obtain rfl := Option.some.inj h <;> exact trivial

theorem Feasible.atom? (h : r.Feasible) {a : Atom} (hr : r.atom? a rest = some r') :
    r'.Feasible := by
  cases a with
  | char c byte =>
    simp only [Reading.atom?, bind, Option.bind_eq_some_iff] at hr
    obtain ⟨e, he, hr⟩ := hr
    obtain rfl := Option.some.inj hr
    exact h.push (feasible_of_ofChar? he)
  | set s =>
    obtain rfl := Option.some.inj hr
    exact h.push Expr.feasible_ofSet
  | look place =>
    obtain rfl := Option.some.inj hr
    exact h.push trivial

theorem Feasible.step? (h : r.Feasible) {c : Char} (hr : r.step? c rest = some r') :
    r'.Feasible := by
  unfold Reading.step? at hr
  split at hr
  · exact h.group? hr
  · exact h.closeGroup? hr
  · obtain rfl := Option.some.inj hr
    exact ⟨h.level.bar, h.outer⟩
  · simp only [bind, Option.bind_eq_some_iff] at hr
    obtain ⟨set, -, hr⟩ := hr
    obtain rfl := Option.some.inj hr
    exact h.push Expr.feasible_ofSet
  · exact h.repetition? (fun m hm => by omega) hr
  · exact h.repetition? (fun m hm => by simp only [reduceCtorEq] at hm) hr
  · exact h.repetition? (fun m hm => by simp only [reduceCtorEq] at hm) hr
  · simp only [bind, Option.bind_eq_some_iff] at hr
    obtain ⟨⟨least, most, rest⟩, hcounts, hr⟩ := hr
    exact h.repetition? (le_of_counts? hcounts) hr
  · simp only [bind, Option.bind_eq_some_iff] at hr
    obtain ⟨⟨a, rest⟩, -, hr⟩ := hr
    exact h.atom? hr
  · simp only [Flags.dot?, bind, Option.bind_eq_some_iff] at hr
    obtain ⟨e, he, hr⟩ := hr
    obtain rfl := Option.some.inj hr
    split at he
    · simp only [reduceCtorEq] at he
    · obtain rfl := Option.some.inj he
      exact h.push trivial
  · exact h.atom? hr
  · exact h.atom? hr
  · exact h.atom? hr

theorem Feasible.run? {fuel : Nat} (h : r.Feasible) (hr : r.run? fuel = some r') :
    r'.Feasible := by
  induction fuel generalizing r with
  | zero =>
    unfold Reading.run? at hr
    cases hskip : r.level.flags.skip r.rest with
    | nil =>
      obtain rfl : r = r' := by simpa only [hskip, Option.some.injEq] using hr
      exact h
    | cons c rest => simp only [hskip, reduceCtorEq] at hr
  | succ fuel ih =>
    unfold Reading.run? at hr
    cases hskip : r.level.flags.skip r.rest with
    | nil =>
      obtain rfl : r = r' := by simpa only [hskip, Option.some.injEq] using hr
      exact h
    | cons c rest =>
      simp only [hskip, Option.bind_eq_some_iff] at hr
      obtain ⟨next, hnext, hr⟩ := hr
      exact ih (h.step? hnext) hr

end Reading

theorem Expr.feasible_of_read? {pattern : String} {e : Expr} (h : read? pattern = some e) :
    e.Feasible := by
  simp only [read?, bind, Option.bind_eq_some_iff] at h
  obtain ⟨r, hr, h⟩ := h
  have hstart : Reading.Feasible { level := { flags := {} }, rest := pattern.toList } :=
    ⟨⟨fun _ hb => absurd hb List.not_mem_nil, fun _ he => absurd he List.not_mem_nil⟩,
      fun _ hl => absurd hl List.not_mem_nil⟩
  split at h
  · obtain rfl := Option.some.inj h
    exact (hstart.run? hr).level.body
  · simp only [reduceCtorEq] at h

end Percolator.Pattern
