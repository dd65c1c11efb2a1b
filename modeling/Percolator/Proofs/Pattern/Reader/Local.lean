import Percolator.Proofs.Pattern.Reader.Steps

/-!
# One step of reading in front of a parenthesis

A step takes the same from a text whatever stands behind a closing parenthesis that follows it,
unless the text ends in a comment. A word edge with a brace that only blanks and comments follow is
an exception: such a step fails at the end of the text, but may leave the brace where a parenthesis
follows. Groups that are open around the text change nothing, unless a parenthesis closes one.

## Main definitions

* `Reading.on` : the state with another text to read.
* `Reading.within` : the state with further groups around.
* `Reading.Unnumbered` : the outermost group is not one that captures what it matches.

## Main results

* `Reading.step?_append` : a step from the text alone, with a parenthesis behind it.
* `Reading.step?_of_append` : a step that leaves the parenthesis, without the parenthesis.
* `Reading.step?_within` : a step within further groups.
-/

namespace Percolator.Pattern

open Reader

variable {text rest more : List Char} {f : Flags} {c : Char} {r s : Reading} {o : List Level}

namespace Reading

/-- Reading a text in the given state. -/
def on (r : Reading) (text : List Char) : Reading := { r with rest := text }

/-- The state with further groups around all that are open. -/
def within (r : Reading) (o : List Level) : Reading := { r with outer := r.outer ++ o }

theorem into_eq_some {step : List Char → Option Reading} (h : step text = some s) :
    into step text = some (s.on [], s.rest) := by
  rw [into, h]
  rfl

theorem eq_some_of_into {step : List Char → Option Reading} {x : Reading × List Char}
    (h : into step text = some x) : step text = some (x.1.on x.2) := by
  obtain ⟨s, hs, rfl⟩ := Option.map_eq_some_iff.mp h
  exact hs

theorem step?_suffix (h : r.step? c text = some s) : s.rest <:+ text := by
  have hinto := into_eq_some h
  by_cases hc : c = '\\'
  · subst hc
    rw [into_step?_escape] at hinto
    exact ((shortens_escape? r.level.flags).andThen fun a => (tame_atom? r a).shortens) text _ hinto
  · exact (tame_step? hc).shortens text _ hinto

/-- The step begins with `\b` and a brace that only blanks and comments follow. -/
def Dangles (r : Reading) (c : Char) (text : List Char) : Prop :=
  c = '\\' ∧ ∃ t, text = 'b' :: '\x7b' :: t ∧ r.level.flags.skip t = []

theorem local_step? (h : ¬r.Dangles c text) : Local (into (r.step? c)) text := by
  by_cases hc : c = '\\'
  · subst hc
    rw [into_step?_escape]
    refine .andThen (shortens_escape? _) (local_escape? fun t ht hskip => ?_) ?_ ?_
    · exact h ⟨rfl, t, ht, hskip⟩
    · exact fun a => (tame_atom? r a).shortens
    · exact fun a rest _ => (tame_atom? r a).isLocal rest
  · exact (tame_step? hc).isLocal text

theorem step?_of_dangles (h : r.Dangles c text) : r.step? c text = none := by
  obtain ⟨rfl, t, rfl, ht⟩ := h
  have hedge : escape? r.level.flags ('b' :: '\x7b' :: t) = none := edge?_dangling ht
  rw [step?, hedge]
  rfl

/-- A step takes the same from the text whatever follows it, or the text ends in a comment. -/
theorem step?_append (h : r.step? c text = some s) :
    (∀ more, r.step? c (text ++ ')' :: more) = some (s.on (s.rest ++ ')' :: more))) ∨
      '#' ∈ text ∧ s.rest = [] ∧
        ∀ more, '\n' ∉ more → r.step? c (text ++ ')' :: more) = some s := by
  have hdangles : ¬r.Dangles c text := fun hd => by
    rw [step?_of_dangles hd] at h
    exact Option.some_ne_none s h.symm
  have hinto := into_eq_some h
  rcases local_step? hdangles with ⟨x, hx, hkeep⟩ | ⟨hle, hhides⟩
  · obtain rfl := Option.some.inj (hinto.symm.trans hx)
    exact .inl fun more => eq_some_of_into (hkeep more)
  · obtain ⟨hsign, hhides⟩ := hhides _ hinto
    have hrest := hle [] _ (hhides [] List.not_mem_nil)
    refine .inr ⟨hsign, List.eq_nil_of_length_eq_zero (Nat.le_zero.mp hrest), fun more hm => ?_⟩
    exact eq_some_of_into (hhides more hm)

/-- A step that leaves the parenthesis behind the text reads the text alone in the same way, unless
it leaves a dangling brace. -/
theorem step?_of_append (h : r.step? c (text ++ ')' :: more) = some s)
    (hrest : s.rest = rest ++ ')' :: more) :
    (r.step? c text = some (s.on rest) ∧
      ∀ more, r.step? c (text ++ ')' :: more) = some (s.on (rest ++ ')' :: more))) ∨
      s.level.flags = r.level.flags ∧ ∃ t, rest = '\x7b' :: t ∧ s.level.flags.skip t = [] := by
  have hinto := into_eq_some h
  by_cases hdangles : r.Dangles c text
  · obtain ⟨rfl, t, rfl, ht⟩ := hdangles
    rw [into_step?_escape] at hinto
    obtain ⟨a, behind, ha, hbehind⟩ := andThen_eq_some_iff.mp hinto
    have hedge : edge? r.level.flags ('\x7b' :: t ++ ')' :: more) = some (a, behind) := ha
    obtain ⟨place, rfl⟩ := exists_look_of_edge? hedge
    obtain ⟨hs, rfl⟩ := Prod.mk.inj (Option.some.inj hbehind)
    have hflags : s.level.flags = r.level.flags := (congrArg (·.level.flags) hs).symm
    refine .inr ⟨hflags, t, ?_, hflags ▸ ht⟩
    rcases edge?_dangling_append ht hedge with hleft | hle
    · exact List.append_cancel_right (hrest.symm.trans hleft)
    · rw [hrest, List.length_append, List.length_cons] at hle
      omega
  · rcases local_step? hdangles with ⟨x, hx, hkeep⟩ | ⟨hle, -⟩
    · obtain ⟨hs, hbehind⟩ := Prod.mk.inj (Option.some.inj (hinto.symm.trans (hkeep more)))
      obtain rfl := List.append_cancel_right (hrest.symm.trans hbehind)
      have hstate : ∀ t, x.1.on t = s.on t := fun t => by rw [← hs]; rfl
      refine .inl ⟨?_, fun more' => ?_⟩
      · rw [eq_some_of_into hx, hstate]
      · rw [eq_some_of_into (hkeep more'), hstate]
    · have hlength := hle more _ hinto
      rw [hrest, List.length_append, List.length_cons] at hlength
      omega

/-! ### Groups around -/

@[simp]
theorem within_level (r : Reading) (o : List Level) : (r.within o).level = r.level := rfl

theorem openNamed?_within (r : Reading) (o : List Level) (text : List Char) :
    (r.within o).openNamed? text = (r.openNamed? text).map (within · o) := by
  simp only [openNamed?]
  cases groupName? text with
  | none => rfl
  | some x =>
    simp only [Option.bind_eq_bind, Option.bind_some]
    rw [apply_ite (Option.map (within · o))]
    rfl

theorem group?_within (r : Reading) (o : List Level) (text : List Char) :
    (r.within o).group? text = (r.group? text).map (within · o) := by
  unfold group?
  split
  · rfl
  · rfl
  · rfl
  · rfl
  · exact openNamed?_within r o _
  · exact openNamed?_within r o _
  · rw [within_level]
    split
    · rfl
    · split_ifs <;> rfl
    · rfl
  · rfl

theorem repetition?_within (r : Reading) (o : List Level) (least : Nat) (most : Option Nat)
    (text : List Char) :
    (r.within o).repetition? least most text =
      (r.repetition? least most text).map (within · o) := by
  simp only [repetition?, Option.bind_eq_bind, Option.map_bind]
  rfl

theorem atom?_within (r : Reading) (o : List Level) (a : Atom) (text : List Char) :
    (r.within o).atom? a text = (r.atom? a text).map (within · o) := by
  cases a with
  | char c byte =>
    have hbind : r.atom? (.char c byte) text = (r.level.flags.ofChar? c byte).bind fun e =>
      some (r.push ⟨e, 0, false⟩ text) := rfl
    rw [hbind, Option.map_bind]
    rfl
  | set s => rfl
  | look place => rfl

theorem closeGroup?_within (r : Reading) (h : r.outer ≠ []) (o : List Level) (text : List Char) :
    (r.within o).closeGroup? text = (r.closeGroup? text).map (within · o) := by
  cases houter : r.outer with
  | nil => exact absurd houter h
  | cons level outer => simp only [closeGroup?, within, houter, List.cons_append, Option.map_some]

theorem step?_within (h : c = ')' → r.outer ≠ []) (o : List Level) (text : List Char) :
    (r.within o).step? c text = (r.step? c text).map (within · o) := by
  by_cases hc : c ∈ ['(', ')', '|', '[', '?', '*', '+', '\x7b', '\\', '.', '^', '$']
  · simp only [List.mem_cons, List.not_mem_nil, or_false] at hc
    rcases hc with rfl | rfl | rfl | rfl | rfl | rfl | rfl | rfl | rfl | rfl | rfl | rfl
    · exact group?_within r o _
    · exact closeGroup?_within r (h rfl) o text
    · rfl
    · rw [step?, step?, within_level]
      cases bracketed? r.level.flags text <;> rfl
    · exact repetition?_within r o 0 (some 1) text
    · exact repetition?_within r o 0 none text
    · exact repetition?_within r o 1 none text
    · rw [step?, step?, within_level]
      cases counts? r.level.flags text with
      | none => rfl
      | some x => exact repetition?_within r o x.1 x.2.1 _
    · rw [step?, step?, within_level]
      cases escape? r.level.flags text with
      | none => rfl
      | some x => exact atom?_within r o x.1 x.2
    · rw [step?, step?, within_level]
      cases r.level.flags.dot? <;> rfl
    · exact atom?_within r o (.look r.level.flags.caret) text
    · exact atom?_within r o (.look r.level.flags.dollar) text
  · rw [step?_of_plain hc, step?_of_plain hc]
    exact atom?_within r o (.char c false) text

/-! ### Numbers of groups -/

/-- The numbers of all groups that are open, the innermost first. -/
def numbers (r : Reading) : List (Option Nat) := (r.level :: r.outer).map (·.number)

theorem numbers_of_openNamed? (h : r.openNamed? text = some s) :
    ∃ n, s.numbers = n :: r.numbers := by
  simp only [openNamed?, bind, Option.bind_eq_some_iff] at h
  obtain ⟨x, -, h⟩ := h
  split_ifs at h
  obtain rfl := Option.some.inj h
  exact ⟨_, rfl⟩

theorem numbers_of_group? (h : r.group? text = some s) :
    s.numbers = r.numbers ∨ ∃ n, s.numbers = n :: r.numbers := by
  unfold group? at h
  split at h
  iterate 4 simp only [reduceCtorEq] at h
  · exact .inr (numbers_of_openNamed? h)
  · exact .inr (numbers_of_openNamed? h)
  · split at h
    · obtain rfl := Option.some.inj h
      exact .inr ⟨_, rfl⟩
    · split_ifs at h
      obtain rfl := Option.some.inj h
      exact .inl rfl
    · simp only [reduceCtorEq] at h
  · obtain rfl := Option.some.inj h
    exact .inr ⟨_, rfl⟩

theorem numbers_of_closeGroup? (h : r.closeGroup? text = some s) :
    ∃ n, r.numbers = n :: s.numbers := by
  unfold closeGroup? at h
  split at h
  · simp only [reduceCtorEq] at h
  · next level outer houter =>
    obtain rfl := Option.some.inj h
    exact ⟨r.level.number, by simp only [numbers, houter, List.map_cons, Level.add]⟩

theorem numbers_of_repetition? {least : Nat} {most : Option Nat}
    (h : r.repetition? least most text = some s) : s.numbers = r.numbers := by
  simp only [repetition?, bind, Option.bind_eq_some_iff] at h
  obtain ⟨level, hlevel, h⟩ := h
  obtain rfl := Option.some.inj h
  have hnumber : level.number = r.level.number := by
    unfold Level.repeat? at hlevel
    split at hlevel
    · split_ifs at hlevel
      rw [← Option.some.inj hlevel]
    · simp only [reduceCtorEq] at hlevel
  simp only [numbers, List.map_cons, hnumber]

theorem numbers_of_atom? {a : Atom} (h : r.atom? a text = some s) : s.numbers = r.numbers := by
  cases a with
  | char c byte =>
    simp only [atom?, bind, Option.bind_eq_some_iff] at h
    obtain ⟨e, -, h⟩ := h
    obtain rfl := Option.some.inj h
    rfl
  | set chars =>
    obtain rfl := Option.some.inj h
    rfl
  | look place =>
    obtain rfl := Option.some.inj h
    rfl

/-- A step opens a group, or closes one, or stays in the groups that are open. -/
theorem numbers_of_step? (h : r.step? c text = some s) :
    s.numbers = r.numbers ∨ (∃ n, s.numbers = n :: r.numbers) ∨
      ∃ n, r.numbers = n :: s.numbers := by
  unfold step? at h
  split at h
  · exact (numbers_of_group? h).imp_right .inl
  · exact .inr (.inr (numbers_of_closeGroup? h))
  · obtain rfl := Option.some.inj h
    exact .inl rfl
  · simp only [bind, Option.bind_eq_some_iff] at h
    obtain ⟨set, -, h⟩ := h
    obtain rfl := Option.some.inj h
    exact .inl rfl
  · exact .inl (numbers_of_repetition? h)
  · exact .inl (numbers_of_repetition? h)
  · exact .inl (numbers_of_repetition? h)
  · simp only [bind, Option.bind_eq_some_iff] at h
    obtain ⟨counts, -, h⟩ := h
    exact .inl (numbers_of_repetition? h)
  · simp only [bind, Option.bind_eq_some_iff] at h
    obtain ⟨x, -, h⟩ := h
    exact .inl (numbers_of_atom? h)
  · simp only [bind, Option.bind_eq_some_iff] at h
    obtain ⟨e, -, h⟩ := h
    obtain rfl := Option.some.inj h
    exact .inl rfl
  · exact .inl (numbers_of_atom? h)
  · exact .inl (numbers_of_atom? h)
  · exact .inl (numbers_of_atom? h)

/-- The outermost group has no number. -/
def Unnumbered (r : Reading) : Prop := r.numbers.getLast? = some none

theorem Unnumbered.step? (hr : r.Unnumbered) (h : r.step? c text = some s) : s.Unnumbered := by
  have hne : ∀ (t : Reading) n, (n :: t.numbers).getLast? = t.numbers.getLast? := fun _ _ => rfl
  unfold Unnumbered at hr ⊢
  rcases numbers_of_step? h with heq | ⟨n, heq⟩ | ⟨n, heq⟩
  · rwa [heq]
  · rwa [heq, hne]
  · rwa [heq, hne] at hr

end Reading
end Percolator.Pattern
