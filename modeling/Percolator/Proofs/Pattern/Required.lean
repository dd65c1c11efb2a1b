import Mathlib.Data.List.Infix
import Percolator.Presearch.Extraction
import Percolator.Proofs.Pattern.Language

/-!
# Every match contains the required text

What `Expr.required` computes is true of the text that stands between the places of a match: a text
that is the only one is this text, and the longest text stands in it. A sequence adds what is known
of its parts to what is known of the text in front of them, whatever that is.

## Main definitions

* `Pattern.Required.Allows`, `Pattern.RequiredRun.Allows` : what is known is true of a text.

## Main results

* `Pattern.Expr.Matches.exists_allows` : what is known of an expression is true of what it matches.
* `Extractor.regexpText_sound` : the text of a pattern stands in all that the pattern matches.
-/

namespace Percolator.Pattern

variable {text : Array Char} {i j : Nat} {s t : List Char}

/-! ### What is known of a text -/

namespace Required

/-- What is known is true of a text. -/
structure Allows (r : Required) (s : List Char) : Prop where
  exact_eq : ∀ t, r.exact = some t → s = t
  isInfix_longest : r.longest <:+: s

theorem Allows.nothing (s : List Char) : Required.nothing.Allows s :=
  ⟨fun _ h => by simp only [Required.nothing, reduceCtorEq] at h, List.nil_infix⟩

theorem Allows.only (s : List Char) : (Required.only s).Allows s :=
  ⟨fun _ h => Option.some.inj h, List.infix_refl s⟩

/-- The text is made of `n` texts of which what is known is true. -/
def Repeats (r : Required) (n : Nat) (s : List Char) : Prop :=
  ∃ parts : List (List Char), parts.length = n ∧ (∀ part ∈ parts, r.Allows part) ∧
    s = parts.flatten

theorem Repeats.zero (r : Required) : r.Repeats 0 [] :=
  ⟨[], rfl, fun _ h => absurd h List.not_mem_nil, rfl⟩

theorem Repeats.cons {r : Required} {n : Nat} (hs : r.Allows s) (ht : r.Repeats n t) :
    r.Repeats (n + 1) (s ++ t) := by
  obtain ⟨parts, hlength, hparts, rfl⟩ := ht
  exact ⟨s :: parts, congrArg (· + 1) hlength, List.forall_mem_cons.mpr ⟨hs, hparts⟩, rfl⟩

theorem Repeats.isInfix_longest {r : Required} {n : Nat} (h : r.Repeats (n + 1) s) :
    r.longest <:+: s := by
  obtain ⟨_ | ⟨part, parts⟩, hlength, hparts, rfl⟩ := h
  · simp only [List.length_nil, Nat.right_eq_add, Nat.add_eq_zero_iff, Nat.succ_ne_self,
      and_false] at hlength
  · exact (hparts part List.mem_cons_self).isInfix_longest.trans
      (List.prefix_append _ _).isInfix

theorem Repeats.allows {r : Required} (h : r.Repeats 1 s) : r.Allows s := by
  obtain ⟨parts, hlength, hparts, rfl⟩ := h
  obtain ⟨part, rfl⟩ := List.length_eq_one_iff.mp hlength
  simpa only [List.flatten_singleton] using hparts part (List.mem_singleton.mpr rfl)

end Required

namespace RequiredRun

/-- What is known of the parts so far is true of the text that they read. -/
structure Allows (r : RequiredRun) (s : List Char) : Prop where
  run_eq : r.allExact = true → s = r.run
  isInfix_best : r.best <:+: s
  isSuffix_run : r.run <:+ s

theorem Allows.empty : ({} : RequiredRun).Allows [] :=
  ⟨fun _ => rfl, List.nil_infix, List.nil_suffix⟩

theorem Allows.add {r : RequiredRun} {part : Required} (hr : r.Allows s) (hpart : part.Allows t) :
    (r.add part).Allows (s ++ t) := by
  have hbest : r.best <:+: s ++ t := hr.isInfix_best.trans (List.prefix_append s t).isInfix
  cases hexact : part.exact with
  | some text =>
    have ht : t = text := hpart.exact_eq text hexact
    subst ht
    simp only [RequiredRun.add, hexact]
    refine ⟨fun hall => by rw [hr.run_eq hall], hbest, ?_⟩
    obtain ⟨front, hfront⟩ := hr.isSuffix_run
    exact ⟨front, by rw [← List.append_assoc, hfront]⟩
  | none =>
    simp only [RequiredRun.add, hexact]
    refine ⟨fun hall => by simp only [Bool.false_eq_true] at hall, ?_, List.nil_suffix⟩
    refine Text.isInfix_longer (Text.isInfix_longer hbest ?_) ?_
    · exact hr.isSuffix_run.isInfix.trans (List.prefix_append s t).isInfix
    · exact hpart.isInfix_longest.trans (List.suffix_append s t).isInfix

theorem Allows.finish {r : RequiredRun} (h : r.Allows s) : r.finish.Allows s := by
  refine ⟨fun t ht => ?_, Text.isInfix_longer h.isInfix_best h.isSuffix_run.isInfix⟩
  simp only [RequiredRun.finish] at ht
  split at ht
  · next hall => rw [h.run_eq hall, Option.some.inj ht]
  · simp only [reduceCtorEq] at ht

end RequiredRun

/-! ### Matches -/

/-- Steps that each read an allowed text read a text that is made of allowed ones. -/
theorem Times.exists_repeats {R : Nat → Nat → Prop} {r : Required} {n : Nat}
    (hR : ∀ i j, R i j → ∃ s, Between text i j s ∧ r.Allows s) (h : Times R n i j) :
    ∃ s, Between text i j s ∧ r.Repeats n s := by
  induction n generalizing i with
  | zero =>
    obtain rfl := h
    exact ⟨[], .refl text i, .zero r⟩
  | succ n ih =>
    obtain ⟨k, hk, hrest⟩ := h
    obtain ⟨s, hs, hallows⟩ := hR i k hk
    obtain ⟨t, ht, hrepeats⟩ := ih hrest
    exact ⟨s ++ t, hs.trans ht, .cons hallows hrepeats⟩

namespace Expr

/-- What is known of a repetition is true of as many matches of the body as the repetition
admits. -/
theorem allows_repetition {least n : Nat} {most : Option Nat} {greedy : Bool} {body : Expr}
    (hleast : least ≤ n) (hmost : ∀ m, most = some m → n ≤ m)
    (hrepeats : body.required.Repeats n s) :
    (required (.repetition least most greedy body)).Allows s := by
  rw [required]
  split
  · exact .nothing s
  · next hzero =>
    split
    · -- The body is matched once, so all that is known of it is true.
      next hone =>
      have hn : n = 1 := Nat.le_antisymm (hmost 1 hone) (by omega)
      exact (hn ▸ hrepeats).allows
    · obtain ⟨m, rfl⟩ := Nat.exists_eq_succ_of_ne_zero (show n ≠ 0 by omega)
      exact ⟨fun _ h => by simp only [reduceCtorEq] at h, hrepeats.isInfix_longest⟩

mutual

/-- What is known of an expression is true of the text that it matches. -/
theorem Matches.exists_allows : (e : Expr) → {i j : Nat} → e.Matches text i j →
    ∃ s, Between text i j s ∧ e.required.Allows s
  | .empty, i, _, h => ⟨[], h ▸ .refl text i, .only []⟩
  | .literal s, i, _, h => ⟨s, h.2 ▸ .of_standsAt s i h.1, .only s⟩
  | .oneOf _ _, i, _, h => by
    obtain ⟨⟨c, hc, -⟩, rfl⟩ := h
    exact ⟨[c], .of_getElem? hc, .nothing [c]⟩
  | .look _, i, _, h => ⟨[], h.2 ▸ .refl text i, .only []⟩
  | .repetition _ _ _ body, _, _, h => by
    obtain ⟨n, hleast, hmost, htimes⟩ := h
    obtain ⟨s, hs, hrepeats⟩ := htimes.exists_repeats fun _ _ => Matches.exists_allows body
    exact ⟨s, hs, allows_repetition hleast hmost hrepeats⟩
  | .group _ body, _, _, h => Matches.exists_allows body h
  | .concat parts, _, _, h => by
    obtain ⟨s, hs, hallows⟩ := MatchesAll.exists_allows parts h
    exact ⟨s, hs, (hallows {} [] .empty).finish⟩
  | .alternation choices, _, _, h => by
    obtain ⟨s, hs⟩ := MatchesAny.exists_between choices h
    exact ⟨s, hs, .nothing s⟩

/-- A sequence adds what is known of its parts to what is known of the text in front of them. -/
theorem MatchesAll.exists_allows : (es : List Expr) → {i j : Nat} → MatchesAll text es i j →
    ∃ s, Between text i j s ∧
      ∀ r t, RequiredRun.Allows r t → (requiredOfAll es r).Allows (t ++ s)
  | [], i, _, h => ⟨[], h ▸ .refl text i, fun r t ht => by rwa [requiredOfAll, List.append_nil]⟩
  | e :: rest, _, _, h => by
    obtain ⟨k, he, hrest⟩ := h
    obtain ⟨s, hs, hallows⟩ := Matches.exists_allows e he
    obtain ⟨t, ht, hallowsRest⟩ := MatchesAll.exists_allows rest hrest
    refine ⟨s ++ t, hs.trans ht, fun r front hr => ?_⟩
    rw [← List.append_assoc]
    exact hallowsRest _ _ (hr.add hallows)

/-- A match of one of several expressions reads a text. -/
theorem MatchesAny.exists_between : (es : List Expr) → {i j : Nat} → MatchesAny text es i j →
    ∃ s, Between text i j s
  | e :: _, _, _, .inl h => by
    obtain ⟨s, hs, -⟩ := Matches.exists_allows e h
    exact ⟨s, hs⟩
  | _ :: rest, _, _, .inr h => MatchesAny.exists_between rest h

end

/-- An expression with a text that is the only one matches no other text. -/
theorem Matches.toList_extract {e : Expr} (h : e.Matches text i j)
    (ht : e.required.exact = some t) : (text.extract i j).toList = t := by
  obtain ⟨s, hs, hallows⟩ := Matches.exists_allows e h
  rw [hs.toList_extract, hallows.exact_eq t ht]

/-- A text that an expression matches from its beginning to its end contains the longest text. -/
theorem MatchesText.isInfix_longest {e : Expr} (h : e.MatchesText text) :
    e.required.longest <:+: text.toList := by
  obtain ⟨s, hs, hallows⟩ := Matches.exists_allows e h
  rw [Between, List.drop_zero, ← Array.length_toList, List.drop_length, List.append_nil] at hs
  rw [hs]
  exact hallows.isInfix_longest

end Expr

end Percolator.Pattern

namespace Percolator.Extractor

open Pattern

/-- The text of a pattern that can be read stands in every text that the pattern matches from its
beginning to its end. Where a text is the only one of an expression, such as a part of a pattern,
the expression matches no other text, wherever it is tried. -/
theorem regexpText_sound {pattern : String} {e : Expr} (h : Expr.read? pattern = some e) :
    ∃ required, regexpText? pattern = some required ∧
      (∀ text, e.MatchesText text → required.toList <:+: text.toList) ∧
      ∀ (part : Expr) (only : List Char), part.required.exact = some only →
        ∀ text i j, part.Matches text i j → (text.extract i j).toList = only := by
  refine ⟨String.ofList e.required.longest, by rw [regexpText?, h]; rfl, fun text htext => ?_,
    fun part only honly text i j hpart => hpart.toList_extract honly⟩
  rw [String.toList_ofList]
  exact htext.isInfix_longest

/-- A group that is repeated, between two characters. -/
def repeatedGroup : Expr :=
  .concat [.literal ['x'], .repetition 1 none true (.group 0 (.literal ['a', 'b', 'c'])),
    .literal ['y']]

/-- The group stands in a text with two repetitions of it. -/
theorem regexpText_sound_repeatedGroup : Expr.read? "x(abc)+y" = some repeatedGroup ∧
    repeatedGroup.MatchesText "xabcabcy".toList.toArray ∧
    ∃ required, regexpText? "x(abc)+y" = some required ∧
      (∀ text, repeatedGroup.MatchesText text → required.toList <:+: text.toList) ∧
      ∀ (part : Expr) (only : List Char), part.required.exact = some only →
        ∀ text i j, part.Matches text i j → (text.extract i j).toList = only := by
  have hread : Expr.read? "x(abc)+y" = some repeatedGroup := rfl
  have htwice : (Expr.repetition 1 none true (.group 0 (.literal ['a', 'b', 'c']))).Matches
      "xabcabcy".toList.toArray 1 7 :=
    ⟨2, by decide, fun _ h => by simp only [reduceCtorEq] at h, 4, ⟨rfl, rfl⟩, 7, ⟨rfl, rfl⟩, rfl⟩
  exact ⟨hread, ⟨1, ⟨rfl, rfl⟩, 7, htwice, 8, ⟨rfl, rfl⟩, rfl⟩, regexpText_sound hread⟩

end Percolator.Extractor
