import Percolator.Pattern.Bracket
import Percolator.Proofs.Pattern.Reader.Escapes

/-!
# The readers of bracketed sets

The readers of bracketed sets look ahead, and some fail at the end of the text where a parenthesis
behind it would let them go on. This makes no difference to the whole bracket, since nothing closes
it then. So they are replaced by readers that do not look for the end of the text.

## Main results

* `Pattern.tame_element?` : elements that are not conditions on a place.
* `Pattern.tame_brackets?`, `Pattern.tame_bracketed?` : bracketed sets, with and without fuel.
-/

namespace Percolator.Pattern

open Reader

variable {α : Type} {text rest : List Char} {f : Flags} {c : Char} {next : Atom → Reader α}

/-! ### Elements -/

theorem exists_look_of_edge? {x : Atom × List Char} (h : edge? f text = some x) :
    ∃ place, x.1 = .look place := by
  unfold edge? at h
  split at h
  · split at h
    · simp only [reduceCtorEq] at h
    · split_ifs at h
      · split at h
        · obtain ⟨place, -, rfl⟩ := Option.map_eq_some_iff.mp h
          exact ⟨place, rfl⟩
        · simp only [reduceCtorEq] at h
      · rw [← Option.some.inj h]
        exact ⟨_, rfl⟩
  · rw [← Option.some.inj h]
    exact ⟨_, rfl⟩

/-- An element is read in the same way whatever follows it, if it is not a condition on a place. -/
theorem tame_element?_cons (hlook : ∀ place, next (.look place) = fail) (h : ∀ a, Tame (next a))
    (c : Char) : Tame fun t => andThen (element? f) next (c :: t) := by
  by_cases hc : c = '\\'
  · subst hc
    refine .of_cons rfl fun d => ?_
    by_cases hd : d = 'b'
    · have hfail : (fun t => andThen (element? f) next ('\\' :: d :: t)) = fail := by
        funext t
        rw [hd]
        refine Option.bind_eq_none_iff.mpr fun x hx => ?_
        obtain ⟨place, hplace⟩ := exists_look_of_edge? hx
        rw [hplace, hlook]
        rfl
      rw [hfail]
      exact .fail
    · exact (tame_escape? hd).andThen h
  · have hplain : (fun t => andThen (element? f) next (c :: t)) = next (.char c false) := by
      funext t
      simp only [andThen, element?, Option.bind_some]
    rw [hplain]
    exact h _

theorem tame_element? (hlook : ∀ place, next (.look place) = fail) (h : ∀ a, Tame (next a)) :
    Tame (andThen (element? f) next) :=
  .of_cons rfl (tame_element?_cons hlook h)

theorem findNext_append (sign : Bool) (text more : List Char) :
    peekBehind.findNext sign (text ++ ')' :: more) =
      some ((peekBehind.findNext sign text).getD ')') := by
  induction text generalizing sign with
  | nil =>
    have hblank : ¬Unicode.isBlank ')' := ne_true_of_eq_false isBlank_paren
    have hsign : ¬(')' = '#' ∧ (!sign) = true) := fun h => absurd h.1 (by decide)
    simp only [List.nil_append, peekBehind.findNext, if_neg hblank, if_neg hsign, Option.getD_none]
  | cons c rest ih =>
    simp only [List.cons_append, peekBehind.findNext]
    split_ifs
    · exact ih sign
    · exact ih true
    · rfl

/-- The hyphen in front of the text is an element, and does not stand in a range. -/
def isLoneHyphen (f : Flags) (text : List Char) : Bool :=
  peekBehind f ('-' :: text) = some ']' ∨ peekBehind f ('-' :: text) = some '-'

theorem isLoneHyphen_append (f : Flags) (text more : List Char) :
    isLoneHyphen f (text ++ ')' :: more) = isLoneHyphen f text := by
  have hpeek : peekBehind f ('-' :: (text ++ ')' :: more)) =
      some ((peekBehind f ('-' :: text)).getD ')') := by
    simp only [peekBehind, List.drop_one, List.tail_cons]
    split_ifs
    · exact findNext_append false text more
    · cases text <;> rfl
  rw [isLoneHyphen, isLoneHyphen, hpeek]
  cases peekBehind f ('-' :: text) with
  | none => rfl
  | some d => rfl

/-- Reads on from the first element of a range, or from an element that stands alone. Unlike
`elementOrRange?`, it does not fail at the end of the text. -/
def rangeFrom (f : Flags) (first : Atom) : Reader CharSet :=
  skipping f (peeking '-' (fun t => !isLoneHyphen f t)
    (skipping f (andThen (element? f) fun last => given (first.range? f last) leave))
    (given (first.member? f) leave))

theorem tame_rangeFrom (first : Atom) : Tame (rangeFrom f first) := by
  refine .skipping f (.peeking (by decide) (fun t more => by rw [isLoneHyphen_append]) ?_ ?_)
  · refine .skipping f (tame_element? (fun place => ?_) fun last => .given .leave)
    cases first <;> rfl
  · exact .given .leave

theorem rangeFrom_look (f : Flags) (place : Look) : rangeFrom f (.look place) = fail := by
  funext t
  simp only [rangeFrom, skipping, peeking]
  split_ifs
  · refine Option.bind_eq_none_iff.mpr fun x _ => ?_
    rfl
  · rfl

theorem elementOrRange?_eq (f : Flags) (t : List Char) :
    elementOrRange? f t = (element? f t).bind fun x =>
      if f.skip x.2 = [] then none else rangeFrom f x.1 x.2 := by
  unfold elementOrRange?
  refine congrArg (Option.bind (element? f t)) (funext fun x => ?_)
  obtain ⟨first, rest⟩ := x
  simp only
  cases hs : f.skip rest with
  | nil => rfl
  | cons c behind =>
    rw [if_neg (List.cons_ne_nil c behind), rangeFrom, skipping, hs, peeking_cons]
    by_cases hc : c = '-'
    · subst hc
      have hiff : isLoneHyphen f behind = true ↔
          peekBehind f ('-' :: behind) = some ']' ∨ peekBehind f ('-' :: behind) = some '-' :=
        decide_eq_true_iff
      by_cases hlone : isLoneHyphen f behind
      · rw [if_neg (by simp [hlone])]
        exact if_pos (hiff.mp hlone)
      · rw [if_pos ⟨rfl, by simp [hlone]⟩]
        refine (if_neg (mt hiff.mpr hlone)).trans ?_
        rw [skipping]
        cases f.skip behind with
        | nil => rfl
        | cons d behind => rfl
    · rw [if_neg fun h => hc h.1]
      simp [given, leave, hc]

/-- Whether the element ends the text makes no difference where a reader follows that fails
there. -/
theorem elementOrRange?_andThen {next : CharSet → Reader α} (h : ∀ s, next s [] = none) :
    andThen (elementOrRange? f) next = andThen (andThen (element? f) (rangeFrom f)) next := by
  funext t
  simp only [andThen, elementOrRange?_eq, Option.bind_assoc]
  refine congrArg (Option.bind (element? f t)) (funext fun x => ?_)
  by_cases hs : f.skip x.2 = []
  · have hlast : rangeFrom f x.1 x.2 = given (x.1.member? f) leave [] := by
      rw [rangeFrom, skipping, hs]
      rfl
    rw [if_pos hs, hlast]
    cases x.1.member? f with
    | none => rfl
    | some s => exact (h s).symm
  · rw [if_neg hs]

theorem tame_elementOrRange?_cons {next : CharSet → Reader α} (hnil : ∀ s, next s [] = none)
    (h : ∀ s, Tame (next s)) (c : Char) :
    Tame fun t => andThen (elementOrRange? f) next (c :: t) := by
  rw [elementOrRange?_andThen hnil]
  have hassoc : andThen (andThen (element? f) (rangeFrom f)) next =
      andThen (element? f) fun first => andThen (rangeFrom f first) next :=
    funext fun t => Option.bind_assoc _ _ _
  rw [hassoc]
  refine tame_element?_cons (fun place => ?_) (fun first => (tame_rangeFrom first).andThen h) c
  rw [rangeFrom_look]
  rfl

theorem shortens_elementOrRange?_cons (f : Flags) (c : Char) :
    Shortens fun t => elementOrRange? f (c :: t) := by
  have hlax := tame_element?_cons (f := f) (rangeFrom_look f) tame_rangeFrom c
  intro text x hx
  refine hlax.shortens text x ?_
  simp only [elementOrRange?_eq] at hx
  obtain ⟨y, hy, hx⟩ := Option.bind_eq_some_iff.mp hx
  refine Option.bind_eq_some_iff.mpr ⟨y, hy, ?_⟩
  by_cases hs : f.skip y.2 = []
  · rw [if_pos hs] at hx
    simp only [reduceCtorEq] at hx
  · rwa [if_neg hs] at hx

/-! ### Named classes -/

/-- No name of a class contains a parenthesis. -/
theorem asciiClass?_eq_none {name : List Char} (h : ')' ∈ name) :
    asciiClass? (String.ofList name) = none := by
  unfold asciiClass?
  split
  case h_15 => rfl
  all_goals
    next hname =>
      have hlist := congrArg String.toList hname
      rw [String.toList_ofList] at hlist
      rw [hlist] at h
      exact absurd h (by decide)

/-- Reads the name of a class and what closes it. -/
def className (f : Flags) (negated : Bool) (text : List Char) :
    Option (Option CharSet × List Char) :=
  match text.dropWhile (· != ':') with
  | ':' :: ']' :: behind =>
    (asciiClass? (String.ofList (text.takeWhile (· != ':')))).map fun s =>
      (f.close? negated s, behind)
  | _ => none

theorem className_append (f : Flags) (negated : Bool) (text more : List Char) :
    className f negated (text ++ ')' :: more) =
      (className f negated text).map fun x => (x.1, x.2 ++ ')' :: more) := by
  have hsplit := List.takeWhile_append_dropWhile (p := (· != ':')) (l := text)
  rw [className, className, List.dropWhile_append, List.takeWhile_append]
  cases hdrop : text.dropWhile (· != ':') with
  | nil =>
    -- the name goes on over the parenthesis
    rw [hdrop, List.append_nil] at hsplit
    have hparen : ')' ∈ text ++ List.takeWhile (· != ':') (')' :: more) :=
      List.mem_append_right text (by simp)
    rw [hsplit, if_pos rfl, asciiClass?_eq_none hparen]
    simp only [List.isEmpty_nil, if_true, Option.map_none]
    split <;> rfl
  | cons d ds =>
    have hlength : (text.takeWhile (· != ':')).length ≠ text.length := by
      intro h
      have hsum := congrArg List.length hsplit
      rw [List.length_append, hdrop, h, List.length_cons] at hsum
      omega
    rw [if_neg hlength, if_neg (by simp)]
    cases ds with
    | nil => simp
    | cons e behind =>
      by_cases hd : d = ':'
      · by_cases he : e = ']'
        · simp [hd, he, Option.map_map, Function.comp_def]
        · simp [he]
      · simp [hd]

theorem namedClass?_colon (f : Flags) (t : List Char) :
    namedClass? f (':' :: t) =
      if t.head? = some '^' then className f true t.tail else className f false t := by
  cases t with
  | nil => rfl
  | cons d t =>
    by_cases hd : d = '^'
    · subst hd
      rfl
    · rw [List.head?_cons, if_neg (mt Option.some.inj hd)]
      simp only [namedClass?, List.cons.injEq, hd, false_and, imp_self, implies_true]
      rfl

theorem className_suffix {negated : Bool} {x : Option CharSet × List Char}
    (h : className f negated text = some x) : x.2 <:+ text := by
  have hdrop : text.dropWhile (· != ':') <:+ text := List.dropWhile_suffix _
  unfold className at h
  split at h
  · next behind heq =>
    obtain ⟨s, -, rfl⟩ := Option.map_eq_some_iff.mp h
    rw [heq] at hdrop
    exact ((List.suffix_cons ']' behind).trans (List.suffix_cons ':' _)).trans hdrop
  · simp only [reduceCtorEq] at h

theorem shortens_namedClass? (f : Flags) : Shortens (namedClass? f) := by
  intro text x h
  cases text with
  | nil => simp only [namedClass?, reduceCtorEq] at h
  | cons c text =>
    refine List.IsSuffix.trans ?_ (List.suffix_cons c text)
    by_cases hc : c = ':'
    · rw [hc, namedClass?_colon] at h
      by_cases hcaret : text.head? = some '^'
      · rw [if_pos hcaret] at h
        exact (className_suffix h).trans (List.tail_suffix text)
      · rw [if_neg hcaret] at h
        exact className_suffix h
    · simp [namedClass?, hc] at h

theorem namedClass?_append (f : Flags) (text more : List Char) :
    namedClass? f (text ++ ')' :: more) =
      (namedClass? f text).map fun x => (x.1, x.2 ++ ')' :: more) := by
  cases text with
  | nil => rfl
  | cons c text =>
    by_cases hc : c = ':'
    · subst hc
      rw [List.cons_append, namedClass?_colon, namedClass?_colon]
      cases text with
      | nil => exact className_append f false [] more
      | cons d text =>
        by_cases hd : d = '^'
        · subst hd
          exact className_append f true text more
        · rw [List.cons_append, List.head?_cons, List.head?_cons, if_neg (mt Option.some.inj hd),
            if_neg (mt Option.some.inj hd)]
          exact className_append f false (d :: text) more
    · simp [namedClass?, hc]

/-! ### Brackets -/

/-- Reads the hyphens or the closing bracket at the front of a bracketed set. -/
def hyphensFront (f : Flags) (negated : Bool) : Reader OpenBracket :=
  andThen (spans f (· == '-')) fun hyphens =>
    if hyphens = [] then
      branch ']' (skipping f (leave { negated, elements := [⟨.single ']', 0⟩] }))
        (leave { negated })
    else leave { negated, elements := hyphens.map fun c => ⟨.single c, 0⟩ }

/-- Reads the front of a bracketed set. Unlike `openBracket?`, it does not fail at the end of the
text. -/
def bracketFront (f : Flags) : Reader OpenBracket :=
  skipping f (branch '^' (skipping f (hyphensFront f true)) (hyphensFront f false))

theorem tame_bracketFront (f : Flags) : Tame (bracketFront f) := by
  have hhyphens : ∀ negated, Tame (hyphensFront f negated) := fun negated =>
    (tame_spans rfl).andThen fun hyphens =>
      .ite (.branch (by decide) (.skipping f (.leave _)) (.leave _)) (.leave _)
  exact .skipping f (.branch (by decide) (.skipping f (hhyphens true)) (hhyphens false))

/-- Reads the front of a bracketed set behind the caret. -/
def behindCaret? (f : Flags) (negated : Bool) (text : List Char) :
    Option (OpenBracket × List Char) :=
  match spanSkipping f (· == '-') text.length text with
  | (_, []) => none
  | ([], ']' :: rest) =>
    match f.skip rest with
    | [] => none
    | rest => some ({ negated, elements := [⟨.single ']', 0⟩] }, rest)
  | (hyphens, rest) => some ({ negated, elements := hyphens.map fun c => ⟨.single c, 0⟩ }, rest)

theorem behindCaret?_eq (f : Flags) (negated : Bool) (t : List Char) :
    behindCaret? f negated t =
      (hyphensFront f negated t).bind fun x => if x.2 = [] then none else some x := by
  simp only [behindCaret?, hyphensFront, andThen, spans, Option.bind_some, ite_apply]
  generalize spanSkipping f (· == '-') t.length t = x
  obtain ⟨hyphens, rest⟩ := x
  cases rest with
  | nil => cases hyphens <;> simp [branch, peeking, leave]
  | cons d rest =>
    cases hyphens with
    | nil =>
      by_cases hd : d = ']'
      · subst hd
        cases hs : f.skip rest <;> simp [branch, peeking, leave, skipping, hs]
      · simp [branch, peeking, leave, hd]
    | cons c cs => simp [leave]

/-- The front of a bracketed set is not read where the text ends behind it. -/
theorem openBracket?_eq (f : Flags) (t : List Char) :
    openBracket? f t = (bracketFront f t).bind fun x => if x.2 = [] then none else some x := by
  unfold openBracket? bracketFront
  rw [skipping]
  cases hs : f.skip t with
  | nil => rfl
  | cons c rest =>
    rw [branch, peeking_cons]
    by_cases hc : c = '^'
    · subst hc
      exact behindCaret?_eq f true (f.skip rest)
    · simp only [hc, if_false, false_and]
      exact behindCaret?_eq f false (c :: rest)

theorem shortens_openBracket? (f : Flags) : Shortens (openBracket? f) := by
  intro text x hx
  rw [openBracket?_eq] at hx
  obtain ⟨y, hy, hx⟩ := Option.bind_eq_some_iff.mp hx
  by_cases hs : y.2 = []
  · rw [if_pos hs] at hx
    simp only [reduceCtorEq] at hx
  · rw [if_neg hs] at hx
    rw [← Option.some.inj hx]
    exact (tame_bracketFront f).shortens text y hy

theorem openBracket?_andThen {next : OpenBracket → Reader α} (h : ∀ s, next s [] = none) :
    andThen (openBracket? f) next = andThen (bracketFront f) next := by
  funext t
  simp only [andThen, openBracket?_eq, Option.bind_assoc]
  refine congrArg (Option.bind (bracketFront f t)) (funext fun x => ?_)
  by_cases hx : x.2 = []
  · rw [if_pos hx, hx, h]
    rfl
  · rw [if_neg hx]
    rfl

theorem brackets?_zero (f : Flags) (stack : List OpenBracket) : brackets? f 0 stack = fail := by
  funext t
  unfold brackets?
  rfl

theorem brackets?_empty (f : Flags) (n : Nat) : brackets? f n [] = fail := by
  funext t
  unfold brackets?
  cases n <;> rfl

theorem brackets?_nil (f : Flags) (n : Nat) (stack : List OpenBracket) :
    brackets? f n stack [] = none := by
  unfold brackets?
  rw [skip_nil]
  cases n with
  | zero => rfl
  | succ n => cases stack <;> rfl

section Steps

variable {n : Nat} {b : OpenBracket} {outer : List OpenBracket}

/-- Reads on from an opening bracket in a bracketed set. -/
def opened (f : Flags) (n : Nat) (b : OpenBracket) (outer : List OpenBracket) :
    Reader NestedSet := fun t =>
  match namedClass? f t with
  | some (s?, rest) => given s? (fun s => brackets? f n (b.add ⟨s, 0⟩ :: outer)) rest
  | none => andThen (openBracket? f) (fun inner => brackets? f n (inner :: b :: outer)) t

theorem tame_opened (ih : ∀ stack, Tame (brackets? f n stack)) : Tame (opened f n b outer) := by
  have hgiven : ∀ s?, Tame (given s? fun s => brackets? f n (b.add ⟨s, 0⟩ :: outer)) :=
    fun s? => .given fun s => ih _
  have hopen : Tame
      (andThen (openBracket? f) fun inner => brackets? f n (inner :: b :: outer)) := by
    rw [openBracket?_andThen fun inner => brackets?_nil f n _]
    exact (tame_bracketFront f).andThen fun inner => ih _
  refine ⟨fun text x hx => ?_, fun text => ?_⟩
  · unfold opened at hx
    cases hclass : namedClass? f text with
    | none =>
      rw [hclass] at hx
      exact hopen.shortens text x hx
    | some y =>
      rw [hclass] at hx
      exact ((hgiven y.1).shortens y.2 x hx).trans (shortens_namedClass? f text y hclass)
  · cases hclass : namedClass? f text with
    | none =>
      refine (hopen.isLocal text).congr ?_ fun more => ?_
      · rw [opened, hclass]
      · rw [opened, namedClass?_append, hclass, Option.map_none]
    | some y =>
      have hsuffix := shortens_namedClass? f text y hclass
      refine ((hgiven y.1).isLocal y.2).congr_suffix hsuffix ?_ fun more => ?_
      · rw [opened, hclass]
      · rw [opened, namedClass?_append, hclass, Option.map_some]

/-- Reads on from a closing bracket. -/
def closed (f : Flags) (n : Nat) (b : OpenBracket) (outer : List OpenBracket) :
    Reader NestedSet :=
  given (b.close? f) fun s =>
    match outer with
    | [] => leave s
    | parent :: outer => brackets? f n (parent.add s :: outer)

theorem tame_closed (ih : ∀ stack, Tame (brackets? f n stack)) : Tame (closed f n b outer) := by
  cases outer with
  | nil => exact .given fun s => .leave s
  | cons parent outer => exact .given fun s => ih _

/-- Reads an element, or a range, that begins with `c`. -/
def listed (f : Flags) (n : Nat) (b : OpenBracket) (outer : List OpenBracket) (c : Char) :
    Reader NestedSet := fun t =>
  andThen (elementOrRange? f) (fun s => brackets? f n (b.add ⟨s, 0⟩ :: outer)) (c :: t)

theorem tame_listed (ih : ∀ stack, Tame (brackets? f n stack)) : Tame (listed f n b outer c) :=
  tame_elementOrRange?_cons (fun _ => brackets?_nil f n _) (fun _ => ih _) c

theorem brackets?_succ (f : Flags) (n : Nat) (b : OpenBracket) (outer : List OpenBracket) :
    brackets? f (n + 1) (b :: outer) = skipping f (anyChar fun c =>
      if c = '[' then opened f n b outer
      else if c = ']' then closed f n b outer
      else if c = '&' then
        branch '&' (brackets? f n (b.operate f .inter :: outer)) (listed f n b outer c)
      else if c = '-' then
        branch '-' (brackets? f n (b.operate f .diff :: outer)) (listed f n b outer c)
      else if c = '~' then
        branch '~' (brackets? f n (b.operate f .symmDiff :: outer)) (listed f n b outer c)
      else listed f n b outer c) := by
  funext t
  rw [skipping]
  unfold brackets?
  cases hs : f.skip t with
  | nil => rfl
  | cons c rest =>
    simp only [anyChar, ite_apply]
    by_cases hopen : c = '['
    · rw [if_pos hopen, if_pos hopen, opened]
      cases namedClass? f rest <;> rfl
    by_cases hclose : c = ']'
    · subst hclose
      cases outer <;> rfl
    rw [if_neg hopen, if_neg hclose, if_neg hopen, if_neg hclose]
    have hbranch : ∀ d r, branch d r (listed f n b outer c) rest =
        if rest.head? = some d then r (rest.drop 1) else listed f n b outer c rest := by
      intro d r
      simp only [branch, peeking, and_true, List.drop_one]
    simp only [hbranch]
    by_cases hand : c = '&'
    · subst hand
      by_cases hnext : rest.head? = some '&' <;> simp [hnext, listed, andThen]
    by_cases hhyphen : c = '-'
    · subst hhyphen
      by_cases hnext : rest.head? = some '-' <;> simp [hnext, listed, andThen]
    by_cases htilde : c = '~'
    · subst htilde
      by_cases hnext : rest.head? = some '~' <;> simp [hnext, listed, andThen]
    simp [hand, hhyphen, htilde, listed, andThen]

section Fuel

variable {m : Nat}
  (hsame : ∀ stack t, t <:+ rest → brackets? f n stack t = brackets? f m stack t)

include hsame

theorem opened_congr : opened f n b outer rest = opened f m b outer rest := by
  have hopen : andThen (openBracket? f) (fun inner => brackets? f n (inner :: b :: outer)) rest =
      andThen (openBracket? f) (fun inner => brackets? f m (inner :: b :: outer)) rest :=
    Option.bind_congr fun x hx => hsame _ _ (shortens_openBracket? f rest x hx)
  unfold opened
  rw [hopen]
  cases hclass : namedClass? f rest with
  | none => rfl
  | some x =>
    exact Option.bind_congr fun s _ => hsame _ _ (shortens_namedClass? f rest x hclass)

theorem closed_congr : closed f n b outer rest = closed f m b outer rest := by
  cases outer with
  | nil => rfl
  | cons parent outer => simp only [closed, given, hsame _ rest List.suffix_rfl]

theorem listed_congr (c : Char) : listed f n b outer c rest = listed f m b outer c rest :=
  Option.bind_congr fun x hx => hsame _ _ (shortens_elementOrRange?_cons f c rest x hx)

end Fuel

/-- What is read does not depend on the fuel. -/
theorem brackets?_congr (f : Flags) {n m : Nat} {stack : List OpenBracket} (hn : text.length < n)
    (hm : text.length < m) : brackets? f n stack text = brackets? f m stack text := by
  induction n generalizing m stack text with
  | zero => exact absurd hn (Nat.not_lt_zero _)
  | succ n ih =>
    obtain ⟨m, rfl⟩ := Nat.exists_eq_succ_of_ne_zero (Nat.ne_zero_of_lt hm)
    cases stack with
    | nil => rw [brackets?_empty, brackets?_empty]
    | cons b outer =>
      rw [brackets?_succ, brackets?_succ, skipping, skipping]
      have hle := (skip_suffix f text).length_le
      cases hs : f.skip text with
      | nil => rfl
      | cons c rest =>
        rw [hs, List.length_cons] at hle
        have hsame : ∀ stack t, t <:+ rest → brackets? f n stack t = brackets? f m stack t := by
          intro stack t ht
          have hrest := ht.length_le
          exact ih (by omega) (by omega)
        have hbranch : ∀ d stack, branch d (brackets? f n stack) (listed f n b outer c) rest =
            branch d (brackets? f m stack) (listed f m b outer c) rest := by
          intro d stack
          simp only [branch, peeking, hsame _ rest.tail (List.tail_suffix rest),
            listed_congr hsame c]
        simp only [anyChar, ite_apply, opened_congr hsame, closed_congr hsame,
          listed_congr hsame c, hbranch]

end Steps

theorem tame_brackets? (f : Flags) (n : Nat) (stack : List OpenBracket) :
    Tame (brackets? f n stack) := by
  induction n generalizing stack with
  | zero =>
    rw [brackets?_zero]
    exact .fail
  | succ n ih =>
    cases stack with
    | nil =>
      rw [brackets?_empty]
      exact .fail
    | cons b outer =>
      rw [brackets?_succ]
      refine .skipping f (.anyChar fun c => ?_)
      refine .ite (tame_opened ih) (.ite (tame_closed ih) ?_)
      refine .ite (.branch (by decide) (ih _) (tame_listed ih)) ?_
      refine .ite (.branch (by decide) (ih _) (tame_listed ih)) ?_
      exact .ite (.branch (by decide) (ih _) (tame_listed ih)) (tame_listed ih)

/-- The reader of the elements of a bracketed set. -/
def bracketRest (f : Flags) (b : OpenBracket) : Reader NestedSet :=
  fun t => brackets? f (t.length + 1) [b] t

theorem tame_bracketed? (f : Flags) : Tame (bracketed? f) := by
  have hrest : ∀ b, Tame (bracketRest f b) := fun b =>
    .of_fuel (fun n => tame_brackets? f n [b]) fun n m text => brackets?_congr f
  have heq : bracketed? f = andThen (openBracket? f) (bracketRest f) := rfl
  have hnil : ∀ b, bracketRest f b [] = none := fun b => brackets?_nil f 1 [b]
  rw [heq, openBracket?_andThen hnil]
  exact (tame_bracketFront f).andThen hrest

end Percolator.Pattern
