import Mathlib
import Percolator.Pattern.Escape

/-!
# Readers and what stands behind the text

A reader takes something from the front of a text and leaves the rest. When a pattern is put into a
group, a closing parenthesis follows it, and the question is whether a reader still takes the same
from the pattern. Either it does, and leaves what follows as it was, or it cannot be satisfied by
the pattern alone and goes on over the parenthesis. There is one more way: a comment at the end of
the pattern hides what follows it up to the end of the line.

That this holds of every reader is shown piece by piece, as readers are put together.

## Main definitions

* `Pattern.Shortens` : the reader leaves the end of the text.
* `Pattern.Reads` : the reader takes the same whatever follows the text.
* `Pattern.Breaks` : the reader fails, or goes on over the parenthesis behind the text.
* `Pattern.Local` : one of the two.

## Main results

* `Pattern.skip_append` : what is skipped, with a parenthesis behind the text.
* `Pattern.Local.andThen`, `Pattern.Local.skipping` : readers one after the other.
-/

namespace Percolator.Pattern

variable {α β γ : Type} {text rest : List Char} {f : Flags} {c d : Char}

/-! ### What is skipped -/

theorem isBlank_paren : Unicode.isBlank ')' = false := by cbv

theorem skipBlanks_of_not_blank (hblank : Unicode.isBlank c = false) (hsign : c ≠ '#')
    (t : List Char) : skipBlanks false (c :: t) = c :: t := by
  rw [skipBlanks, if_neg Bool.false_ne_true, if_neg (ne_true_of_eq_false hblank), if_neg hsign]

theorem skipBlanks_suffix (inComment : Bool) (text : List Char) :
    skipBlanks inComment text <:+ text := by
  induction text generalizing inComment with
  | nil => exact List.suffix_rfl
  | cons c rest ih =>
    rw [skipBlanks]
    split_ifs
    · exact (ih _).trans (List.suffix_cons c rest)
    · exact (ih _).trans (List.suffix_cons c rest)
    · exact (ih _).trans (List.suffix_cons c rest)
    · exact List.suffix_rfl

/-- A comment hides the text up to the end of the line. -/
theorem skipBlanks_eq_nil (h : '\n' ∉ text) : skipBlanks true text = [] := by
  induction text with
  | nil => rfl
  | cons c rest ih =>
    rw [List.mem_cons, not_or] at h
    rw [skipBlanks, if_pos rfl, bne_iff_ne.mpr (Ne.symm h.1), ih h.2]

theorem skipBlanks_append (inComment : Bool) (text : List Char) :
    (∀ more, skipBlanks inComment (text ++ ')' :: more) =
        skipBlanks inComment text ++ ')' :: more) ∨
      (inComment = true ∨ '#' ∈ text) ∧ skipBlanks inComment text = [] ∧ ∀ more,
        (skipBlanks inComment (text ++ ')' :: more)).length ≤ more.length ∧
          ('\n' ∉ more → skipBlanks inComment (text ++ ')' :: more) = []) := by
  induction text generalizing inComment with
  | nil =>
    cases inComment with
    | false => exact .inl (skipBlanks_of_not_blank isBlank_paren (by decide))
    | true =>
      have hparen : ∀ more, skipBlanks true ([] ++ ')' :: more) = skipBlanks true more :=
        fun _ => rfl
      refine .inr ⟨.inl rfl, rfl, fun more => ?_⟩
      rw [hparen]
      exact ⟨(skipBlanks_suffix true more).length_le, skipBlanks_eq_nil⟩
  | cons c rest ih =>
    have hmem : '#' ∈ rest → '#' ∈ c :: rest := List.mem_cons_of_mem c
    simp only [List.cons_append, skipBlanks]
    split_ifs with hcomment _ hsign
    · exact (ih _).imp_right fun h => ⟨.inl hcomment, h.2⟩
    · exact (ih _).imp_right fun h => ⟨h.1.imp (fun h => absurd h Bool.false_ne_true) hmem, h.2⟩
    · exact (ih _).imp_right fun h => ⟨.inr (hsign ▸ List.mem_cons_self), h.2⟩
    · exact .inl fun more => rfl

theorem skip_nil (f : Flags) : f.skip [] = [] := by
  rw [Flags.skip, skipBlanks, ite_self]

theorem skip_of_not_blank (f : Flags) (hblank : Unicode.isBlank c = false) (hsign : c ≠ '#')
    (t : List Char) : f.skip (c :: t) = c :: t := by
  rw [Flags.skip, skipBlanks_of_not_blank hblank hsign, ite_self]

theorem skip_paren (f : Flags) (more : List Char) : f.skip (')' :: more) = ')' :: more :=
  skip_of_not_blank f isBlank_paren (by decide) more

theorem skip_suffix (f : Flags) (text : List Char) : f.skip text <:+ text := by
  rw [Flags.skip]
  split_ifs
  · exact skipBlanks_suffix false text
  · exact List.suffix_rfl

/-- A parenthesis behind the text changes nothing in what is skipped, unless the text ends in a
comment. -/
theorem skip_append (f : Flags) (text : List Char) :
    (∀ more, f.skip (text ++ ')' :: more) = f.skip text ++ ')' :: more) ∨
      '#' ∈ text ∧ f.skip text = [] ∧ ∀ more,
        (f.skip (text ++ ')' :: more)).length ≤ more.length ∧
          ('\n' ∉ more → f.skip (text ++ ')' :: more) = []) := by
  simp only [Flags.skip]
  split_ifs
  · refine (skipBlanks_append false text).imp_right fun h => ⟨?_, h.2⟩
    exact h.1.resolve_left Bool.false_ne_true
  · exact .inl fun _ => rfl

/-- Where the parenthesis behind the text is not skipped, it changes nothing. -/
theorem skip_of_append {more : List Char}
    (h : f.skip (text ++ ')' :: more) = rest ++ ')' :: more) :
    f.skip text = rest ∧ ∀ more, f.skip (text ++ ')' :: more) = rest ++ ')' :: more := by
  rcases skip_append f text with hkeep | ⟨-, -, hhidden⟩
  · obtain rfl := List.append_cancel_right ((hkeep more).symm.trans h)
    exact ⟨rfl, hkeep⟩
  · have hle := (hhidden more).1
    rw [h, List.length_append, List.length_cons] at hle
    omega

/-! ### Readers -/

/-- A reader takes something from the front of a text, if it can, and leaves the rest. -/
abbrev Reader (α : Type) := List Char → Option (α × List Char)

namespace Reader

/-- Takes nothing. -/
def leave (a : α) : Reader α := fun t => some (a, t)

/-- Reads nothing at all. -/
def fail : Reader α := fun _ => none

/-- Reads with one reader behind another. -/
def andThen (r : Reader α) (next : α → Reader β) : Reader β :=
  fun t => (r t).bind fun x => next x.1 x.2

/-- Reads on with a value, if there is one. -/
def given (o : Option γ) (next : γ → Reader α) : Reader α := fun t => o.bind fun v => next v t

/-- Reads on behind blanks and comments. -/
def skipping (f : Flags) (r : Reader α) : Reader α := fun t => r (f.skip t)

/-- Takes the first character and reads on by it. -/
def anyChar (next : Char → Reader α) : Reader α
  | [] => none
  | c :: t => next c t

/-- Reads with `r` behind the character `d`, if `p` holds of the text there, and with `s` from the
beginning otherwise. -/
def peeking (d : Char) (p : List Char → Bool) (r s : Reader α) : Reader α :=
  fun t => if t.head? = some d ∧ p t.tail then r t.tail else s t

/-- Reads with `r` behind the character `d`, and with `s` where the text does not begin with it. -/
def branch (d : Char) (r s : Reader α) : Reader α := peeking d (fun _ => true) r s

theorem andThen_eq_some_iff {r : Reader α} {next : α → Reader β} {x : β × List Char} :
    andThen r next text = some x ↔ ∃ a rest, r text = some (a, rest) ∧ next a rest = some x := by
  simp only [andThen, Option.bind_eq_some_iff, Prod.exists]

theorem peeking_cons {p : List Char → Bool} {r s : Reader α} :
    peeking d p r s (c :: text) = if c = d ∧ p text then r text else s (c :: text) := by
  simp only [peeking, List.head?_cons, Option.some.injEq, List.tail_cons]

end Reader

/-- The reader leaves the end of the text. -/
def Shortens (r : Reader α) : Prop := ∀ text x, r text = some x → x.2 <:+ text

/-- What the reader takes from the text is the same whatever follows the text. -/
def Reads (r : Reader α) (text : List Char) : Prop :=
  ∃ x, r text = some x ∧ ∀ more, r (text ++ ')' :: more) = some (x.1, x.2 ++ ')' :: more)

/-- The reader fails, or goes on over a parenthesis that follows the text. -/
structure Breaks (r : Reader α) (text : List Char) : Prop where
  length_le : ∀ more x, r (text ++ ')' :: more) = some x → x.2.length ≤ more.length
  /-- Where the reader does not fail, the text ends in a comment. -/
  hides : ∀ x, r text = some x →
    '#' ∈ text ∧ ∀ more, '\n' ∉ more → r (text ++ ')' :: more) = some x

/-- The reader takes the same from the text whatever follows it, or goes on over a parenthesis that
follows. -/
def Local (r : Reader α) (text : List Char) : Prop := Reads r text ∨ Breaks r text

/-- Of every text, the reader leaves the end, and takes the same from it whatever follows, or goes
on over a parenthesis that follows. -/
structure Tame (r : Reader α) : Prop where
  shortens : Shortens r
  isLocal : ∀ text, Local r text

section Readers

open Reader

variable {r s : Reader α} {next : α → Reader β}

namespace Shortens

theorem leave (a : α) : Shortens (leave a) := by
  intro text x h
  obtain rfl := Option.some.inj h
  exact List.suffix_rfl

theorem fail : Shortens (fail (α := α)) := by
  intro text x h
  simp only [Reader.fail, reduceCtorEq] at h

theorem andThen (hr : Shortens r) (hnext : ∀ a, Shortens (next a)) :
    Shortens (andThen r next) := by
  intro text x h
  obtain ⟨a, rest, hx, hnext'⟩ := andThen_eq_some_iff.mp h
  exact (hnext a rest x hnext').trans (hr text _ hx)

theorem given {o : Option γ} {next : γ → Reader α} (h : ∀ v, Shortens (next v)) :
    Shortens (given o next) := by
  intro text x hx
  obtain ⟨v, -, hx⟩ := Option.bind_eq_some_iff.mp hx
  exact h v text x hx

theorem ite {p : Prop} [Decidable p] (hr : Shortens r) (hs : Shortens s) :
    Shortens (if p then r else s) := by
  by_cases h : p
  · rwa [if_pos h]
  · rwa [if_neg h]

theorem skipping (f : Flags) (hr : Shortens r) : Shortens (skipping f r) := by
  intro text x h
  exact (hr _ x h).trans (skip_suffix f text)

end Shortens

namespace Local

theorem leave (a : α) (text : List Char) : Local (leave a) text :=
  .inl ⟨(a, text), rfl, fun _ => rfl⟩

theorem of_none (h : r text = none)
    (hle : ∀ more x, r (text ++ ')' :: more) = some x → x.2.length ≤ more.length) :
    Local r text :=
  .inr ⟨hle, fun x hx => by simp only [h, reduceCtorEq] at hx⟩

theorem fail (text : List Char) : Local (fail (α := α)) text :=
  of_none rfl fun more x hx => by simp only [Reader.fail, reduceCtorEq] at hx

theorem nil (hnil : r [] = none) (h : Shortens fun t => r (')' :: t)) : Local r [] :=
  of_none hnil fun more x hx => (h more x hx).length_le

theorem congr_suffix {text' : List Char} (hs : Local s text') (hsuffix : text' <:+ text)
    (hnil : r text = s text') (hmore : ∀ more, r (text ++ ')' :: more) = s (text' ++ ')' :: more)) :
    Local r text := by
  rcases hs with ⟨x, hx, hkeep⟩ | ⟨hle, hides⟩
  · exact .inl ⟨x, hnil.trans hx, fun more => (hmore more).trans (hkeep more)⟩
  · refine .inr ⟨fun more x hx => hle more x ((hmore more).symm.trans hx), fun x hx => ?_⟩
    obtain ⟨hsign, hides⟩ := hides x (hnil.symm.trans hx)
    exact ⟨hsuffix.subset hsign, fun more hm => (hmore more).trans (hides more hm)⟩

theorem congr (hs : Local s text) (hnil : r text = s text)
    (hmore : ∀ more, r (text ++ ')' :: more) = s (text ++ ')' :: more)) : Local r text :=
  hs.congr_suffix List.suffix_rfl hnil hmore

theorem cons (h : ∀ t, r (c :: t) = s t) (hs : Local s text) : Local r (c :: text) :=
  hs.congr_suffix (List.suffix_cons c text) (h text) fun _ => h _

theorem andThen (hshortens : Shortens r) (hr : Local r text) (hnext : ∀ a, Shortens (next a))
    (h : ∀ a rest, r text = some (a, rest) → Local (next a) rest) :
    Local (andThen r next) text := by
  rcases hr with ⟨⟨a, rest⟩, hx, hmore⟩ | ⟨hle, hides⟩
  · have hnil : Reader.andThen r next text = next a rest := by
      simp only [Reader.andThen, hx, Option.bind_some]
    refine (h a rest hx).congr_suffix (hshortens text _ hx) hnil fun more => ?_
    simp only [Reader.andThen, hmore, Option.bind_some]
  · refine .inr ⟨fun more y hy => ?_, fun y hy => ?_⟩
    · obtain ⟨a, rest, hx, hy⟩ := andThen_eq_some_iff.mp hy
      exact (hnext a rest y hy).length_le.trans (hle more _ hx)
    · obtain ⟨a, rest, hx, hy⟩ := andThen_eq_some_iff.mp hy
      obtain ⟨hsign, hides⟩ := hides _ hx
      exact ⟨hsign, fun more hm => andThen_eq_some_iff.mpr ⟨a, rest, hides more hm, hy⟩⟩

theorem given {o : Option γ} {next : γ → Reader α} (h : ∀ v, o = some v → Local (next v) text) :
    Local (given o next) text := by
  cases o with
  | none => exact fail text
  | some v => exact h v rfl

theorem ite {p : Prop} [Decidable p] (hr : Local r text) (hs : Local s text) :
    Local (if p then r else s) text := by
  by_cases h : p
  · rwa [if_pos h]
  · rwa [if_neg h]

theorem skipping (hr : Shortens r) (h : Local r (f.skip text)) : Local (skipping f r) text := by
  rcases skip_append f text with hkeep | ⟨hsign, hnil, hmore⟩
  · exact h.congr_suffix (skip_suffix f text) rfl fun more => congrArg r (hkeep more)
  · refine .inr ⟨fun more x hx => ?_, fun x hx => ⟨hsign, fun more hm => ?_⟩⟩
    · exact (hr _ x hx).length_le.trans (hmore more).1
    · exact (congrArg r (((hmore more).2 hm).trans hnil.symm)).trans hx

end Local

namespace Tame

theorem leave (a : α) : Tame (leave a) := ⟨.leave a, Local.leave a⟩

theorem fail : Tame (fail (α := α)) := ⟨.fail, Local.fail⟩

theorem andThen (hr : Tame r) (hnext : ∀ a, Tame (next a)) : Tame (andThen r next) where
  shortens := hr.shortens.andThen fun a => (hnext a).shortens
  isLocal t :=
    .andThen hr.shortens (hr.isLocal t) (fun a => (hnext a).shortens)
      fun a rest _ => (hnext a).isLocal rest

theorem given {o : Option γ} {next : γ → Reader α} (h : ∀ v, Tame (next v)) :
    Tame (given o next) :=
  ⟨.given fun v => (h v).shortens, fun t => .given fun v _ => (h v).isLocal t⟩

theorem ite {p : Prop} [Decidable p] (hr : Tame r) (hs : Tame s) :
    Tame (if p then r else s) :=
  ⟨.ite hr.shortens hs.shortens, fun t => .ite (hr.isLocal t) (hs.isLocal t)⟩

theorem skipping (f : Flags) (hr : Tame r) : Tame (skipping f r) :=
  ⟨hr.shortens.skipping f, fun _ => .skipping hr.shortens (hr.isLocal _)⟩

/-- A reader that goes on by the first character. -/
theorem of_cases (hnil : Local r []) (hsuffix : ∀ x, r [] = some x → x.2 <:+ [])
    (h : ∀ c, Tame fun t => r (c :: t)) : Tame r where
  shortens
    | [], x, hx => hsuffix x hx
    | c :: t, x, hx => ((h c).shortens t x hx).trans (List.suffix_cons c t)
  isLocal
    | [] => hnil
    | c :: t => .cons (fun _ => rfl) ((h c).isLocal t)

/-- A reader that needs a first character and goes on by it. -/
theorem of_cons (hnil : r [] = none) (h : ∀ c, Tame fun t => r (c :: t)) : Tame r :=
  of_cases (.nil hnil (h ')').shortens) (fun x hx => by simp only [hnil, reduceCtorEq] at hx) h

theorem anyChar {next : Char → Reader α} (h : ∀ c, Tame (next c)) : Tame (anyChar next) :=
  of_cons rfl h

/-- A reader that looks for one character first, which is not the parenthesis, and at what follows
it. -/
theorem peeking {p : List Char → Bool} (hd : d ≠ ')')
    (hp : ∀ t more, p (t ++ ')' :: more) = p t) (hr : Tame r) (hs : Tame s) :
    Tame (peeking d p r s) where
  shortens
    | [], x, hx => hs.shortens [] x hx
    | c :: t, x, hx => by
      rw [peeking_cons] at hx
      by_cases h : c = d ∧ p t
      · rw [if_pos h] at hx
        exact (hr.shortens t x hx).trans (List.suffix_cons c t)
      · rw [if_neg h] at hx
        exact hs.shortens (c :: t) x hx
  isLocal
    | [] => (hs.isLocal []).congr rfl fun more => by
      rw [List.nil_append, peeking_cons, if_neg fun h => hd h.1.symm]
    | c :: t => by
      by_cases h : c = d ∧ p t
      · refine (hr.isLocal t).congr_suffix (List.suffix_cons c t) ?_ fun more => ?_
        · rw [peeking_cons, if_pos h]
        · rw [List.cons_append, peeking_cons, hp, if_pos h]
      · refine (hs.isLocal (c :: t)).congr ?_ fun more => ?_
        · rw [peeking_cons, if_neg h]
        · rw [List.cons_append, peeking_cons, hp, if_neg h]

/-- A reader that looks for one character first, which is not the parenthesis. -/
theorem branch (hd : d ≠ ')') (hr : Tame r) (hs : Tame s) : Tame (branch d r s) :=
  peeking hd (fun _ _ => rfl) hr hs

/-- A reader with fuel, which it is given by the length of the text. -/
theorem of_fuel {r : Nat → Reader α} (hr : ∀ n, Tame (r n))
    (hcongr : ∀ n m text, text.length < n → text.length < m → r n text = r m text) :
    Tame fun t => r (t.length + 1) t where
  shortens text := (hr (text.length + 1)).shortens text
  isLocal text := by
    -- whether the reader goes on over the parenthesis does not depend on the fuel
    have hreads : ∀ n m, text.length + 1 < n → text.length + 1 < m →
        Reads (r n) text → Reads (r m) text := by
      rintro n m hn hm ⟨x, -, hkeep⟩
      refine ((hr m).isLocal text).resolve_right fun hbreaks => ?_
      have hlength : (text ++ [')']).length = text.length + 1 := List.length_append
      have hparen := (hcongr m n _ (hlength ▸ hm) (hlength ▸ hn)).trans (hkeep [])
      have hle := hbreaks.length_le [] _ hparen
      simp only [List.length_append, List.length_cons, List.length_nil] at hle
      omega
    have hsame : ∀ more, r ((text ++ ')' :: more).length + 1) text = r (text.length + 1) text := by
      intro more
      refine hcongr _ _ _ ?_ (Nat.lt_succ_self _)
      rw [List.length_append]
      omega
    have henough : ∀ more, text.length + 1 < (text ++ ')' :: more).length + 1 := by
      intro more
      rw [List.length_append, List.length_cons]
      omega
    by_cases h : Reads (r (text.length + 2)) text
    · obtain ⟨x, hx, -⟩ := id h
      have hx' := (hcongr (text.length + 1) _ _ (Nat.lt_succ_self _) (by omega)).trans hx
      refine .inl ⟨x, hx', fun more => ?_⟩
      obtain ⟨y, hy, hkeep⟩ := hreads _ _ (Nat.lt_succ_self _) (henough more) h
      obtain rfl := Option.some.inj ((hy.symm.trans (hsame more)).trans hx')
      exact hkeep more
    · have hbreaks : ∀ more, Breaks (r ((text ++ ')' :: more).length + 1)) text := fun more =>
        ((hr _).isLocal text).resolve_left fun h' =>
          h (hreads _ _ (henough more) (Nat.lt_succ_self _) h')
      refine .inr ⟨fun more x hx => (hbreaks more).length_le more x hx, fun x hx => ⟨?_, ?_⟩⟩
      · exact ((hbreaks []).hides x ((hsame []).trans hx)).1
      · exact fun more => ((hbreaks more).hides x ((hsame more).trans hx)).2 more

end Tame

end Readers

end Percolator.Pattern
