import Percolator.Proofs.Token.Distinct

/-!
# Streams that are pulled and reset

A stream is used by pulling tokens from it and by resetting it to another input, in any order: it
may be reset before it is used up, and pulled again when nothing is left. Whatever was done to it,
its input falls into tokens that were gone through and tokens that are left, and the texts that it
remembers are those of the tokens that it went through. So the tokens that it has yielded are the
first ones of those with new texts.

## Main definitions

* `DistinctStream.newTexts` : the tokens that a stream has to yield for an input.
* `DistinctStream.Recalls` : the stream remembers the texts of some tokens.
* `StreamInUse` : a stream with its last input and what it has yielded of it.

## Main results

* `DistinctStream.Recalls.next_none`, `DistinctStream.Recalls.next_some` : what a pull comes to.
* `StreamInUse.Invariant.act` : every use keeps the account of the stream right.
* `StreamInUse.yields_newTexts` : what a stream has yielded, for any uses.
-/

namespace Percolator

namespace DistinctStream

variable {seen : Std.TreeSet String} {before input rest : List Token} {t : Token}

/-! ### The tokens with new texts -/

/-- The text of the token is that of one of the tokens `before` that is not marked as removed. -/
def IsRepeated (before : List Token) (t : Token) : Prop :=
  ∃ u ∈ before, u.stopped = false ∧ u.text = t.text

instance : DecidablePred (IsRepeated before) := fun t =>
  inferInstanceAs (Decidable (∃ u ∈ before, u.stopped = false ∧ u.text = t.text))

/-- The tokens that are not marked as removed and do not repeat the text of such a token in front of
them, where the tokens `before` stand in front of the list. -/
def newTexts (before : List Token) : List Token → List Token
  | [] => []
  | t :: rest =>
    if t.stopped = false ∧ ¬IsRepeated before t then t :: newTexts (before ++ [t]) rest
    else newTexts (before ++ [t]) rest

theorem newTexts_append (before front back : List Token) :
    newTexts before (front ++ back) = newTexts before front ++ newTexts (before ++ front) back := by
  induction front generalizing before with
  | nil => rw [List.nil_append, newTexts, List.nil_append, List.append_nil]
  | cons t rest ih =>
    have happend : before ++ t :: rest = before ++ [t] ++ rest := List.append_cons before t rest
    rw [List.cons_append, newTexts, newTexts, ih, happend]
    split
    · rfl
    · rfl

theorem newTexts_sublist (before input : List Token) : (newTexts before input).Sublist input := by
  induction input generalizing before with
  | nil => exact List.Sublist.slnil
  | cons t rest ih =>
    rw [newTexts]
    split
    · exact (ih _).cons_cons t
    · exact (ih _).cons t

theorem isRepeated_append_iff {front : List Token} :
    IsRepeated (before ++ front) t ↔ IsRepeated before t ∨ IsRepeated front t := by
  simp only [IsRepeated, List.mem_append, or_and_right, exists_or]

theorem isRepeated_filter_iff :
    IsRepeated (before.filter (!·.stopped)) t ↔ IsRepeated before t := by
  refine exists_congr fun u => ?_
  rw [List.mem_filter, Bool.not_eq_true', and_assoc, and_self_left]

/-- Tokens that are marked as removed make no other token a repetition. -/
theorem newTexts_filter (before input : List Token) :
    newTexts (before.filter (!·.stopped)) (input.filter (!·.stopped)) = newTexts before input := by
  induction input generalizing before with
  | nil => rfl
  | cons t rest ih =>
    have hrest := ih (before ++ [t])
    cases hstopped : t.stopped with
    | true =>
      simp only [List.filter_append, List.filter_cons, hstopped, Bool.not_true, Bool.false_eq_true,
        if_false, List.filter_nil, List.append_nil] at hrest ⊢
      simp only [hrest, newTexts, hstopped, Bool.true_eq_false, false_and, if_false]
    | false =>
      simp only [List.filter_append, List.filter_cons, hstopped, Bool.not_false, if_true,
        List.filter_nil] at hrest ⊢
      simp only [newTexts, hrest, isRepeated_filter_iff]

/-- Tokens that are marked as removed or repeat a text are all left out. -/
theorem newTexts_eq_nil (h : ∀ s ∈ input, s.stopped = true ∨ IsRepeated before s) :
    newTexts before input = [] := by
  induction input generalizing before with
  | nil => rfl
  | cons t rest ih =>
    obtain ⟨hfirst, hrest⟩ := List.forall_mem_cons.mp h
    rw [newTexts, if_neg]
    · exact ih fun s hs => (hrest s hs).imp_right fun hs => isRepeated_append_iff.mpr (.inl hs)
    · rintro ⟨hstopped, hnew⟩
      rcases hfirst with hfirst | hfirst
      · exact Bool.false_ne_true (hstopped.symm.trans hfirst)
      · exact hnew hfirst

/-! ### One pull -/

/-- The remembered texts are those of the tokens that are not marked as removed. -/
def Recalls (seen : Std.TreeSet String) (before : List Token) : Prop :=
  ∀ t : Token, t.text ∈ seen ↔ IsRepeated before t

namespace Recalls

theorem empty : Recalls ∅ [] := fun _ =>
  iff_of_false Std.TreeSet.not_mem_emptyc fun ⟨_, hu, _⟩ => absurd hu List.not_mem_nil

/-- Tokens that were skipped change nothing of what is remembered. -/
theorem skip {skipped : List Token} (h : Recalls seen before)
    (hskipped : ∀ s ∈ skipped, s.stopped = true ∨ s.text ∈ seen) :
    Recalls seen (before ++ skipped) := by
  intro t
  rw [isRepeated_append_iff, h t]
  refine (or_iff_left_of_imp ?_).symm
  rintro ⟨s, hs, hstopped, htext⟩
  rcases hskipped s hs with hs | hs
  · exact absurd (hstopped.symm.trans hs) Bool.false_ne_true
  · exact (h t).mp (htext ▸ hs)

theorem insert (h : Recalls seen before) (ht : t.stopped = false) :
    Recalls (seen.insert t.text) (before ++ [t]) := by
  intro u
  rw [Std.TreeSet.mem_insert, Std.LawfulEqCmp.compare_eq_iff_eq, isRepeated_append_iff, h u,
    or_comm]
  refine or_congr_right ⟨fun htext => ⟨t, List.mem_singleton.mpr rfl, ht, htext⟩, ?_⟩
  rintro ⟨s, hs, -, htext⟩
  rwa [← List.mem_singleton.mp hs]

/-- A pull that yields nothing finds no new text in all that is left. -/
theorem next_none (h : Recalls seen before) (hfirst : firstNew? seen input = none) :
    Recalls seen (before ++ input) ∧ newTexts before input = [] := by
  have hskipped := firstNew?_eq_none hfirst
  exact ⟨h.skip hskipped,
    newTexts_eq_nil fun s hs => (hskipped s hs).imp_right (h s).mp⟩

/-- A pull that yields a token yields the first one with a new text, and remembers it. -/
theorem next_some (h : Recalls seen before) (hfirst : firstNew? seen input = some (t, rest)) :
    t.text ∉ seen ∧ ∃ skipped, input = skipped ++ t :: rest ∧
      Recalls (seen.insert t.text) (before ++ skipped ++ [t]) ∧
      newTexts before (skipped ++ [t]) = [t] := by
  obtain ⟨hstopped, hnew, skipped, hinput, hskipped⟩ := firstNew?_eq_some hfirst
  have hrecalls := h.skip hskipped
  refine ⟨hnew, skipped, hinput, hrecalls.insert hstopped, ?_⟩
  have hfresh := fun hrepeated => hnew ((hrecalls t).mpr hrepeated)
  rw [newTexts_append, newTexts_eq_nil fun s hs => (hskipped s hs).imp_right (h s).mp,
    List.nil_append, newTexts, if_pos ⟨hstopped, hfresh⟩, newTexts]

end Recalls

/-- A pull yields the first of the tokens with new texts. -/
theorem next_eq_head? {s : DistinctStream} (h : Recalls s.seen before) :
    s.next.1 = (newTexts before s.input).head? := by
  simp only [next]
  cases hfirst : firstNew? s.seen s.input with
  | none => rw [(h.next_none hfirst).2, List.head?_nil]
  | some found =>
    obtain ⟨t, rest⟩ := found
    obtain ⟨-, skipped, hinput, -, hnew⟩ := h.next_some hfirst
    rw [hinput, List.append_cons, newTexts_append, hnew, List.singleton_append, List.head?_cons]

/-- The tokens that are taken from a stream are as many as asked for of those with new texts. -/
theorem take_eq {n : Nat} {s : DistinctStream} (h : Recalls s.seen before) :
    (s.take n).1 = (newTexts before s.input).take n := by
  induction n generalizing s before with
  | zero => rfl
  | succ n ih =>
    simp only [take, next]
    cases hfirst : firstNew? s.seen s.input with
    | none => rw [(h.next_none hfirst).2, List.take_nil]
    | some found =>
      obtain ⟨t, rest⟩ := found
      obtain ⟨-, skipped, hinput, hrecalls, hnew⟩ := h.next_some hfirst
      have hrest := ih (s := ⟨rest, s.seen.insert t.text⟩) hrecalls
      rw [hinput, List.append_cons, newTexts_append, hnew, List.singleton_append,
        List.take_succ_cons, ← List.append_assoc, ← hrest]

/-- A stream that is used up has yielded all tokens with new texts. -/
theorem toList_eq {s : DistinctStream} (h : Recalls s.seen before) :
    s.toList = newTexts before s.input := by
  rw [toList, drain, take_eq h]
  exact List.take_of_length_le (newTexts_sublist before s.input).length_le

end DistinctStream

/-! ### Any uses -/

open DistinctStream

/-- A use of a stream. -/
inductive StreamUse where
  | pull
  | reset (input : List Token)

/-- A stream that is used, with an account of its uses since it was given its input. -/
structure StreamInUse where
  stream : DistinctStream
  /-- The input that the stream was given last. -/
  input : List Token
  /-- The tokens that it has yielded of this input. -/
  yielded : List Token := []

namespace StreamInUse

/-- A new stream. -/
def ofInput (input : List Token) : StreamInUse := { stream := { input }, input }

/-- The stream after a use. -/
def act (s : StreamInUse) : StreamUse → StreamInUse
  | .pull =>
    { s with
      stream := s.stream.next.2
      yielded := s.yielded ++ s.stream.next.1.toList }
  | .reset input => { stream := s.stream.reset input, input }

/-- The stream after some uses. -/
def actAll (s : StreamInUse) (uses : List StreamUse) : StreamInUse := uses.foldl act s

/-- The input falls into tokens that the stream went through, of which it has yielded those with new
texts, and tokens that are left. -/
def Invariant (s : StreamInUse) : Prop :=
  ∃ before, s.input = before ++ s.stream.input ∧ Recalls s.stream.seen before ∧
    s.yielded = newTexts [] before ∧ s.stream.seenCount = s.yielded.length

variable {s : StreamInUse}

theorem invariant_ofInput (input : List Token) : (ofInput input).Invariant :=
  ⟨[], rfl, .empty, rfl, Std.TreeSet.size_emptyc⟩

namespace Invariant

theorem pull (h : s.Invariant) : (s.act .pull).Invariant := by
  obtain ⟨before, hinput, hrecalls, hyielded, hcount⟩ := h
  simp only [Invariant, act, next, seenCount] at hcount ⊢
  cases hfirst : firstNew? s.stream.seen s.stream.input with
  | none =>
    obtain ⟨hrecalls, hnone⟩ := hrecalls.next_none hfirst
    refine ⟨before ++ s.stream.input, ?_, hrecalls, ?_, ?_⟩
    · rw [List.append_nil, hinput]
    · rw [Option.toList_none, List.append_nil, newTexts_append, List.nil_append, hnone,
        List.append_nil, hyielded]
    · rw [Option.toList_none, List.append_nil, hcount]
  | some found =>
    obtain ⟨t, rest⟩ := found
    obtain ⟨hnew, skipped, hleft, hrecalls, hyields⟩ := hrecalls.next_some hfirst
    refine ⟨before ++ skipped ++ [t], ?_, hrecalls, ?_, ?_⟩
    · rw [hinput, hleft, List.append_assoc, List.append_assoc, List.singleton_append]
    · rw [Option.toList_some, List.append_assoc, newTexts_append, List.nil_append, hyields,
        hyielded]
    · rw [Option.toList_some, List.length_append, List.length_singleton, ← hcount,
        Std.TreeSet.size_insert, if_neg (mt Std.TreeSet.contains_iff_mem.mp hnew)]

/-- Whatever is done to a stream, its account stays right. -/
theorem act (h : s.Invariant) (use : StreamUse) : (s.act use).Invariant := by
  cases use with
  | pull => exact h.pull
  | reset input => exact invariant_ofInput input

theorem actAll (h : s.Invariant) (uses : List StreamUse) : (s.actAll uses).Invariant := by
  induction uses generalizing s with
  | nil => exact h
  | cons use rest ih => exact ih (h.act use)

/-- The tokens with new texts are those that were yielded and those that are left to be yielded. -/
theorem newTexts_eq (h : s.Invariant) :
    newTexts [] s.input = s.yielded ++ s.stream.toList := by
  obtain ⟨before, hinput, hrecalls, hyielded, -⟩ := h
  rw [toList_eq hrecalls, hinput, newTexts_append, List.nil_append, hyielded]

/-- The next pull yields the token with a new text that is next in turn. -/
theorem next_eq (h : s.Invariant) :
    s.stream.next.1 = (newTexts [] s.input)[s.yielded.length]? := by
  obtain ⟨before, hinput, hrecalls, hyielded, -⟩ := h
  rw [next_eq_head? hrecalls, hinput, newTexts_append, ← hyielded, List.nil_append,
    List.getElem?_append_right (Nat.le_refl _), Nat.sub_self, List.head?_eq_getElem?]

end Invariant

/-- After any uses, a stream has yielded the first ones of the tokens with new texts of its last
input, as they stand there, and each of them counts one text. The next pull yields the one that is
next in turn, and pulling until nothing is left yields the others. Tokens that are marked as removed
could as well be absent, and so could everything before a reset. -/
theorem yields_newTexts (input : List Token) (uses : List StreamUse) :
    let s := (ofInput input).actAll uses
    s.yielded <+: newTexts [] s.input ∧ (newTexts [] s.input).Sublist s.input ∧
      s.stream.next.1 = (newTexts [] s.input)[s.yielded.length]? ∧
      s.yielded ++ s.stream.toList = newTexts [] s.input ∧
      newTexts [] (s.input.filter (!·.stopped)) = newTexts [] s.input ∧
      s.stream.seenCount = s.yielded.length ∧
      ∀ input' later,
        (ofInput input).actAll (uses ++ .reset input' :: later) =
          (ofInput input').actAll later := by
  intro s
  have h : s.Invariant := (invariant_ofInput input).actAll uses
  have hall := h.newTexts_eq
  have hnext := h.next_eq
  obtain ⟨-, -, -, -, hcount⟩ := h
  refine ⟨⟨_, hall.symm⟩, newTexts_sublist [] s.input, hnext, hall.symm,
    newTexts_filter [] s.input, hcount, fun input' later => ?_⟩
  rw [actAll, List.foldl_append]
  rfl

/-- The removed token does not keep the next one from being yielded, and the reset leaves the last
token of the first input behind. -/
example : ((ofInput [⟨"x", 0, 0, 0, false⟩, ⟨"y", 1, 0, 0, false⟩]).actAll [.pull,
    .reset [⟨"x", 0, 0, 0, true⟩, ⟨"x", 1, 0, 0, false⟩, ⟨"x", 2, 0, 0, false⟩], .pull,
    .pull]).yielded = [⟨"x", 1, 0, 0, false⟩] := by
  decide +kernel

end StreamInUse

end Percolator
