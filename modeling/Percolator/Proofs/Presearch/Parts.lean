import Mathlib.Data.List.Infix
import Percolator.Presearch.Basic

/-!
# The parts of texts

The parts of a text are its stretches that are not longer than the limit. To find them, the limit is
added to every place of the text; with a limit so great that a sum does not fit into a word of 64
bits, the computation crashes, although the settings are accepted and all parts are within the text.

## Main definitions

* `Collects` : a computation has a list with certain elements, or crashes.

## Main results

* `Collects.flatMapM` : computations that collect elements do so together.
* `Parts.collects_all` : the parts of a text, and when there are none to be had.
* `Presearch.parts_exact` : the parts of a text, and the keys of literals among them.
-/

namespace Percolator

/-! ### Computations that crash -/

/-- If `P` holds, the computation has a list of what `S` is true of; otherwise it crashes. -/
structure Collects {α : Type} (P : Prop) (S : α → Prop) (x : Except Fault (List α)) : Prop where
  exists_list : P → ∃ as, x = .ok as ∧ ∀ a, a ∈ as ↔ S a
  eq_crash : ¬P → x = .error .crash

namespace Collects

variable {α β : Type} {P Q : Prop} {S T : α → Prop} {x : Except Fault (List α)}

theorem congr (h : Collects P S x) (hP : P ↔ Q) (hS : ∀ a, S a ↔ T a) : Collects Q T x := by
  obtain rfl : P = Q := propext hP
  obtain rfl : S = T := funext fun a => propext (hS a)
  exact h

/-- A list that the computation has is the one that it collects. -/
theorem of_eq_ok (h : Collects P S x) {as : List α} (hx : x = .ok as) :
    P ∧ ∀ a, a ∈ as ↔ S a := by
  by_cases hP : P
  · obtain ⟨as', hx', has'⟩ := h.exists_list hP
    obtain rfl := Except.ok.inj (hx.symm.trans hx')
    exact ⟨hP, has'⟩
  · simp only [h.eq_crash hP, reduceCtorEq] at hx

/-- What is made of a list does not change when the computation crashes. -/
theorem bind_ok (h : Collects P S x) {g : List α → List β} {U : β → Prop}
    (hg : ∀ as, (∀ a, a ∈ as ↔ S a) → ∀ b, b ∈ g as ↔ U b) :
    Collects P U (do .ok (g (← x))) where
  exists_list hP := by
    obtain ⟨as, rfl, has⟩ := h.exists_list hP
    exact ⟨g as, rfl, hg as has⟩
  eq_crash hP := by
    rw [h.eq_crash hP]
    rfl

/-- Computations that collect elements one after the other crash together if one of them does. -/
theorem flatMapM {f : β → Except Fault (List α)} {P : β → Prop} {S : β → α → Prop} {bs : List β}
    (h : ∀ b ∈ bs, Collects (P b) (S b) (f b)) :
    Collects (∀ b ∈ bs, P b) (fun a => ∃ b ∈ bs, S b a) (bs.flatMapM f) := by
  induction bs with
  | nil => exact ⟨fun _ => ⟨[], rfl, by simp⟩, fun hP => absurd nofun hP⟩
  | cons b rest ih =>
    obtain ⟨hb, hrest⟩ := List.forall_mem_cons.mp h
    have ih := ih hrest
    rw [List.flatMapM_cons]
    refine ⟨fun hP => ?_, fun hP => ?_⟩
    · obtain ⟨hPb, hPrest⟩ := List.forall_mem_cons.mp hP
      obtain ⟨as, has, hmem⟩ := hb.exists_list hPb
      obtain ⟨as', has', hmem'⟩ := ih.exists_list hPrest
      refine ⟨as ++ as', by rw [has, has']; rfl, fun a => ?_⟩
      rw [List.mem_append, hmem, hmem', List.exists_mem_cons_iff]
    · by_cases hPb : P b
      · obtain ⟨as, has, -⟩ := hb.exists_list hPb
        rw [has, ih.eq_crash fun hPrest => hP (List.forall_mem_cons.mpr ⟨hPb, hPrest⟩)]
        rfl
      · rw [hb.eq_crash hPb]
        rfl

end Collects

/-! ### Parts -/

namespace Parts

variable {limit : UInt64} {text : List Char}

/-- The text is a part of another one: it stands in there, is not empty and not longer than the
limit. -/
structure IsPart (limit : UInt64) (text : List Char) (part : String) : Prop where
  ne_empty : part ≠ ""
  isInfix : part.toList <:+: text
  length_le : part.toList.length ≤ limit.toNat

private theorem collects_startingAt {start : Nat} :
    Collects (start + limit.toNat < UInt64.size)
      (fun part => ∃ stop, start < stop ∧ stop ≤ start + limit.toNat ∧ stop ≤ text.length ∧
        part = String.ofList ((text.take stop).drop start))
      (startingAt limit text start) := by
  refine ⟨fun hfits => ?_, fun hfits => ?_⟩
  · refine ⟨_, by rw [startingAt, bound, if_pos hfits]; rfl, fun part => ?_⟩
    simp only [List.mem_map, List.mem_range'_1]
    constructor
    · rintro ⟨stop, hstop, rfl⟩
      exact ⟨stop, by omega, by omega, by omega, rfl⟩
    · rintro ⟨stop, hlt, hlimit, hlength, rfl⟩
      exact ⟨stop, by omega, rfl⟩
  · rw [startingAt, bound, if_neg hfits]
    rfl

/-- Where a text is cut in front of and behind its parts. -/
private theorem exists_stop_iff_isPart {part : String} :
    (∃ start ∈ List.range text.length, ∃ stop, start < stop ∧ stop ≤ start + limit.toNat ∧
        stop ≤ text.length ∧ part = String.ofList ((text.take stop).drop start)) ↔
      IsPart limit text part := by
  constructor
  · rintro ⟨start, -, stop, hlt, hlimit, hlength, rfl⟩
    have hstretch : ((text.take stop).drop start).length = stop - start := by
      rw [List.length_drop, List.length_take]
      omega
    refine ⟨fun hempty => ?_, ?_, ?_⟩
    · rw [String.ofList_eq_empty_iff.mp hempty, List.length_nil] at hstretch
      omega
    · rw [String.toList_ofList]
      exact (List.drop_suffix _ _).isInfix.trans (List.take_prefix _ _).isInfix
    · rw [String.toList_ofList, hstretch]
      omega
  · rintro ⟨hne, ⟨front, back, rfl⟩, hlimit⟩
    have hpos : 0 < part.toList.length :=
      List.length_pos_of_ne_nil fun h => hne (String.toList_eq_nil_iff.mp h)
    refine ⟨front.length, ?_, front.length + part.toList.length, by omega, by omega, ?_, ?_⟩
    · simp only [List.mem_range, List.length_append]
      omega
    · simp only [List.length_append]
      omega
    · rw [← List.length_append, List.take_left, List.drop_left, String.ofList_toList]

/-- The parts of a text are found if the limit can be added to each of its places. -/
theorem collects_all : Collects (limit.toNat + text.length ≤ UInt64.size) (IsPart limit text)
    (all limit text) := by
  refine (Collects.flatMapM fun _ _ => collects_startingAt).congr ?_ fun _ => exists_stop_iff_isPart
  simp only [List.mem_range]
  have hlimit : limit.toNat < UInt64.size := limit.toNat_lt
  constructor
  · intro hfits
    by_contra hlong
    have hlast := hfits (text.length - 1) (by omega)
    omega
  · intro hfits start hstart
    omega

theorem collects_ofEach {texts : List String} :
    Collects (∀ text ∈ texts, limit.toNat + text.toList.length ≤ UInt64.size)
      (fun part => ∃ text ∈ texts, IsPart limit text.toList part) (ofEach limit texts) :=
  (Collects.flatMapM fun _ _ => collects_all).bind_ok fun as has part => by
    rw [Std.TreeSet.mem_toList, Std.TreeSet.mem_ofList, List.contains_iff_mem, has]

end Parts

/-- Settings are accepted as they are, unless the limit is zero or a name is empty. -/
theorem PresearchSettings.validate_eq_ok_iff {s s' : PresearchSettings} : s.validate = .ok s' ↔
    s.maxPart ≠ 0 ∧ ¬(s.anyField.isEmpty ∨ s.anyText.isEmpty) ∧ ¬s.partSuffix.isEmpty ∧
      s = s' := by
  rw [validate]
  split
  · next hlimit => simp only [reduceCtorEq, hlimit, ne_eq, not_true_eq_false, false_and]
  · next hlimit =>
    split
    · next hany => simp only [reduceCtorEq, hany, not_true_eq_false, false_and, and_false]
    · next hany =>
      split
      · next hsuffix =>
        simp only [reduceCtorEq, hsuffix, not_true_eq_false, false_and, and_false]
      · next hsuffix =>
        simp only [Except.ok.injEq, ne_eq, hlimit, hany, hsuffix, not_false_eq_true, true_and,
          Bool.false_eq_true]

namespace Presearch

variable {p : Presearch}

/-- The text under which a literal is filed is a part of every text that the literal stands in. -/
theorem isPart_keyOf (hlimit : p.settings.maxPart ≠ 0) {field literal : String} {text : List Char}
    (hne : literal ≠ "") (h : literal.toList <:+: text) :
    Parts.IsPart p.settings.maxPart text (p.keyOf ⟨field, literal, .part⟩).2 := by
  have hkey : (p.keyOf ⟨field, literal, .part⟩).2.toList =
      literal.toList.take p.settings.maxPart.toNat := String.toList_ofList
  refine ⟨fun hempty => ?_, ?_, ?_⟩
  · rw [hempty, String.toList_empty, eq_comm, List.take_eq_nil_iff] at hkey
    rcases hkey with hzero | hnil
    · exact hlimit (UInt64.toNat_inj.mp hzero)
    · exact hne (String.toList_eq_nil_iff.mp hnil)
  · rw [hkey]
    exact (List.take_prefix _ _).isInfix.trans h
  · rw [hkey]
    exact List.length_take_le _ _

/-- Whatever limit the settings are accepted with: if it can be added to every place of a text, the
parts of the text are its stretches within the limit, and the key of every literal that stands in
the text is among them. Otherwise there is no list of parts. -/
theorem parts_exact (hp : p.settings.validate = .ok p.settings) (text : String) :
    (p.settings.maxPart.toNat + text.toList.length ≤ UInt64.size →
      ∃ parts, Parts.all p.settings.maxPart text.toList = .ok parts ∧
        (∀ part, part ∈ parts ↔ part ≠ "" ∧ part.toList <:+: text.toList ∧
          part.toList.length ≤ p.settings.maxPart.toNat) ∧
        ∀ field literal, literal ≠ "" → literal.toList <:+: text.toList →
          (p.keyOf ⟨field, literal, .part⟩).2 ∈ parts) ∧
    (UInt64.size < p.settings.maxPart.toNat + text.toList.length →
      Parts.all p.settings.maxPart text.toList = .error .crash) := by
  refine ⟨fun hfits => ?_, fun hlong => Parts.collects_all.eq_crash (Nat.not_le.mpr hlong)⟩
  obtain ⟨parts, hparts, hmem⟩ := Parts.collects_all.exists_list hfits
  refine ⟨parts, hparts, fun part => ?_, fun field literal hne hinfix => ?_⟩
  · rw [hmem]
    exact ⟨fun ⟨hne, hinfix, hlength⟩ => ⟨hne, hinfix, hlength⟩,
      fun ⟨hne, hinfix, hlength⟩ => ⟨hne, hinfix, hlength⟩⟩
  · exact (hmem _).mpr
      (isPart_keyOf (PresearchSettings.validate_eq_ok_iff.mp hp).1 hne hinfix)

/-- A presearch with the greatest limit that settings can have. -/
def unlimited : Presearch := { settings := { maxPart := UInt64.ofNat (UInt64.size - 1) } }

/-- With the standard limit, a text has its parts; with the greatest one, there is no list. -/
theorem parts_exact_ab :
    ({} : Presearch).settings.validate = .ok ({} : Presearch).settings ∧
    ({} : Presearch).settings.maxPart.toNat + "ab".toList.length ≤ UInt64.size ∧
    (∃ parts, Parts.all ({} : Presearch).settings.maxPart "ab".toList = .ok parts ∧
      parts = ["a", "ab", "b"] ∧ ("b" ∈ parts ↔ "b" ≠ "" ∧ "b".toList <:+: "ab".toList ∧
        "b".toList.length ≤ ({} : Presearch).settings.maxPart.toNat) ∧
      (({} : Presearch).keyOf ⟨"body", "b", .part⟩).2 ∈ parts) ∧
    unlimited.settings.validate = .ok unlimited.settings ∧
    UInt64.size < unlimited.settings.maxPart.toNat + "ab".toList.length ∧
    Parts.all unlimited.settings.maxPart "ab".toList = .error .crash := by
  have hp : ({} : Presearch).settings.validate = .ok _ := rfl
  have hp' : unlimited.settings.validate = .ok _ := rfl
  obtain ⟨parts, hparts, hmem, hkey⟩ := (parts_exact hp "ab").1 (by decide)
  refine ⟨hp, by decide, ⟨parts, hparts, ?_, hmem "b", ?_⟩, hp', by decide,
    (parts_exact hp' "ab").2 (by decide)⟩
  · exact Except.ok.inj (hparts.symm.trans rfl)
  · exact hkey "body" "b" (by decide) ⟨['a'], [], rfl⟩

/-- With the greatest limit, which is accepted, the parts of a text of two characters are not found:
the limit is added to the place of the second one. So the key of a literal that stands in the text
is not among them. -/
theorem parts_crash : unlimited.settings.validate = .ok unlimited.settings ∧
    "b".toList <:+: "ab".toList ∧ "b" ≠ "" ∧
    "b".toList.length ≤ unlimited.settings.maxPart.toNat ∧
    (unlimited.keyOf ⟨"body", "b", .part⟩).2 = "b" ∧
    Parts.all unlimited.settings.maxPart "ab".toList = .error .crash ∧
    ¬∃ parts, Parts.all unlimited.settings.maxPart "ab".toList = .ok parts ∧ "b" ∈ parts := by
  have hcrash : Parts.all unlimited.settings.maxPart "ab".toList = .error .crash := rfl
  refine ⟨rfl, ⟨['a'], [], rfl⟩, by decide, by decide, rfl, hcrash, ?_⟩
  rintro ⟨parts, hparts, -⟩
  simp only [hcrash, reduceCtorEq] at hparts

end Presearch

end Percolator
