import Percolator.Proofs.Glob
import Percolator.Proofs.Pattern.Reader.Runs
import Percolator.Proofs.Pattern.Sequence

/-!
# The language of globs

A glob is made into a regular expression: a star into `.*`, a question mark into a dot, and every
other character into an escape of itself where it has a meaning of its own. A dot does not stand for
a line feed, and so neither do a star and a question mark. In terms without line feeds, they stand
for any character.

## Main definitions

* `Glob.Describes` : the characters of a glob describe a text, character by character.
* `Glob.pattern` : the regular expression that a glob is made into.

## Main results

* `Glob.read?_pattern` : the regular expression is read as the expression of the glob.
* `Glob.occursIn_expr_iff` : the expression of the glob decides what the glob matches.
* `Glob.contains_iff_describes` : what a glob matches, and where this is what its characters say.
-/

namespace Percolator

open Pattern (Expr Element Level Look Reading)

namespace Glob

variable {wild wild' : Char → Prop} {source text : List Char} {items : List GlobItem}

/-! ### The characters of a glob -/

/-- The characters of a glob describe the text if the wildcards stand for the characters that `wild`
holds of: a star for any number of them and a question mark for one. -/
inductive Describes (wild : Char → Prop) : List Char → List Char → Prop
  | nil : Describes wild [] []
  /-- A backslash at the end stands for itself. -/
  | lone : Describes wild ['\\'] ['\\']
  | escaped {source text : List Char} (c : Char) (hrest : Describes wild source text) :
      Describes wild ('\\' :: c :: source) (c :: text)
  | many {source piece text : List Char} (hpiece : ∀ c ∈ piece, wild c)
      (hrest : Describes wild source text) : Describes wild ('*' :: source) (piece ++ text)
  | one {c : Char} {source text : List Char} (hc : wild c) (hrest : Describes wild source text) :
      Describes wild ('?' :: source) (c :: text)
  | plain {c : Char} {source text : List Char} (hescape : c ≠ '\\') (hmany : c ≠ '*')
      (hone : c ≠ '?') (hrest : Describes wild source text) :
      Describes wild (c :: source) (c :: text)

/-- What the wildcards stand for matters for the characters of the text only. -/
theorem Describes.mono (h : Describes wild source text) (hwild : ∀ c ∈ text, wild c → wild' c) :
    Describes wild' source text := by
  induction h with
  | nil => exact .nil
  | lone => exact .lone
  | escaped c _ ih => exact .escaped c (ih fun d hd => hwild d (List.mem_cons_of_mem c hd))
  | many hpiece _ ih =>
    refine .many (fun c hc => hwild c (List.mem_append_left _ hc) (hpiece c hc)) ?_
    exact ih fun d hd => hwild d (List.mem_append_right _ hd)
  | one hc _ ih =>
    exact .one (hwild _ List.mem_cons_self hc) (ih fun d hd => hwild d (List.mem_cons_of_mem _ hd))
  | plain hescape hmany hone _ ih =>
    exact .plain hescape hmany hone (ih fun d hd => hwild d (List.mem_cons_of_mem _ hd))

theorem describes_escaped_iff {c : Char} :
    Describes wild ('\\' :: c :: source) text ↔
      ∃ rest, text = c :: rest ∧ Describes wild source rest := by
  constructor
  · intro h
    cases h with
    | escaped _ hrest => exact ⟨_, rfl, hrest⟩
    | plain hescape => exact absurd rfl hescape
  · rintro ⟨rest, rfl, hrest⟩
    exact .escaped c hrest

theorem describes_many_iff :
    Describes wild ('*' :: source) text ↔
      ∃ piece rest, text = piece ++ rest ∧ (∀ c ∈ piece, wild c) ∧ Describes wild source rest := by
  constructor
  · intro h
    cases h with
    | many hpiece hrest => exact ⟨_, _, rfl, hpiece, hrest⟩
    | plain _ hmany => exact absurd rfl hmany
  · rintro ⟨piece, rest, rfl, hpiece, hrest⟩
    exact .many hpiece hrest

theorem describes_one_iff :
    Describes wild ('?' :: source) text ↔
      ∃ c rest, text = c :: rest ∧ wild c ∧ Describes wild source rest := by
  constructor
  · intro h
    cases h with
    | one hc hrest => exact ⟨_, _, rfl, hc, hrest⟩
    | plain _ _ hone => exact absurd rfl hone
  · rintro ⟨c, rest, rfl, hc, hrest⟩
    exact .one hc hrest

theorem describes_plain_iff {c : Char} (hescape : c ≠ '\\') (hmany : c ≠ '*') (hone : c ≠ '?') :
    Describes wild (c :: source) text ↔ ∃ rest, text = c :: rest ∧ Describes wild source rest := by
  constructor
  · intro h
    cases h with
    | lone => exact absurd rfl hescape
    | escaped => exact absurd rfl hescape
    | many => exact absurd rfl hmany
    | one => exact absurd rfl hone
    | plain _ _ _ hrest => exact ⟨_, rfl, hrest⟩
  · rintro ⟨rest, rfl, hrest⟩
    exact .plain hescape hmany hone hrest

/-- The text falls into pieces for the elements of a glob if the characters of the glob describe
it. -/
theorem splits_read_iff :
    Splits (read source) text ↔ Describes (fun c => isWild c = true) source text := by
  fun_induction read source generalizing text with
  | case1 =>
    constructor
    · rintro ⟨⟩
      exact .nil
    · rintro ⟨⟩
      exact .nil
  | case2 =>
    rw [splits_char_iff]
    constructor
    · rintro ⟨rest, rfl, ⟨⟩⟩
      exact .lone
    · intro h
      cases h with
      | lone => exact ⟨[], rfl, .nil⟩
      | plain hescape => exact absurd rfl hescape
  | case3 c rest ih => simp only [splits_char_iff, describes_escaped_iff, ih]
  | case4 rest ih => simp only [splits_cons_iff, describes_many_iff, GlobItem.Reads, ih]
  | case5 rest ih =>
    rw [splits_cons_iff, describes_one_iff]
    constructor
    · rintro ⟨piece, text, rfl, ⟨c, rfl, hc⟩, hrest⟩
      exact ⟨c, text, rfl, hc, ih.mp hrest⟩
    · rintro ⟨c, text, rfl, hc, hrest⟩
      exact ⟨[c], text, rfl, ⟨c, rfl, hc⟩, ih.mpr hrest⟩
  | case6 c rest hlone hescape hmany hone ih =>
    simp only [splits_char_iff, describes_plain_iff (ne_backslash hlone hescape) hmany hone, ih]

/-! ### The expression of a glob -/

section Expressions

open Pattern Pattern.Expr

variable {text : Array Char} {i j : Nat}

/-- A dot stands for the characters that a wildcard stands for. -/
theorem contains_dot (c : Char) : (CharSet.single '\n').complement.contains c = isWild c := by
  have hranges : (CharSet.single '\n').complement = ⟨[⟨0, 9⟩, ⟨11, 0x10FFFF⟩]⟩ := rfl
  have hlast : c.toNat ≤ 0x10FFFF := by
    have hvalid := c.valid
    have htoNat : c.toNat = c.val.toNat := rfl
    rcases hvalid with h | ⟨-, h⟩ <;> omega
  have hlineFeed : c.toNat = 10 ↔ c = '\n' := by
    rw [show (10 : Nat) = '\n'.toNat from rfl, Char.toNat_inj]
  rw [hranges, Bool.eq_iff_iff]
  simp only [CharSet.contains, CharSet.holds, List.any_cons, List.any_nil, CharRange.holds,
    Bool.or_eq_true, Bool.and_eq_true, decide_eq_true_eq, Bool.or_false, isWild, bne_iff_ne, ne_eq,
    ← hlineFeed]
  omega

theorem piece_toList_singleton_iff {c : Char} :
    Piece text.toList i j [c] ↔ text[i]? = some c ∧ j = i + 1 := by
  constructor
  · intro h
    obtain rfl := h.length_eq
    exact ⟨by simpa only [Array.getElem?_toList] using piece_singleton_iff.mp h, rfl⟩
  · rintro ⟨h, rfl⟩
    exact piece_singleton_iff.mpr (by simpa only [Array.getElem?_toList] using h)

theorem matches_dot_iff :
    (Expr.oneOf .unicode (CharSet.single '\n').complement).Matches text i j ↔
      ∃ c, Piece text.toList i j [c] ∧ isWild c = true := by
  simp only [Matches, contains_dot, piece_toList_singleton_iff]
  constructor
  · rintro ⟨⟨c, hc, hwild⟩, rfl⟩
    exact ⟨c, ⟨hc, rfl⟩, hwild⟩
  · rintro ⟨c, ⟨hc, rfl⟩, hwild⟩
    exact ⟨⟨c, hc, hwild⟩, rfl⟩

/-- Several dots stand for as many characters. -/
theorem exists_times_dot_iff :
    (∃ n, Times (fun i j =>
        (Expr.oneOf .unicode (CharSet.single '\n').complement).Matches text i j) n i j) ↔
      ∃ piece, Piece text.toList i j piece ∧ ∀ c ∈ piece, isWild c = true := by
  simp only [matches_dot_iff]
  constructor
  · rintro ⟨n, hn⟩
    induction n generalizing i with
    | zero =>
      obtain rfl := hn
      exact ⟨[], .refl _ i, fun c hc => absurd hc List.not_mem_nil⟩
    | succ n ih =>
      obtain ⟨k, ⟨c, hpiece, hc⟩, hrest⟩ := hn
      obtain ⟨rest, hrest, hwild⟩ := ih hrest
      exact ⟨c :: rest, hpiece.trans hrest, List.forall_mem_cons.mpr ⟨hc, hwild⟩⟩
  · rintro ⟨piece, hpiece, hwild⟩
    induction piece generalizing i with
    | nil => exact ⟨0, hpiece.length_eq⟩
    | cons c rest ih =>
      obtain ⟨hc, hwild⟩ := List.forall_mem_cons.mp hwild
      rw [← List.singleton_append] at hpiece
      obtain ⟨k, hfirst, hrest⟩ := hpiece.split
      obtain ⟨n, hn⟩ := ih hrest hwild
      exact ⟨n + 1, k, ⟨c, hfirst, hc⟩, hn⟩

theorem matches_itemExpr_iff {item : GlobItem} :
    (itemExpr item).Matches text i j ↔
      ∃ piece, Piece text.toList i j piece ∧ item.Reads piece := by
  cases item with
  | char c =>
    simp only [itemExpr, Matches, GlobItem.Reads, exists_eq_right, piece_toList_singleton_iff,
      standsAt, Bool.and_eq_true, beq_iff_eq, List.length_singleton]
    constructor
    · rintro ⟨⟨hc, -⟩, hj⟩
      exact ⟨hc, hj⟩
    · rintro ⟨hc, hj⟩
      exact ⟨⟨hc, decide_eq_true (Array.getElem?_eq_some_iff.mp hc).1⟩, hj⟩
  | one =>
    rw [itemExpr, matches_dot_iff]
    constructor
    · rintro ⟨c, hpiece, hc⟩
      exact ⟨[c], hpiece, c, rfl, hc⟩
    · rintro ⟨piece, hpiece, c, rfl, hc⟩
      exact ⟨c, hpiece, hc⟩
  | many =>
    simp only [itemExpr, GlobItem.Reads, ← exists_times_dot_iff]
    simp only [Matches, Nat.zero_le, true_and, reduceCtorEq, false_implies, implies_true]

theorem matchesAll_itemExpr_iff {items : List GlobItem} :
    MatchesAll text (items.map itemExpr) i j ↔
      ∃ piece, Piece text.toList i j piece ∧ Splits items piece := by
  induction items generalizing i with
  | nil =>
    constructor
    · rintro rfl
      exact ⟨[], .refl _ i, .nil⟩
    · rintro ⟨piece, hpiece, ⟨⟩⟩
      exact hpiece.length_eq
  | cons item items ih =>
    simp only [List.map_cons, MatchesAll, matches_itemExpr_iff, ih]
    constructor
    · rintro ⟨k, ⟨piece, hpiece, hreads⟩, rest, hrest, hsplits⟩
      exact ⟨piece ++ rest, hpiece.trans hrest, .cons hreads hsplits⟩
    · rintro ⟨_, hwhole, hsplits⟩
      obtain ⟨piece, rest, rfl, hreads, hsplits⟩ := splits_cons_iff.mp hsplits
      obtain ⟨k, hpiece, hrest⟩ := hwhole.split
      exact ⟨k, ⟨piece, hpiece, hreads⟩, rest, hrest, hsplits⟩

/-- The expression of the glob decides what the glob matches. -/
theorem occursIn_expr_iff (g : Glob) (term : String) :
    g.expr.occursIn term.toList.toArray = true ↔ g.contains term = true := by
  have hfeasible : AllFeasible (g.items.map itemExpr) := by
    refine allFeasible_iff.mpr fun e he => ?_
    obtain ⟨item, -, rfl⟩ := List.mem_map.mp he
    cases item with
    | char c => exact trivial
    | one => exact trivial
    | many => exact ⟨fun m hm => Nat.zero_le m, trivial⟩
  rw [expr, occursIn_anchored_iff hfeasible, matchesAll_itemExpr_iff, contains_iff_splits]
  have hsize : term.toList.toArray.size = term.toList.length := List.size_toArray
  simp only [hsize, piece_whole_iff, exists_eq_left]

/-! ### The regular expression of a glob -/

/-- What an element is made into. -/
def itemText : GlobItem → List Char
  | .char c => if isMeta c then ['\\', c] else [c]
  | .one => ['.']
  | .many => ['.', '*']

/-- The regular expression that a glob is made into. -/
def pattern (g : Glob) : String := String.ofList ('^' :: g.items.flatMap itemText ++ ['$'])

/-- The element of a sequence that is read for an element of a glob. -/
def itemElement (item : GlobItem) : Element := ⟨itemExpr item, if item = .many then 1 else 0, false⟩

theorem atom?_char {r : Reading} (hflags : r.level.flags = {}) (c : Char) (t : List Char) :
    r.atom? (.char c false) t = some (r.push ⟨.literal [c], 0, false⟩ t) := by
  have hfold : r.level.flags.ofChar? c false = some (.literal [c]) := by
    rw [hflags]
    simp [Flags.ofChar?, Flags.fold]
  rw [Reading.atom?]
  simp [hfold]

theorem escape?_of_isMeta {c : Char} (h : isMeta c = true) (f : Flags) (t : List Char) :
    escape? f (c :: t) = some (.char c false, t) := by
  simp only [isMeta, List.mem_cons, List.not_mem_nil, or_false, decide_eq_true_eq] at h
  rcases h with rfl | rfl | rfl | rfl | rfl | rfl | rfl | rfl | rfl | rfl | rfl | rfl | rfl | rfl |
    rfl | rfl | rfl | rfl
  all_goals rfl

theorem dot?_default :
    ({} : Flags).dot? = some (.oneOf .unicode (CharSet.single '\n').complement) := by
  have hlineEnds : ({} : Flags).lineEnds = CharSet.single '\n' := by
    simp only [Flags.lineEnds, Bool.false_eq_true, if_false, CharSet.ofRanges,
      List.mergeSort_singleton, CharSet.join]
    rfl
  rw [Flags.dot?, hlineEnds]
  rfl

theorem step?_dot {r : Reading} (hflags : r.level.flags = {}) (t : List Char) :
    r.step? '.' t = some (r.push (itemElement .one) t) := by
  rw [Reading.step?, hflags, dot?_default]
  rfl

/-- A star behind a dot, which no question mark follows. -/
theorem step?_star {r : Reading} (hflags : r.level.flags = {}) {t : List Char}
    (ht : t.head? ≠ some '?') :
    (r.push (itemElement .one) []).step? '*' t = some (r.push (itemElement .many) t) := by
  have hrepeat : (r.level.add (itemElement .one)).repeat? 0 none false =
      some (r.level.add (itemElement .many)) := by
    simp only [Level.add, Level.repeat?, itemElement, hflags]
    rfl
  cases t with
  | nil => simp [Reading.step?, Reading.repetition?, Reading.push, hrepeat]
  | cons c t =>
    have hc : c ≠ '?' := mt (congrArg some) ht
    simp [Reading.step?, Reading.repetition?, Reading.push, hc, hrepeat]

/-- Reading an element of a glob adds it to the sequence. -/
theorem finish?_itemText {r : Reading} (hflags : r.level.flags = {}) (item : GlobItem)
    {t : List Char} (ht : t.head? ≠ some '?') :
    (r.on (itemText item ++ t)).finish? = ((r.push (itemElement item) []).on t).finish? := by
  cases item with
  | char c =>
    by_cases hmeta : isMeta c = true
    · have hstep : r.step? '\\' (c :: t) = some (r.push ⟨.literal [c], 0, false⟩ t) := by
        rw [Reading.step?, escape?_of_isMeta hmeta]
        exact atom?_char hflags c t
      rw [itemText, if_pos hmeta]
      exact (Reading.finish?_on_cons hflags '\\' (c :: t)).trans (by rw [hstep]; rfl)
    · have hplain : c ∉ ['(', ')', '|', '[', '?', '*', '+', '\x7b', '\\', '.', '^', '$'] := by
        refine fun hc => hmeta (decide_eq_true ?_)
        simp only [List.mem_cons, List.not_mem_nil, or_false] at hc ⊢
        tauto
      rw [itemText, if_neg hmeta, List.singleton_append, Reading.finish?_on_cons hflags,
        step?_of_plain hplain, atom?_char hflags]
      rfl
  | one =>
    rw [itemText, List.singleton_append, Reading.finish?_on_cons hflags, step?_dot hflags]
    rfl
  | many =>
    have hdot : (r.on ('.' :: '*' :: t)).finish? =
        ((r.push (itemElement .one) []).on ('*' :: t)).finish? := by
      rw [Reading.finish?_on_cons hflags, step?_dot hflags]
      rfl
    refine hdot.trans ?_
    rw [Reading.finish?_on_cons (r := r.push (itemElement .one) []) hflags, step?_star hflags ht]
    rfl

/-- What an element is made into does not begin with a question mark. -/
theorem head?_itemText_append (item : GlobItem) (t : List Char) :
    (itemText item ++ t).head? ≠ some '?' := by
  cases item with
  | char c =>
    rw [itemText]
    split_ifs with hmeta
    · exact mt Option.some.inj (by decide)
    · refine mt Option.some.inj fun hc => hmeta ?_
      rw [hc]
      rfl
  | one => exact mt Option.some.inj (by decide)
  | many => exact mt Option.some.inj (by decide)

theorem head?_flatMap_itemText (items : List GlobItem) {t : List Char} (ht : t.head? ≠ some '?') :
    (items.flatMap itemText ++ t).head? ≠ some '?' := by
  cases items with
  | nil => exact ht
  | cons item items =>
    rw [List.flatMap_cons, List.append_assoc]
    exact head?_itemText_append item _

/-- The state in which further elements of the sequence were read. -/
def pushAll (r : Reading) (es : List Element) : Reading :=
  { r with level := { r.level with elements := es.reverse ++ r.level.elements } }

theorem pushAll_cons (r : Reading) (e : Element) (es : List Element) (t : List Char) :
    (pushAll r (e :: es)).on t = (pushAll (r.push e []) es).on t := by
  simp only [pushAll, List.reverse_cons, List.append_assoc, List.singleton_append]
  rfl

theorem pushAll_concat (r : Reading) (es : List Element) (e : Element) (t : List Char) :
    (pushAll r (es ++ [e])).on t = (pushAll r es).push e t := by
  simp only [pushAll, List.reverse_append]
  rfl

theorem finish?_flatMap_itemText {r : Reading} (hflags : r.level.flags = {}) (items : List GlobItem)
    {t : List Char} (ht : t.head? ≠ some '?') :
    (r.on (items.flatMap itemText ++ t)).finish? =
      ((pushAll r (items.map itemElement)).on t).finish? := by
  induction items generalizing r with
  | nil => rfl
  | cons item items ih =>
    rw [List.flatMap_cons, List.append_assoc,
      finish?_itemText hflags item (head?_flatMap_itemText items ht)]
    rw [List.map_cons, pushAll_cons]
    exact ih (r := r.push (itemElement item) []) hflags

theorem foldl_max_depth_le {es : List Element} {d n : Nat} (hd : d ≤ n)
    (h : ∀ e ∈ es, e.depth ≤ n) : es.foldl (fun d e => max d e.depth) d ≤ n := by
  induction es generalizing d with
  | nil => exact hd
  | cons e es ih =>
    obtain ⟨he, hes⟩ := List.forall_mem_cons.mp h
    exact ih (Nat.max_le.mpr ⟨hd, he⟩) hes

/-- A sequence is one deeper than its elements. -/
theorem depth_branch_le {l : Level} {n : Nat} (h : ∀ e ∈ l.elements, e.depth ≤ n) :
    l.branch.2 ≤ n + 1 := by
  have hfold := foldl_max_depth_le (Nat.zero_le n) h
  simp only [Level.branch]
  split
  · exact Nat.zero_le _
  · next e heq =>
    have he := h e (heq ▸ List.mem_singleton_self e)
    omega
  · exact Nat.succ_le_succ hfold

/-- The start of the text as an element of a sequence. -/
def startElement : Element := ⟨.look .textStart, 0, false⟩

/-- The end of the text as an element of a sequence. -/
def endElement : Element := ⟨.look .textEnd, 0, false⟩

/-- The elements of the sequence that is read for a glob, in order. -/
def elements (g : Glob) : List Element :=
  startElement :: g.items.map itemElement ++ [endElement]

theorem finish?_pattern (g : Glob) :
    (Reading.start.on g.pattern.toList).finish? =
      some ((pushAll Reading.start g.elements).on []) := by
  have htext : g.pattern.toList = '^' :: (g.items.flatMap itemText ++ ['$']) := by
    rw [pattern, String.toList_ofList, List.cons_append]
  have hstart : (Reading.start.on ('^' :: (g.items.flatMap itemText ++ ['$']))).finish? =
      ((Reading.start.push startElement []).on (g.items.flatMap itemText ++ ['$'])).finish? :=
    Reading.finish?_on_cons rfl '^' _
  have hitems := finish?_flatMap_itemText (r := Reading.start.push startElement []) rfl g.items
    (t := ['$']) (mt Option.some.inj (by decide))
  have hend : ((pushAll (Reading.start.push startElement []) (g.items.map itemElement)).on
      ['$']).finish? =
      some ((pushAll (Reading.start.push startElement []) (g.items.map itemElement)).push
        endElement []) :=
    Reading.finish?_on_cons rfl '$' []
  rw [htext, hstart, hitems, hend, ← pushAll_concat, ← pushAll_cons]
  rfl

theorem body_pushAll_start (es : List Element) :
    (pushAll Reading.start es).level.body.1 = .seq (es.map (·.expr)) := by
  have hbranch : (pushAll Reading.start es).level.body.1 =
      .seq ((es.reverse ++ []).reverse.map Element.expr) := rfl
  rw [hbranch, List.append_nil, List.reverse_reverse]

theorem depth_pushAll_start {es : List Element} {n : Nat} (h : ∀ e ∈ es, e.depth ≤ n) :
    (pushAll Reading.start es).level.body.2 ≤ n + 1 :=
  depth_branch_le fun e he => h e (by simpa [pushAll, Reading.start] using he)

theorem depth_itemElement_le (item : GlobItem) : (itemElement item).depth ≤ 1 := by
  cases item with
  | char c => exact Nat.zero_le 1
  | one => exact Nat.zero_le 1
  | many => exact Nat.le_refl 1

/-- The regular expression is read as the expression of the glob. -/
theorem read?_pattern (g : Glob) : Expr.read? g.pattern = some g.expr := by
  have hnested : Expr.nested? g.pattern.toList =
      some (pushAll Reading.start g.elements).level.body :=
    Pattern.nested?_eq_some_iff.mpr ⟨_, finish?_pattern g, rfl, rfl⟩
  have hbody : (pushAll Reading.start g.elements).level.body.1 = g.expr := by
    rw [body_pushAll_start, elements, expr]
    simp [startElement, itemElement, endElement, Function.comp_def]
  have hdepth : (pushAll Reading.start g.elements).level.body.2 ≤ 2 := by
    refine depth_pushAll_start fun e he => ?_
    simp only [elements, List.cons_append, List.mem_cons, List.mem_append, List.mem_map,
      List.not_mem_nil, or_false] at he
    rcases he with rfl | ⟨item, -, rfl⟩ | rfl
    · exact Nat.zero_le 1
    · exact depth_itemElement_le item
    · exact Nat.zero_le 1
  rw [Expr.read?_eq, hnested, Option.bind_some, if_pos (hdepth.trans (by decide)), hbody]

end Expressions

/-! ### What a glob matches -/

/-- A glob matches what its characters describe, if no wildcard stands for a line feed. In a term
without line feeds, the wildcards stand for any character. -/
theorem contains_iff_describes (g : Glob) (term : String) :
    (g.contains term = true ↔ Describes (· ≠ '\n') g.source.toList term.toList) ∧
      (g.contains term = true → Describes (fun _ => True) g.source.toList term.toList) ∧
      ('\n' ∉ term.toList →
        (g.contains term = true ↔ Describes (fun _ => True) g.source.toList term.toList)) := by
  have hwild : (fun c => isWild c = true) = (· ≠ '\n') := by
    funext c
    exact propext bne_iff_ne
  have hiff : g.contains term = true ↔ Describes (· ≠ '\n') g.source.toList term.toList := by
    rw [contains_iff_splits, items, splits_read_iff, hwild]
  refine ⟨hiff, fun h => (hiff.mp h).mono fun _ _ _ => trivial, fun hterm => ?_⟩
  refine hiff.trans ⟨fun h => h.mono fun _ _ _ => trivial, fun h => h.mono fun c hc _ => ?_⟩
  exact ne_of_mem_of_not_mem hc hterm

theorem contains_iff_describes_escapedStar :
    '\n' ∉ "a*bc".toList ∧ contains ⟨"a\\**?"⟩ "a*bc" = true ∧
      Describes (fun _ => True) "a\\**?".toList "a*bc".toList := by
  have hterm : '\n' ∉ "a*bc".toList := by decide
  have hcontains : contains ⟨"a\\**?"⟩ "a*bc" = true := by decide
  exact ⟨hterm, hcontains, ((contains_iff_describes ⟨"a\\**?"⟩ "a*bc").2.2 hterm).mp hcontains⟩

/-- Characters that have no meaning of their own describe themselves. -/
theorem Describes.append_plain (word : List Char)
    (hplain : ∀ c ∈ word, c ≠ '\\' ∧ c ≠ '*' ∧ c ≠ '?') (h : Describes wild source text) :
    Describes wild (word ++ source) (word ++ text) := by
  induction word with
  | nil => exact h
  | cons c word ih =>
    obtain ⟨⟨hescape, hmany, hone⟩, hplain⟩ := List.forall_mem_cons.mp hplain
    exact .plain hescape hmany hone (ih hplain)

/-- A star does not stand for a line feed, although a line feed is a character. -/
theorem not_contains_of_lineFeed :
    ofSource "multi*line" = .ok ⟨"multi*line"⟩ ∧
      Describes (fun _ => True) "multi*line".toList "multi\nline".toList ∧
      contains ⟨"multi*line"⟩ "multi\nline" = false := by
  have hfits : (expr ⟨"multi*line"⟩).fits = true := by cbv
  have hline : Describes (fun _ => True) "line".toList "line".toList :=
    .append_plain "line".toList (by simp) .nil
  have hlineFeed : Describes (fun _ => True) "*line".toList (['\n'] ++ "line".toList) :=
    .many (fun _ _ => trivial) hline
  have hdescribes : Describes (fun _ => True) "multi*line".toList "multi\nline".toList :=
    .append_plain "multi".toList (by simp) hlineFeed
  exact ⟨if_pos hfits, hdescribes, by decide⟩

end Glob

end Percolator
