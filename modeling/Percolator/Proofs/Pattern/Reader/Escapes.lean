import Percolator.Proofs.Pattern.Reader.Basic

/-!
# The readers of escapes

Every reader of an escape is put together from the few that the readers of patterns are made of, so
that it is tame. A reader with fuel is tame for every fuel, by induction on the fuel.

There is one exception: after `\\b`, a brace that nothing but blanks and comments follow is refused
at the end of a text, while in front of a parenthesis it is left for a count to begin with.

## Main results

* `Pattern.tame_spans`, `Pattern.tame_braces` : the readers with fuel.
* `Pattern.tame_escape?` : the readers of escapes.
-/

namespace Percolator.Pattern

open Reader

variable {text rest : List Char} {f : Flags} {c : Char}

/-! ### Spans -/

theorem spanSkipping_congr (f : Flags) (p : Char → Bool) {n m : Nat} (hn : text.length ≤ n)
    (hm : text.length ≤ m) : spanSkipping f p n text = spanSkipping f p m text := by
  induction n generalizing m text with
  | zero =>
    rw [List.eq_nil_of_length_eq_zero (Nat.le_zero.mp hn)]
    cases m <;> rfl
  | succ n ih =>
    cases text with
    | nil => cases m <;> rfl
    | cons c rest =>
      rw [List.length_cons] at hn hm
      obtain ⟨m, rfl⟩ := Nat.exists_eq_succ_of_ne_zero (Nat.ne_zero_of_lt hm)
      have hle := (skip_suffix f rest).length_le
      simp only [spanSkipping, ih (m := m) (hle.trans (Nat.le_of_succ_le_succ hn))
        (hle.trans (Nat.le_of_succ_le_succ hm))]

/-- The reader of the characters at the front that `p` holds of. -/
def spans (f : Flags) (p : Char → Bool) : Reader (List Char) :=
  fun t => some (spanSkipping f p t.length t)

theorem spanSkipping_succ_of_pos {p : Char → Bool} (h : p c = true) (n : Nat) (t : List Char) :
    some (spanSkipping f p (n + 1) (c :: t)) =
      skipping f (andThen (fun t => some (spanSkipping f p n t)) fun cs => leave (c :: cs)) t := by
  simp only [spanSkipping, if_pos h, skipping, andThen, leave, Option.bind_some]

theorem spanSkipping_of_neg {p : Char → Bool} (h : p c = false) (n : Nat) (t : List Char) :
    spanSkipping f p n (c :: t) = ([], c :: t) := by
  cases n with
  | zero => rfl
  | succ n => simp only [spanSkipping, h, Bool.false_eq_true, if_false]

theorem tame_spanSkipping {p : Char → Bool} (hp : p ')' = false) (n : Nat) :
    Tame fun t => some (spanSkipping f p n t) := by
  induction n with
  | zero =>
    have hzero : (fun t => some (spanSkipping f p 0 t)) = leave [] := by
      funext t
      cases t <;> rfl
    rw [hzero]
    exact .leave []
  | succ n ih =>
    have hpos : ∀ c, Tame (skipping f (andThen (fun t => some (spanSkipping f p n t)) fun cs =>
      leave (c :: cs))) := fun c => .skipping f (ih.andThen fun cs => .leave (c :: cs))
    refine ⟨fun text x hx => ?_, fun text => ?_⟩
    · cases text with
      | nil => exact Shortens.leave [] [] x hx
      | cons c t =>
        cases hc : p c with
        | false =>
          rw [spanSkipping_of_neg hc, Option.some.injEq] at hx
          rw [← hx]
        | true =>
          rw [spanSkipping_succ_of_pos hc] at hx
          exact ((hpos c).shortens t x hx).trans (List.suffix_cons c t)
    · cases text with
      | nil =>
        refine (Local.leave [] []).congr rfl fun more => ?_
        exact congrArg some (spanSkipping_of_neg hp _ more)
      | cons c t =>
        cases hc : p c with
        | false =>
          refine (Local.leave [] (c :: t)).congr ?_ fun more => ?_
          · exact congrArg some (spanSkipping_of_neg hc _ t)
          · exact congrArg some (spanSkipping_of_neg hc _ _)
        | true => exact .cons (spanSkipping_succ_of_pos hc n) ((hpos c).isLocal t)

theorem tame_spans {p : Char → Bool} (hp : p ')' = false) : Tame (spans f p) := by
  have hfuel : spans f p = fun t => some (spanSkipping f p (t.length + 1) t) := by
    funext t
    rw [spans, spanSkipping_congr f p (Nat.le_refl t.length) (Nat.le_succ t.length)]
  rw [hfuel]
  refine .of_fuel (r := fun n t => some (spanSkipping f p n t)) (tame_spanSkipping hp) ?_
  exact fun n m text hn hm => congrArg some (spanSkipping_congr f p hn.le hm.le)

/-! ### Hexadecimal digits -/

theorem hexDigits?_succ (f : Flags) (count n : Nat) :
    hexDigits? f n (count + 1) = anyChar fun c =>
      given (Text.hexValue? c) fun d => skipping f (hexDigits? f (16 * n + d) count) := by
  funext t
  cases t with
  | nil => rfl
  | cons c t =>
    simp only [hexDigits?, anyChar, given, skipping]
    cases Text.hexValue? c <;> rfl

theorem tame_hexDigits? (count n : Nat) : Tame (hexDigits? f n count) := by
  induction count generalizing n with
  | zero => exact .leave n
  | succ count ih =>
    rw [hexDigits?_succ]
    exact .anyChar fun c => .given fun d => (ih (16 * n + d)).skipping f

theorem braced?_congr (f : Flags) {n m : Nat} (hn : text.length < n) (hm : text.length < m) :
    braced? f n text = braced? f m text := by
  induction n generalizing m text with
  | zero => exact absurd hn (Nat.not_lt_zero _)
  | succ n ih =>
    obtain ⟨m, rfl⟩ := Nat.exists_eq_succ_of_ne_zero (Nat.ne_zero_of_lt hm)
    unfold braced?
    cases hs : f.skip text with
    | nil => simp only
    | cons c rest =>
      have hle := (skip_suffix f text).length_le
      rw [hs, List.length_cons] at hle
      have hrest : braced? f n rest = braced? f m rest := ih (by omega) (by omega)
      simp only [hrest]

theorem braced?_succ (f : Flags) (n : Nat) :
    braced? f (n + 1) = skipping f (anyChar fun c =>
      if c = '\x7d' then leave [] else andThen (braced? f n) fun cs => leave (c :: cs)) := by
  funext t
  rw [skipping]
  unfold braced?
  cases h : f.skip t with
  | nil => rfl
  | cons c rest =>
    simp only [anyChar, ite_apply]
    refine congrArg (ite _ _) ?_
    rw [Option.map_eq_bind]
    rfl

theorem tame_braced? (f : Flags) (n : Nat) : Tame (braced? f n) := by
  induction n with
  | zero =>
    have hzero : braced? f 0 = fail := by
      funext t
      unfold braced?
      rfl
    rw [hzero]
    exact .fail
  | succ n ih =>
    rw [braced?_succ]
    exact .skipping f (.anyChar fun c => .ite (.leave []) (ih.andThen fun cs => .leave (c :: cs)))

/-- The reader of the text up to the closing brace. -/
def braces (f : Flags) : Reader (List Char) := fun t => braced? f (t.length + 1) t

theorem tame_braces (f : Flags) : Tame (braces f) :=
  .of_fuel (tame_braced? f) fun _ _ _ => braced?_congr f

/-! ### Escapes -/

theorem hexChar?_eq (f : Flags) (count : Nat) :
    hexChar? f count = skipping f (branch '\x7b'
      (andThen (braces f) fun inner => given (inner.mapM Text.hexValue?) fun digits =>
        if digits.isEmpty then fail
        else given (charAt? (digits.foldl (fun n d => 16 * n + d) 0)) fun c =>
          skipping f (leave (.char c false)))
      (andThen (hexDigits? f 0 count) fun n =>
        given (charAt? n) fun c => leave (.char c (count == 2)))) := by
  funext t
  cases h : f.skip t with
  | nil => simp only [hexChar?, skipping, branch, peeking, h, List.head?_nil, reduceCtorEq]; rfl
  | cons c rest =>
    by_cases hc : c = '\x7b'
    · simp [hexChar?, skipping, branch, peeking, andThen, given, leave, fail, h, hc, braces,
        ite_apply]
    · simp [hexChar?, skipping, branch, peeking, andThen, given, leave, h, hc]

theorem tame_hexChar? (f : Flags) (count : Nat) : Tame (hexChar? f count) := by
  rw [hexChar?_eq]
  refine .skipping f (.branch (by decide) ?_ ?_)
  · exact (tame_braces f).andThen fun inner => .given fun digits =>
      .ite .fail (.given fun c => .skipping f (.leave _))
  · exact (tame_hexDigits? count 0).andThen fun n => .given fun c => .leave _

theorem namedSet?_eq (f : Flags) (negated : Bool) :
    namedSet? f negated =
      andThen (skipping f (branch '\x7b'
        (andThen (braces f) fun inner => leave (Unicode.Description.read? inner))
        (branch '\\' fail (anyChar fun c =>
          skipping f (leave ((Unicode.charsNamed? [c]).map (⟨·, false⟩))))))) fun described? =>
      if !f.unicode then fail
      else given described? fun described =>
        given (f.close? (negated != described.negated) described.chars) fun closed =>
          leave (.set closed) := by
  funext t
  cases h : f.skip t with
  | nil => simp [namedSet?, skipping, branch, peeking, andThen, anyChar, h]
  | cons c rest =>
    by_cases hc : c = '\x7b'
    · simp [namedSet?, skipping, branch, peeking, andThen, leave, fail, given, ite_apply, h, hc,
        braces, Option.bind_assoc]
    · by_cases hc' : c = '\\'
      · simp [namedSet?, skipping, branch, peeking, andThen, fail, h, hc']
      · simp [namedSet?, skipping, branch, peeking, andThen, anyChar, leave, fail, given, ite_apply,
          h, hc, hc']

theorem tame_namedSet? (f : Flags) (negated : Bool) : Tame (namedSet? f negated) := by
  rw [namedSet?_eq]
  refine .andThen (.skipping f (.branch (by decide) ?_ (.branch (by decide) .fail ?_))) fun x => ?_
  · exact (tame_braces f).andThen fun inner => .leave _
  · exact .anyChar fun c => .skipping f (.leave _)
  · exact .ite .fail (.given fun _ => .given fun _ => .leave _)

theorem tame_shortSet? (f : Flags) (negated : Bool) (s : CharSet) :
    Tame (shortSet? f negated s) := by
  have hgiven : ∀ o : Option CharSet, Tame (given o fun s => leave (Atom.set s)) :=
    fun o => .given fun s => .leave (Atom.set s)
  exact hgiven _

theorem tame_escape? (hc : c ≠ 'b') : Tame fun t => escape? f (c :: t) := by
  by_cases h : c ∈ ['x', 'u', 'U', 'p', 'P', 'd', 'D', 's', 'S', 'w', 'W', 'a', 'f', 't', 'n', 'r',
    'v', 'A', 'z', 'B', '<', '>']
  · simp only [List.mem_cons, List.not_mem_nil, or_false] at h
    rcases h with rfl | rfl | rfl | rfl | rfl | rfl | rfl | rfl | rfl | rfl | rfl | rfl | rfl |
      rfl | rfl | rfl | rfl | rfl | rfl | rfl | rfl | rfl
    · exact tame_hexChar? f 2
    · exact tame_hexChar? f 4
    · exact tame_hexChar? f 8
    · exact tame_namedSet? f false
    · exact tame_namedSet? f true
    · exact tame_shortSet? f false f.digit
    · exact tame_shortSet? f true f.digit
    · exact tame_shortSet? f false f.blank
    · exact tame_shortSet? f true f.blank
    · exact tame_shortSet? f false f.word
    · exact tame_shortSet? f true f.word
    all_goals exact .leave _
  · have hplain : (fun t => escape? f (c :: t)) =
        if isEscapable c then leave (.char c false) else fail := by
      funext t
      simp only [List.mem_cons, List.not_mem_nil, or_false, not_or] at h
      simp [escape?, h, ite_apply, leave, fail]
    rw [hplain]
    exact .ite (.leave _) .fail

/-! ### Conditions on places -/

/-- The reader of the name of a condition, and of the brace that closes it. -/
def edgeName (f : Flags) : Reader Atom :=
  andThen (spans f isEdgeChar) fun name => branch '\x7d'
    (given (wordEdge? f.alphabet (String.ofList name)) fun place => leave (.look place)) fail

theorem tame_edgeName (f : Flags) : Tame (edgeName f) :=
  (tame_spans rfl).andThen fun _ => .branch (by decide) (.given fun _ => .leave _) .fail

theorem edge?_brace (h : f.skip text = c :: rest) :
    edge? f ('\x7b' :: text) =
      if isEdgeChar c then edgeName f (c :: rest)
      else some (.look (.wordEdge f.alphabet), '\x7b' :: text) := by
  rw [edge?, h]
  refine congrArg₂ (ite _) ?_ rfl
  simp only [edgeName, andThen, spans, List.length_cons, Option.bind_some]
  generalize spanSkipping f isEdgeChar (rest.length + 1) (c :: rest) = x
  obtain ⟨name, behind⟩ := x
  cases behind with
  | nil => rfl
  | cons d behind =>
    rw [branch, peeking_cons]
    by_cases hd : d = '\x7d'
    · subst hd
      exact Option.map_eq_bind
    · simp [hd, fail]

theorem edge?_of_head?_ne (h : text.head? ≠ some '\x7b') :
    edge? f text = some (.look (.wordEdge f.alphabet), text) := by
  cases text with
  | nil => rfl
  | cons c t => simp [edge?, mt (congrArg some) h]

theorem edge?_dangling (h : f.skip text = []) : edge? f ('\x7b' :: text) = none := by
  rw [edge?, h]

theorem shortens_edge? (f : Flags) : Shortens (edge? f) := by
  intro text x hx
  by_cases hbrace : text.head? = some '\x7b'
  · obtain ⟨t, rfl⟩ := List.head?_eq_some_iff.mp hbrace
    cases hs : f.skip t with
    | nil => simp only [edge?_dangling hs, reduceCtorEq] at hx
    | cons c rest =>
      rw [edge?_brace hs] at hx
      split_ifs at hx
      · have hsuffix := (tame_edgeName f).shortens _ x hx
        have hskip := skip_suffix f t
        rw [hs] at hskip
        exact (hsuffix.trans hskip).trans (List.suffix_cons _ t)
      · rw [← Option.some.inj hx]
  · rw [edge?_of_head?_ne hbrace, Option.some.injEq] at hx
    rw [← hx]

/-- Unless a brace is followed by nothing but blanks and comments. -/
theorem local_edge? (h : ∀ t, text = '\x7b' :: t → f.skip t ≠ []) : Local (edge? f) text := by
  by_cases hbrace : text.head? = some '\x7b'
  · obtain ⟨t, rfl⟩ := List.head?_eq_some_iff.mp hbrace
    cases hs : f.skip t with
    | nil => exact absurd hs (h t rfl)
    | cons c rest =>
      have hmore : ∀ more, f.skip (t ++ ')' :: more) = c :: (rest ++ ')' :: more) := by
        rcases skip_append f t with hkeep | ⟨-, hnil, -⟩
        · exact fun more => by rw [hkeep, hs, List.cons_append]
        · exact absurd hnil (h t rfl)
      by_cases hc : isEdgeChar c
      · have hsuffix : c :: rest <:+ '\x7b' :: t :=
          hs ▸ (skip_suffix f t).trans (List.suffix_cons _ t)
        refine ((tame_edgeName f).isLocal (c :: rest)).congr_suffix hsuffix ?_ fun more => ?_
        · rw [edge?_brace hs, if_pos hc]
        · rw [List.cons_append, edge?_brace (hmore more), if_pos hc, List.cons_append]
      · refine (Local.leave (.look (.wordEdge f.alphabet)) ('\x7b' :: t)).congr ?_ fun more => ?_
        · rw [edge?_brace hs, if_neg hc]
          rfl
        · rw [List.cons_append, edge?_brace (hmore more), if_neg hc]
          rfl
  · have hmore : ∀ more, (text ++ ')' :: more).head? ≠ some '\x7b' := by
      intro more
      cases text with
      | nil => exact mt Option.some.inj (by decide)
      | cons c t => exact hbrace
    refine (Local.leave (.look (.wordEdge f.alphabet)) text).congr ?_ fun more => ?_
    · exact edge?_of_head?_ne hbrace
    · exact edge?_of_head?_ne (hmore more)

/-- Where a parenthesis follows the dangling brace, the brace is left, or the parenthesis is
gone. -/
theorem edge?_dangling_append {more : List Char} {x : Atom × List Char} (h : f.skip text = [])
    (hx : edge? f ('\x7b' :: text ++ ')' :: more) = some x) :
    x.2 = '\x7b' :: text ++ ')' :: more ∨ x.2.length ≤ more.length := by
  rw [List.cons_append] at hx ⊢
  cases hs : f.skip (text ++ ')' :: more) with
  | nil => simp only [edge?_dangling hs, reduceCtorEq] at hx
  | cons c rest =>
    rw [edge?_brace hs] at hx
    split_ifs at hx with hc
    · have hle := ((tame_edgeName f).shortens _ x hx).length_le
      rcases skip_append f text with hkeep | ⟨-, -, hhidden⟩
      · rw [hkeep, h, List.nil_append] at hs
        obtain ⟨rfl, -⟩ := List.cons.inj hs
        exact absurd hc (by decide)
      · have hhidden := (hhidden more).1
        rw [hs] at hhidden
        exact .inr (hle.trans hhidden)
    · rw [← Option.some.inj hx]
      exact .inl rfl

theorem local_escape? (h : ∀ t, text = 'b' :: '\x7b' :: t → f.skip t ≠ []) :
    Local (escape? f) text := by
  cases text with
  | nil => exact .nil rfl (tame_escape? (by decide)).shortens
  | cons c t =>
    by_cases hc : c = 'b'
    · subst hc
      exact .cons (s := edge? f) (fun _ => rfl) (local_edge? fun t' ht => h t' (by rw [ht]))
    · exact .cons (fun _ => rfl) ((tame_escape? hc).isLocal t)

theorem shortens_escape? (f : Flags) : Shortens (escape? f) := by
  intro text x hx
  cases text with
  | nil => simp only [escape?, reduceCtorEq] at hx
  | cons c t =>
    refine List.IsSuffix.trans ?_ (List.suffix_cons c t)
    by_cases hc : c = 'b'
    · subst hc
      exact shortens_edge? f t x hx
    · exact (tame_escape? hc).shortens t x hx

end Percolator.Pattern
