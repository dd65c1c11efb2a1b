import Percolator.Presearch.Extraction
import Percolator.Proofs.Glob
import Percolator.Proofs.Interval.Parts
import Percolator.Proofs.Pattern.Feasible
import Percolator.Proofs.Pattern.Matching
import Percolator.Proofs.Pattern.Required
import Percolator.Proofs.Presearch.KeyTree
import Percolator.Proofs.Query.Clauses

/-!
# Extraction is sound

A document has a key term if the text of the term is a token of its field, or is not empty and
stands inside such a token. Where a query matches a document, its key tree is true of the document,
whatever the weights are and whichever rules take the query, as long as rules build their trees as
this library does.

## Main definitions

* `DocumentIndex.Has` : a document has a key term.
* `Regexp.Faithful` : the pattern of a regular expression, read by itself, matches all its terms.
* `Query.EachRegexp` : a property of all regular expressions in a query.
* `Extractor.Plain` : every rule builds the trees of queries as this library does.
* `Extractor.Composing` : all trees that rules give are put together by the builders.

## Main results

* `Extractor.built_of_tree` : the trees of queries are put together by the builders.
* `Extractor.exists_tree` : extraction gives a tree that is true of matching documents.
* `Extractor.exists_mem_terms` : a matching document has one of the key terms of a query.
-/

namespace Percolator

/-! ### What a document has -/

namespace DocumentIndex

/-- The document has the key term. -/
def Has (d : DocumentIndex) (t : KeyTerm) : Prop :=
  match t.kind with
  | .exact => ∃ token ∈ (d.field t.field).tokens, token.text = t.text
  | .part => t.text.toList ≠ [] ∧
    ∃ token ∈ (d.field t.field).tokens, t.text.toList <:+: token.text.toList
  | .any => True

theorem universal_has (d : DocumentIndex) : KeyTree.Universal d.Has := fun _ _ => trivial

end DocumentIndex

namespace FieldIndex

variable {f : FieldIndex} {text : String}

theorem occurrences_ne_nil_iff :
    f.occurrences text ≠ [] ↔ ∃ token ∈ f.tokens, token.text = text := by
  simp only [occurrences, ne_eq, List.filter_eq_nil_iff, beq_iff_eq, not_forall, not_not,
    exists_prop]

private theorem positions_ne_nil_iff :
    f.positions text ≠ [] ↔ ∃ token ∈ f.tokens, token.text = text := by
  rw [← occurrences_ne_nil_iff, positions, ne_eq, ne_eq, List.map_eq_nil_iff]

private theorem mem_foldl_insert {tokens : List Token} {terms : Std.TreeSet String} :
    text ∈ tokens.foldl (fun terms t => terms.insert t.text) terms ↔
      text ∈ terms ∨ ∃ token ∈ tokens, token.text = text := by
  induction tokens generalizing terms with
  | nil => simp only [List.foldl_nil, List.not_mem_nil, false_and, exists_false, or_false]
  | cons token rest ih =>
    simp only [List.foldl_cons, ih, Std.TreeSet.mem_insert, Std.LawfulEqCmp.compare_eq_iff_eq,
      List.exists_mem_cons_iff]
    tauto

theorem mem_terms_iff : text ∈ f.terms ↔ ∃ token ∈ f.tokens, token.text = text := by
  rw [terms, mem_foldl_insert]
  simp only [Std.TreeSet.not_mem_emptyc, false_or]

end FieldIndex

namespace Query

private theorem termsIn_ne_nil_iff {d : DocumentIndex} {field : String} {set : TermSet} :
    termsIn d field set ≠ [] ↔
      ∃ token ∈ (d.field field).tokens, set.contains token.text = true := by
  simp only [termsIn, DocumentIndex.matchingTerms, ne_eq, List.filter_eq_nil_iff,
    Std.TreeSet.mem_toList, FieldIndex.mem_terms_iff, not_forall, not_not]
  constructor
  · rintro ⟨_, ⟨token, htoken, rfl⟩, hset⟩
    exact ⟨token, htoken, hset⟩
  · rintro ⟨token, htoken, hset⟩
    exact ⟨token.text, ⟨token, htoken, rfl⟩, hset⟩

/-! ### Phrases -/

private theorem ne_nil_of_phraseEnd? {lists : List (List Nat)} {last stop : Nat}
    (h : phraseEnd? last lists = some stop) : ∀ list ∈ lists, list ≠ [] := by
  induction lists generalizing last with
  | nil => exact fun _ hlist => absurd hlist List.not_mem_nil
  | cons first rest ih =>
    simp only [phraseEnd?, bind, Option.bind_eq_some_iff] at h
    obtain ⟨next, hnext, h⟩ := h
    exact List.forall_mem_cons.mpr
      ⟨List.ne_nil_of_mem (List.mem_of_find?_eq_some hnext), ih h⟩

/-- Where a phrase occurs, all of its terms do. -/
private theorem positions_ne_nil_of_phraseSpans {d : DocumentIndex} {field : String}
    {terms : List String} {slop : Nat} (h : phraseSpans d field terms slop ≠ []) :
    ∀ term ∈ terms, (d.field field).positions term ≠ [] := by
  cases terms with
  | nil => exact fun _ hterm => absurd hterm List.not_mem_nil
  | cons first rest =>
    obtain ⟨span, hspan⟩ := List.exists_mem_of_ne_nil _ h
    simp only [phraseSpans, List.mem_filterMap, bind, Option.bind_eq_some_iff] at hspan
    obtain ⟨start, hstart, last, hlast, -⟩ := hspan
    refine List.forall_mem_cons.mpr ⟨List.ne_nil_of_mem hstart, fun term hterm => ?_⟩
    exact ne_nil_of_phraseEnd? hlast _ (List.mem_map_of_mem hterm)

/-! ### Boolean queries -/

theorem holds_boolean {d : DocumentIndex} {clauses : List (Occur × Query)} {minShould : Nat}
    {boost : Float32} (h : (Query.boolean clauses minShould boost).holds d = .ok true) :
    everyMust d clauses = .ok true ∧
      enoughShould d (requiredShould clauses minShould) clauses = .ok true := by
  by_cases hempty : clauses.isEmpty = true
  · simp only [holds, if_pos hempty, Except.ok.injEq, Bool.false_eq_true] at h
  simp only [holds, if_neg hempty, bind, Except.bind] at h
  rcases hmust : everyMust d clauses with fault | (_ | _)
  · simp only [hmust, reduceCtorEq] at h
  · simp [hmust] at h
  refine ⟨rfl, ?_⟩
  rcases henough : enoughShould d (requiredShould clauses minShould) clauses with fault | (_ | _)
  · simp [hmust, henough] at h
  · simp [hmust, henough] at h
  · rfl

end Query

/-! ### Properties of regular expressions in queries -/

/-- Whatever term the regular expression contains, its pattern, read by itself, matches in full. -/
def Regexp.Faithful (r : Regexp) : Prop :=
  ∀ expr, Pattern.Expr.read? r.pattern = some expr → ∀ term, r.contains term = true →
    term.toList.toArray.size ∈ expr.ends term.toList.toArray [0]

namespace Query

mutual

/-- The property is true of all regular expressions in the query. -/
def EachRegexp (P : Regexp → Prop) : Query → Prop
  | .anyTerm _ (.regexp r) _ => P r
  | .boolean clauses _ _ => EachRegexpOf P clauses
  | _ => True

/-- The property is true of all regular expressions in the clauses. -/
def EachRegexpOf (P : Regexp → Prop) : List (Occur × Query) → Prop
  | [] => True
  | (_, q) :: rest => EachRegexp P q ∧ EachRegexpOf P rest

end

end Query

/-! ### Trees of simple queries -/

namespace Extractor

variable {e : Extractor} {d : DocumentIndex} {field : String}

private theorem built_partTree {text : String} : (e.partTree field text).Built := by
  simp only [partTree]
  split
  · exact .everything field ""
  · exact KeyTree.composed_ofTerm trivial

private theorem holds_partTree {text : String} {token : Token}
    (htoken : token ∈ (d.field field).tokens) (h : text.toList <:+: token.text.toList) :
    (e.partTree field text).Holds d.Has := by
  simp only [partTree]
  split
  · exact KeyTree.holds_any d.universal_has field
  · next hempty =>
    exact KeyTree.holds_ofTerm.mpr ⟨by simpa using hempty, token, htoken, h⟩

private theorem built_exactTree {text : String} : (e.exactTree field text).Built :=
  KeyTree.composed_ofTerm trivial

private theorem holds_exactTree {text : String} (h : (d.field field).positions text ≠ []) :
    (e.exactTree field text).Holds d.Has :=
  KeyTree.holds_ofTerm.mpr (FieldIndex.positions_ne_nil_iff.mp h)

private theorem built_setTree {set : TermSet} : (e.setTree field set).Built := by
  cases set with
  | glob g => exact built_partTree
  | startsWith start => exact built_partTree
  | regexp r =>
    simp only [setTree]
    cases regexpText? r.pattern with
    | none => exact .everything field ""
    | some text => exact built_partTree
  | range lower upper => exact .everything field ""
  | numericRange lower upper => exact .everything field ""

private theorem holds_setTree {set : TermSet} {token : Token}
    (hregexp : ∀ r, set = .regexp r → r.Faithful) (htoken : token ∈ (d.field field).tokens)
    (h : set.contains token.text = true) : (e.setTree field set).Holds d.Has := by
  cases set with
  | glob g => exact holds_partTree htoken (Glob.isInfix_longestLiteral h)
  | startsWith start =>
    exact holds_partTree htoken (List.isPrefixOf_iff_prefix.mp h).isInfix
  | regexp r =>
    simp only [setTree, regexpText?]
    cases hread : Pattern.Expr.read? r.pattern with
    | none => exact KeyTree.holds_any d.universal_has field
    | some expr =>
      refine holds_partTree htoken ?_
      rw [String.toList_ofList]
      have hmatches := (Pattern.Expr.size_mem_ends_iff (Pattern.Expr.feasible_of_read? hread)).mp
        (hregexp r rfl expr hread token.text h)
      exact hmatches.isInfix_longest
  | range lower upper => exact KeyTree.holds_any d.universal_has field
  | numericRange lower upper => exact KeyTree.holds_any d.universal_has field

private theorem built_phraseTree {terms : List String} : (e.phraseTree field terms).Built := by
  simp only [phraseTree]
  split
  · exact .everything field ""
  · exact .conjunction (List.forall_mem_map.mpr fun _ _ => built_exactTree)

private theorem holds_phraseTree {terms : List String} {slop : Nat}
    (h : Query.phraseSpans d field terms slop ≠ []) : (e.phraseTree field terms).Holds d.Has := by
  simp only [phraseTree]
  split
  · exact KeyTree.holds_any d.universal_has field
  · refine (KeyTree.holds_conjunction d.universal_has).mpr fun tree htree => ?_
    obtain ⟨term, hterm, rfl⟩ := List.mem_map.mp htree
    exact holds_exactTree (Query.positions_ne_nil_of_phraseSpans h term hterm)

/-! ### Trees of intervals -/

mutual

private theorem built_sourceTree : (source : IntervalSource) → (e.sourceTree field source).Built
  | .term _ => built_exactTree
  | .ordered sources _ | .unordered sources _ => by
    simp only [sourceTree]
    split
    · exact .everything field ""
    · exact .conjunction (built_sourceTrees sources)
  | .anyOf sources => by
    simp only [sourceTree]
    split
    · exact .everything field ""
    · exact .disjunction (built_sourceTrees sources)
  | .without source _ => built_sourceTree source

private theorem built_sourceTrees : (sources : List IntervalSource) →
    ∀ tree ∈ e.sourceTrees field sources, tree.Built
  | [] => fun _ htree => absurd htree List.not_mem_nil
  | source :: rest =>
    List.forall_mem_cons.mpr ⟨built_sourceTree source, built_sourceTrees rest⟩

end

mutual

/-- Where a source has intervals, its tree is true. -/
private theorem holds_sourceTree : (source : IntervalSource) →
    source.intervals (d.field field) ≠ [] → (e.sourceTree field source).Holds d.Has
  | .term text, h => by
    rw [IntervalSource.intervals, Sorted.ofList_ne_nil_iff, ne_eq, List.map_eq_nil_iff] at h
    exact holds_exactTree h
  | .ordered sources _, h => by
    simp only [sourceTree]
    split
    · exact KeyTree.holds_any d.universal_has field
    · exact (KeyTree.holds_conjunction d.universal_has).mpr
        (holds_each_sourceTrees sources (IntervalSource.intervalsOfEach_ne_nil_of_ordered h))
  | .unordered sources _, h => by
    simp only [sourceTree]
    split
    · exact KeyTree.holds_any d.universal_has field
    · exact (KeyTree.holds_conjunction d.universal_has).mpr
        (holds_each_sourceTrees sources (IntervalSource.intervalsOfEach_ne_nil_of_unordered h))
  | .anyOf sources, h => by
    rw [IntervalSource.intervals, Sorted.ofList_ne_nil_iff] at h
    simp only [sourceTree]
    split
    · exact KeyTree.holds_any d.universal_has field
    · obtain ⟨i, hi⟩ := List.exists_mem_of_ne_nil _ h
      obtain ⟨list, hlist, hi⟩ := List.mem_flatten.mp hi
      refine (KeyTree.holds_disjunction d.universal_has
        (KeyTree.properAll_of_composed (built_sourceTrees sources))).mpr (.inr ?_)
      exact holds_some_sourceTrees sources list hlist (List.ne_nil_of_mem hi)
  | .without source removed, h =>
    holds_sourceTree source fun hnil => h (by rw [IntervalSource.intervals, hnil]; rfl)

private theorem holds_each_sourceTrees : (sources : List IntervalSource) →
    (∀ list ∈ IntervalSource.intervalsOfEach (d.field field) sources, list ≠ []) →
    ∀ tree ∈ e.sourceTrees field sources, tree.Holds d.Has
  | [], _ => fun _ htree => absurd htree List.not_mem_nil
  | source :: rest, h => List.forall_mem_cons.mpr
    ⟨holds_sourceTree source (h _ List.mem_cons_self),
      holds_each_sourceTrees rest fun list hlist => h list (List.mem_cons_of_mem _ hlist)⟩

private theorem holds_some_sourceTrees : (sources : List IntervalSource) →
    ∀ list ∈ IntervalSource.intervalsOfEach (d.field field) sources, list ≠ [] →
      ∃ tree ∈ e.sourceTrees field sources, tree.Holds d.Has
  | [] => fun _ hlist => absurd hlist List.not_mem_nil
  | source :: rest => List.forall_mem_cons.mpr
    ⟨fun h => ⟨_, List.mem_cons_self, holds_sourceTree source h⟩, fun list hlist h =>
      let ⟨tree, htree, hholds⟩ := holds_some_sourceTrees rest list hlist h
      ⟨tree, List.mem_cons_of_mem _ htree, hholds⟩⟩

end

/-! ### Rules -/

/-- All trees of clauses are put together by the builders. -/
def BuiltParts (parts : ClauseTrees) : Prop :=
  ∀ part ∈ parts, ∀ tree, part.2 = .ok tree → tree.Built

private theorem builtParts_nil : BuiltParts [] := fun _ hpart => absurd hpart List.not_mem_nil

/-- Every tree that a rule makes in a way of its own is put together by the builders, if the trees
of the clauses are. -/
def Composing (e : Extractor) : Prop :=
  ∀ name kind build, .made name kind build ∈ e.rules → ∀ q : Query, q.kind = kind →
    ∀ parts, BuiltParts parts → ∀ tree, build e.weights q parts = .ok tree → tree.Built

/-- The lightest tree is found unless an outcome is an error. -/
private theorem exists_lightest? {outcomes : List (Except Error KeyTree)} (best : Option KeyTree)
    (h : ∀ outcome ∈ outcomes, ∃ tree, outcome = .ok tree) :
    ∃ best', lightest? best outcomes = .ok best' := by
  induction outcomes generalizing best with
  | nil => exact ⟨best, rfl⟩
  | cons outcome rest ih =>
    obtain ⟨⟨tree, rfl⟩, hrest⟩ := List.forall_mem_cons.mp h
    exact ih _ hrest

/-- The lightest of trees is one of them. -/
private theorem mem_of_lightest? {outcomes : List (Except Error KeyTree)}
    {best best' : Option KeyTree} (h : lightest? best outcomes = .ok best') {tree : KeyTree}
    (htree : best' = some tree) : best = some tree ∨ .ok tree ∈ outcomes := by
  induction outcomes generalizing best with
  | nil => exact .inl ((Except.ok.inj h).trans htree)
  | cons outcome rest ih =>
    cases outcome with
    | error error => simp only [lightest?, bind, Except.bind, reduceCtorEq] at h
    | ok first =>
      rcases ih h with hbest | hrest
      · split at hbest
        · exact .inr (List.mem_cons.mpr (.inl (congrArg Except.ok (Option.some.inj hbest).symm)))
        · exact .inl hbest
      · exact .inr (List.mem_cons_of_mem _ hrest)

private theorem built_booleanTree {minShould : Nat} {musts shoulds : List KeyTree}
    (hmusts : ∀ tree ∈ musts, tree.Built) (hshoulds : ∀ tree ∈ shoulds, tree.Built) :
    (booleanTree minShould musts shoulds).Built := by
  simp only [booleanTree]
  split
  · split
    · exact .conjunction (List.forall_mem_append.mpr
        ⟨hmusts, List.forall_mem_singleton.mpr (.disjunction hshoulds)⟩)
    · exact .conjunction hmusts
  · split
    · exact .disjunction hshoulds
    · exact .everything "" ""

/-- The trees of the clauses with a role are those of the other clauses and one more for a clause
that is not negated. -/
private theorem exists_of_treesByRole {occur : Occur} (hoccur : occur ≠ .mustNot)
    {outcome : Except Error KeyTree} {rest : ClauseTrees} {trees : List KeyTree × List KeyTree}
    (h : treesByRole ((occur, outcome) :: rest) = .ok trees) :
    ∃ tree others, outcome = .ok tree ∧ treesByRole rest = .ok others ∧
      trees = if occur = .must then (tree :: others.1, others.2)
        else (others.1, tree :: others.2) := by
  cases occur with
  | mustNot => exact absurd rfl hoccur
  | must | should =>
    simp only [treesByRole, bind, Except.bind] at h
    split at h
    · simp only [reduceCtorEq] at h
    next tree =>
    split at h
    · simp only [reduceCtorEq] at h
    next others hothers => exact ⟨tree, others, rfl, hothers, (Except.ok.inj h).symm⟩

private theorem built_of_treesByRole {parts : ClauseTrees} (hparts : BuiltParts parts)
    {trees : List KeyTree × List KeyTree} (h : treesByRole parts = .ok trees) :
    (∀ tree ∈ trees.1, tree.Built) ∧ ∀ tree ∈ trees.2, tree.Built := by
  induction parts generalizing trees with
  | nil =>
    obtain rfl := Except.ok.inj h
    exact ⟨fun _ htree => absurd htree List.not_mem_nil,
      fun _ htree => absurd htree List.not_mem_nil⟩
  | cons part rest ih =>
    obtain ⟨occur, outcome⟩ := part
    obtain ⟨houtcome, hrest⟩ := List.forall_mem_cons.mp hparts
    by_cases hoccur : occur = .mustNot
    · subst hoccur
      exact ih hrest h
    · obtain ⟨tree, others, rfl, hothers, rfl⟩ := exists_of_treesByRole hoccur h
      obtain ⟨hmusts, hshoulds⟩ := ih hrest hothers
      have hbuilt := houtcome tree rfl
      split
      · exact ⟨List.forall_mem_cons.mpr ⟨hbuilt, hmusts⟩, hshoulds⟩
      · exact ⟨hmusts, List.forall_mem_cons.mpr ⟨hbuilt, hshoulds⟩⟩

private theorem built_of_ownTree {parts : ClauseTrees} (hparts : BuiltParts parts) {q : Query}
    {tree : KeyTree} (h : e.ownTree parts q = .ok tree) : tree.Built := by
  cases q with
  | all => exact Except.ok.inj h ▸ .everything "" ""
  | term => exact Except.ok.inj h ▸ built_exactTree
  | phrase => exact Except.ok.inj h ▸ built_phraseTree
  | interval field source => exact Except.ok.inj h ▸ built_sourceTree source
  | anyTerm => exact Except.ok.inj h ▸ built_setTree
  | boolean clauses minShould =>
    simp only [ownTree, bind, Except.bind] at h
    split at h
    · simp only [reduceCtorEq] at h
    · next trees htrees =>
      obtain ⟨hmusts, hshoulds⟩ := built_of_treesByRole hparts htrees
      exact Except.ok.inj h ▸ built_booleanTree hmusts hshoulds
  | custom => exact Except.ok.inj h ▸ .everything _ ""

/-- Rules choose a tree that the builders put together if the trees of the clauses are. -/
private theorem built_of_choose (he : e.Composing) {q : Query} {parts : ClauseTrees}
    (hparts : BuiltParts parts) {tree : KeyTree} (h : e.choose q parts = .ok tree) :
    tree.Built := by
  simp only [choose, bind, Except.bind] at h
  split at h
  · simp only [reduceCtorEq] at h
  · next best hbest =>
    obtain rfl := Except.ok.inj h
    cases best with
    | none => exact .everything _ ""
    | some tree =>
      have hmem := (mem_of_lightest? hbest rfl).resolve_left (Option.some_ne_none tree).symm
      obtain ⟨rule, hrule, houtcome⟩ := List.mem_map.mp hmem
      obtain ⟨hrule, haccepts⟩ := List.mem_filter.mp hrule
      cases rule with
      | own kind => exact built_of_ownTree hparts houtcome
      | made name kind build =>
        have hkind : q.kind = kind := (of_decide_eq_true haccepts).symm
        exact he name kind build hrule q hkind parts hparts tree houtcome

mutual

/-- The tree of a query is put together by the builders. -/
theorem built_of_tree (he : e.Composing) :
    (q : Query) → ∀ {tree}, e.tree q = .ok tree → tree.Built
  | .boolean clauses _ _, _, h => built_of_choose he (built_of_clauseTrees he clauses) h
  | .all _, _, h | .term _ _ _, _, h | .phrase _ _ _ _, _, h | .interval _ _ _, _, h
  | .anyTerm _ _ _, _, h | .custom _, _, h => built_of_choose he builtParts_nil h

private theorem built_of_clauseTrees (he : e.Composing) : (clauses : List (Occur × Query)) →
    BuiltParts (e.clauseTrees clauses)
  | [] => builtParts_nil
  | (_, q) :: rest => List.forall_mem_cons.mpr
    ⟨fun _ h => built_of_tree he q h, built_of_clauseTrees he rest⟩

end

/-- Every rule builds the trees of queries as this library does. -/
def Plain (e : Extractor) : Prop := ∀ rule ∈ e.rules, ∃ kind, rule = .own kind

theorem Plain.composing (he : e.Plain) : e.Composing := by
  intro name kind build hrule
  obtain ⟨other, hother⟩ := he _ hrule
  exact TreeRule.noConfusion hother

theorem plain_standard (weights : Weights) : Plain { weights } := by
  simp only [Plain, TreeRule.standard, List.forall_mem_cons, TreeRule.own.injEq, exists_eq',
    List.not_mem_nil, false_implies, implies_true, and_self]

/-- Rules choose the own tree of a query, or the tree that every document has. -/
private theorem choose_eq (he : e.Plain) {q : Query} {parts : ClauseTrees} {own : KeyTree}
    (hown : e.ownTree parts q = .ok own) :
    e.choose q parts = .ok own ∨ ∃ field, e.choose q parts = .ok (.any field) := by
  have houtcomes : ∀ outcome ∈ (e.rules.filter (·.accepts q)).map (e.outcome q parts),
      outcome = .ok own := by
    intro outcome houtcome
    obtain ⟨rule, hrule, rfl⟩ := List.mem_map.mp houtcome
    obtain ⟨kind, rfl⟩ := he rule (List.mem_filter.mp hrule).1
    exact hown
  obtain ⟨best, hbest⟩ := exists_lightest? none fun outcome h => ⟨own, houtcomes outcome h⟩
  simp only [choose, hbest, bind, Except.bind]
  cases best with
  | none => exact .inr ⟨_, rfl⟩
  | some chosen =>
    have hmem := (mem_of_lightest? hbest rfl).resolve_left (Option.some_ne_none chosen).symm
    exact .inl (houtcomes _ hmem)

/-! ### Trees of boolean queries -/

/-- The tree of a boolean query is true where the trees of its clauses are that must match, and
one of those that should match if one has to. -/
private theorem holds_booleanTree {minShould : Nat} {musts shoulds : List KeyTree}
    (hbuilt : ∀ tree ∈ shoulds, tree.Built) (hmusts : ∀ tree ∈ musts, tree.Holds d.Has)
    (hshoulds : 0 < minShould ∨ musts = [] ∧ shoulds ≠ [] → ∃ tree ∈ shoulds, tree.Holds d.Has) :
    (booleanTree minShould musts shoulds).Holds d.Has := by
  have hφ := d.universal_has
  have hproper := KeyTree.properAll_of_composed hbuilt
  simp only [booleanTree]
  split
  · split
    · next hmin =>
      refine (KeyTree.holds_conjunction hφ).mpr fun tree htree => ?_
      rcases List.mem_append.mp htree with htree | htree
      · exact hmusts tree htree
      · rw [List.mem_singleton.mp htree]
        exact (KeyTree.holds_disjunction hφ hproper).mpr (.inr (hshoulds (.inl hmin.1)))
    · exact (KeyTree.holds_conjunction hφ).mpr hmusts
  · next hempty =>
    have hnil : musts = [] := by simpa using hempty
    split
    · next hsome =>
      have hne : shoulds ≠ [] := by simpa using hsome
      exact (KeyTree.holds_disjunction hφ hproper).mpr (.inr (hshoulds (.inr ⟨hnil, hne⟩)))
    · exact KeyTree.holds_any hφ ""

/-- What extraction makes of clauses is true where the clauses match. -/
structure SoundTrees (d : DocumentIndex) (clauses : List (Occur × Query))
    (musts shoulds : List KeyTree) : Prop where
  length_musts : musts.length = Query.countOf .must clauses
  length_shoulds : shoulds.length = Query.countOf .should clauses
  holds_musts : Query.EachRegexpOf Regexp.Faithful clauses →
    Query.everyMust d clauses = .ok true → ∀ tree ∈ musts, tree.Holds d.Has
  holds_shoulds : Query.EachRegexpOf Regexp.Faithful clauses → ∀ required, 0 < required →
    Query.enoughShould d required clauses = .ok true → ∃ tree ∈ shoulds, tree.Holds d.Has

/-- The tree of a query is true where the query matches. -/
def SoundTree (d : DocumentIndex) (q : Query) (tree : KeyTree) : Prop :=
  q.EachRegexp Regexp.Faithful → q.holds d = .ok true → tree.Holds d.Has

private theorem soundTrees_nil : SoundTrees d [] [] [] where
  length_musts := rfl
  length_shoulds := rfl
  holds_musts _ _ := fun _ htree => absurd htree List.not_mem_nil
  holds_shoulds _ required hpos h := by
    simp only [Query.enoughShould, Except.ok.injEq, beq_iff_eq] at h
    omega

namespace SoundTrees

variable {clauses : List (Occur × Query)} {musts shoulds : List KeyTree} {q : Query}
  {tree : KeyTree}

theorem must (h : SoundTrees d clauses musts shoulds) (hq : SoundTree d q tree) :
    SoundTrees d ((.must, q) :: clauses) (tree :: musts) shoulds where
  length_musts := by
    rw [List.length_cons, h.length_musts]
    rfl
  length_shoulds := h.length_shoulds
  holds_musts hregexp hmust := by
    simp only [Query.everyMust, if_true, bind, Except.bind] at hmust
    split at hmust
    · simp only [reduceCtorEq] at hmust
    · next matched hmatched =>
      cases matched with
      | false => simp only [Bool.false_eq_true, if_false, Except.ok.injEq] at hmust
      | true =>
        exact List.forall_mem_cons.mpr
          ⟨hq hregexp.1 hmatched, h.holds_musts hregexp.2 hmust⟩
  holds_shoulds hregexp required hpos henough := by
    rw [Query.enoughShould_cons_of_ne (by decide) hpos] at henough
    exact h.holds_shoulds hregexp.2 required hpos henough

theorem should (h : SoundTrees d clauses musts shoulds) (hq : SoundTree d q tree) :
    SoundTrees d ((.should, q) :: clauses) musts (tree :: shoulds) where
  length_musts := h.length_musts
  length_shoulds := by
    rw [List.length_cons, h.length_shoulds]
    rfl
  holds_musts hregexp hmust := by
    rw [Query.everyMust_cons_of_ne (by decide)] at hmust
    exact h.holds_musts hregexp.2 hmust
  holds_shoulds hregexp required hpos henough := by
    have hne : required ≠ 0 := Nat.ne_of_gt hpos
    simp only [Query.enoughShould, if_neg hne, if_true, bind, Except.bind] at henough
    split at henough
    · simp only [reduceCtorEq] at henough
    · next matched hmatched =>
      cases matched with
      | true => exact ⟨tree, List.mem_cons_self, hq hregexp.1 hmatched⟩
      | false =>
        obtain ⟨other, hother, hholds⟩ := h.holds_shoulds hregexp.2 required hpos henough
        exact ⟨other, List.mem_cons_of_mem _ hother, hholds⟩

theorem mustNot (h : SoundTrees d clauses musts shoulds) :
    SoundTrees d ((.mustNot, q) :: clauses) musts shoulds where
  length_musts := h.length_musts
  length_shoulds := h.length_shoulds
  holds_musts hregexp hmust := by
    rw [Query.everyMust_cons_of_ne (by decide)] at hmust
    exact h.holds_musts hregexp.2 hmust
  holds_shoulds hregexp required hpos henough := by
    rw [Query.enoughShould_cons_of_ne (by decide) hpos] at henough
    exact h.holds_shoulds hregexp.2 required hpos henough

end SoundTrees

/-- The trees of clauses come to trees that are true where the clauses match, and that the builders
put together. -/
def SoundParts (d : DocumentIndex) (clauses : List (Occur × Query)) (parts : ClauseTrees) : Prop :=
  BuiltParts parts ∧ ∃ musts shoulds, treesByRole parts = .ok (musts, shoulds) ∧
    SoundTrees d clauses musts shoulds

/-- The own tree of a boolean query is true where the query matches. -/
private theorem exists_ownTree_boolean {clauses : List (Occur × Query)} {minShould : Nat}
    {boost : Float32} {parts : ClauseTrees} (hparts : SoundParts d clauses parts) :
    ∃ own, e.ownTree parts (.boolean clauses minShould boost) = .ok own ∧
      SoundTree d (.boolean clauses minShould boost) own := by
  obtain ⟨hbuilt, musts, shoulds, htrees, hsound⟩ := hparts
  refine ⟨booleanTree minShould musts shoulds, ?_, fun hregexp h => ?_⟩
  · simp only [ownTree, htrees, bind, Except.bind]
  · obtain ⟨hmust, henough⟩ := Query.holds_boolean h
    obtain ⟨-, hshoulds⟩ := built_of_treesByRole hbuilt htrees
    refine holds_booleanTree hshoulds (hsound.holds_musts hregexp hmust) ?_
    refine fun hrequired => hsound.holds_shoulds hregexp _ ?_ henough
    simp only [Query.requiredShould]
    split
    · next hmin => exact hmin
    · next hmin =>
      obtain ⟨rfl, hne⟩ := hrequired.resolve_left hmin
      have hpos : 0 < Query.countOf .should clauses :=
        hsound.length_shoulds ▸ List.length_pos_of_ne_nil hne
      rw [if_pos ⟨hsound.length_musts.symm, hpos⟩]
      exact Nat.one_pos

/-- The tree that rules choose is true where the own tree is. -/
private theorem exists_choose (he : e.Plain) {q : Query} {parts : ClauseTrees}
    (h : ∃ own, e.ownTree parts q = .ok own ∧ SoundTree d q own) :
    ∃ tree, e.choose q parts = .ok tree ∧ SoundTree d q tree := by
  obtain ⟨own, hown, hsound⟩ := h
  rcases choose_eq he hown with hchoose | ⟨field, hchoose⟩
  · exact ⟨own, hchoose, hsound⟩
  · exact ⟨.any field, hchoose, fun _ _ => KeyTree.holds_any d.universal_has field⟩

mutual

/-- Extraction gives a tree, which is true of the documents that the query matches. -/
theorem exists_tree (he : e.Plain) : (q : Query) → ∃ tree, e.tree q = .ok tree ∧ SoundTree d q tree
  | .all _ => exists_choose he ⟨_, rfl, fun _ _ => KeyTree.holds_any d.universal_has ""⟩
  | .term field text _ => by
    refine exists_choose he ⟨_, rfl, fun _ h => holds_exactTree ?_⟩
    simpa [Query.holds, FieldIndex.positions] using h
  | .phrase field terms slop _ => by
    refine exists_choose he ⟨_, rfl, fun _ h => ?_⟩
    have hspans : Query.phraseSpans d field terms slop ≠ [] := by simpa [Query.holds] using h
    exact holds_phraseTree hspans
  | .interval field source _ => by
    refine exists_choose he ⟨_, rfl, fun _ h => holds_sourceTree source ?_⟩
    simpa [Query.holds] using h
  | .anyTerm field set _ => by
    refine exists_choose he ⟨_, rfl, fun hregexp h => ?_⟩
    have hterms : Query.termsIn d field set ≠ [] := by simpa [Query.holds] using h
    obtain ⟨token, htoken, hset⟩ := Query.termsIn_ne_nil_iff.mp hterms
    exact holds_setTree (fun r hr => by subst hr; exact hregexp) htoken hset
  | .boolean clauses _ _ =>
    exists_choose he (exists_ownTree_boolean (soundParts_clauseTrees he clauses))
  | .custom _ => exists_choose he ⟨_, rfl, fun _ _ => KeyTree.holds_any d.universal_has _⟩

private theorem soundParts_clauseTrees (he : e.Plain) : (clauses : List (Occur × Query)) →
    SoundParts d clauses (e.clauseTrees clauses)
  | [] => ⟨builtParts_nil, [], [], rfl, soundTrees_nil⟩
  | (occur, q) :: rest => by
    obtain ⟨tree, htree, hq⟩ := exists_tree he q
    obtain ⟨hbuilt, musts, shoulds, htrees, hrest⟩ := soundParts_clauseTrees he rest
    have hparts : BuiltParts (e.clauseTrees ((occur, q) :: rest)) :=
      List.forall_mem_cons.mpr ⟨fun _ h => built_of_tree he.composing q h, hbuilt⟩
    refine ⟨hparts, ?_⟩
    cases occur with
    | must =>
      refine ⟨tree :: musts, shoulds, ?_, hrest.must hq⟩
      simp only [clauseTrees, treesByRole, htree, htrees, bind, Except.bind]
    | should =>
      refine ⟨musts, tree :: shoulds, ?_, hrest.should hq⟩
      simp only [clauseTrees, treesByRole, htree, htrees, bind, Except.bind]
    | mustNot => exact ⟨musts, shoulds, htrees, hrest.mustNot⟩

end

/-- A document has one of the key terms of a query that matches it. -/
theorem exists_mem_terms (he : e.Plain) {q : Query} {terms : List KeyTerm}
    (hregexp : q.EachRegexp Regexp.Faithful) (hterms : e.terms q = .ok terms)
    (h : q.holds d = .ok true) : ∃ t ∈ terms, d.Has t := by
  obtain ⟨tree, htree, hsound⟩ := exists_tree (d := d) he q
  rw [Extractor.terms, htree] at hterms
  obtain rfl := Except.ok.inj hterms
  have hproper := (built_of_tree he.composing q htree).proper
  exact tree.exists_mem_terms hproper (hsound hregexp h)

end Extractor

end Percolator
