import Percolator.Proofs.Monitor.Matching
import Percolator.Proofs.Presearch.Asking

/-!
# Candidates without field filters

Without field filters, and with a limit on parts that fits, the candidates of a document can be
read off its tokens: a stored query is one if it is indexed under a token in its field, under a
stretch of a token within the limit, or under the key that every document has. Equal texts in
different fields do not get into each other's way.

## Main definitions

* `Presearch.Offers` : a document offers a key.

## Main results

* `Presearch.shows_iff_offers` : a document shows the keys that it offers.
* `Monitor.Reachable.selected_iff_offers` : the candidates of a document.
-/

namespace Percolator

namespace Presearch

variable {p : Presearch} {d : Document} {field text : String}

/-- The document offers the key of a field and a text: the text is that of one of its tokens there,
or a stretch of one within the limit in the field of parts, or it is the key of every document. -/
inductive Offers (p : Presearch) (d : Document) : String → String → Prop
  | any : Offers p d p.settings.anyField p.settings.anyText
  | token {field : String} {token : Token} (htoken : token ∈ (d.index.field field).tokens) :
    Offers p d field token.text
  | stretch {field : String} {token : Token} {stretch : List Char}
      (htoken : token ∈ (d.index.field field).tokens) (hne : stretch ≠ [])
      (hstretch : stretch <:+: token.text.toList)
      (hlength : stretch.length ≤ p.settings.maxPart.toNat) :
    Offers p d (p.partField field) (String.ofList stretch)

/-- Without filters, a document without removed tokens shows the keys that it offers. -/
theorem shows_iff_offers (hfilter : ∀ field, ¬p.Hides field)
    (hstopped : ∀ field, NoneStopped (d.index.field field).tokens) :
    p.Shows d field text ↔ p.Offers d field text := by
  constructor
  · rintro (_ | ⟨-, htoken⟩ | ⟨-, htoken, -, hne, hinfix, hlength⟩)
    · exact .any
    · exact .token htoken
    · rw [← String.ofList_toList (s := text)]
      exact .stretch htoken (fun h => hne (String.toList_eq_nil_iff.mp h)) hinfix hlength
  · rintro (_ | htoken | ⟨htoken, hne, hinfix, hlength⟩)
    · exact .any
    · exact .token (hfilter _) htoken (hstopped _ _ htoken)
    · refine .part (hfilter _) htoken (hstopped _ _ htoken) ⟨fun h => ?_, ?_, ?_⟩
      · exact hne (String.ofList_eq_empty_iff.mp h)
      · rwa [String.toList_ofList]
      · rwa [String.toList_ofList]

end Presearch

namespace Monitor

variable {p : Presearch} {settings : MonitorSettings} {m : Monitor} {d : Document}

/-- Without filters, the candidates of a document without removed tokens are the stored queries with
a key that the document offers. Each field offers its own keys, whatever is in the others. -/
theorem Reachable.selected_iff_offers (h : Reachable p settings m)
    (hfilter : ∀ field, ¬p.Hides field) (hfits : p.Fits d)
    (hstopped : ∀ field, NoneStopped (d.index.field field).tokens) :
    ∃ entries, m.selected d = .ok entries ∧
      (∀ e, e ∈ entries ↔ ∃ id keys, m.store.get? id = some e ∧
        m.store.index.keys? e.slot = some keys ∧
        ∃ field text, p.Offers d field text ∧ keys.contains field text = true) ∧
      ∀ field text, p.Asks d field text ↔ ∃ source, p.Asks (d.only source) field text := by
  obtain ⟨q, hq⟩ := Presearch.exists_selection hfits
  obtain ⟨entries, hselect, hmem⟩ :=
    h.consistent.select_spec (Presearch.isSelection_of_selection hq)
  refine ⟨entries, by rw [h.selected_eq_picked hq, picked, hselect]; rfl, fun e => ?_,
    fun _ _ => Presearch.asks_iff_exists_only hfits⟩
  have hpicks : ∀ keys, q.picks keys = true ↔
      ∃ field text, p.Offers d field text ∧ keys.contains field text = true := fun keys => by
    simp only [Presearch.picks_iff_of_selection hq, Presearch.shows_iff_offers hfilter hstopped]
    exact and_iff_left fun field hfield => absurd hfield (hfilter field)
  simp only [hmem, hpicks]
  constructor
  · rintro ⟨id, he, keys, hkeys, hoffers⟩
    obtain ⟨keys', hkeys', hslot⟩ := h.consistent.keys_eq id e he
    obtain rfl := Except.ok.inj (hkeys.symm.trans hkeys')
    exact ⟨id, keys, he, hslot, hoffers⟩
  · rintro ⟨id, keys, he, hslot, hoffers⟩
    obtain ⟨keys', hkeys, hslot'⟩ := h.consistent.keys_eq id e he
    obtain rfl := Option.some.inj (hslot.symm.trans hslot')
    exact ⟨id, he, keys, hkeys, hoffers⟩

/-- A query for a word in the title, and a document with that word in the title and in the body. -/
theorem Reachable.selected_iff_offers_title : ∃ m d, Reachable {} {} m ∧
    Document.build "d" .standard [("body", .keyword "rust"), ("title", .keyword "rust")] = .ok d ∧
    (∀ field, ¬({} : Presearch).Hides field) ∧ ({} : Presearch).Fits d ∧
    (∀ field, NoneStopped (d.index.field field).tokens) ∧
    ∃ entries, m.selected d = .ok entries ∧ entries.map (·.query.id) = ["q"] ∧
      (∀ e, e ∈ entries ↔ ∃ id keys, m.store.get? id = some e ∧
        m.store.index.keys? e.slot = some keys ∧
        ∃ field text, ({} : Presearch).Offers d field text ∧ keys.contains field text = true) ∧
      ∀ field text, ({} : Presearch).Asks d field text ↔
        ∃ source, ({} : Presearch).Asks (d.only source) field text := by
  have hm : Reachable {} {} _ := .register .start
    (rfl : Monitor.register {} { id := "q", query := .term "title" "rust" 1 } = .ok _)
  have hd : Document.build "d" .standard
    [("body", .keyword "rust"), ("title", .keyword "rust")] = .ok _ := rfl
  refine ⟨_, _, hm, hd, fun field => List.not_mem_nil, ?fits, Document.not_stopped hd, ?offers⟩
  case offers =>
    obtain ⟨entries, hselected, hoffers⟩ :=
      hm.selected_iff_offers (fun _ => List.not_mem_nil) ?fits (Document.not_stopped hd)
    refine ⟨entries, hselected, ?_, hoffers⟩
    obtain rfl := Except.ok.inj (hselected.symm.trans rfl)
    rfl
  case fits => exact Presearch.fits_of_fieldNames (by decide +kernel)

end Monitor

end Percolator
