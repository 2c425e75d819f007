import Mathlib.Tactic.ByContra
import PageSweep.Proofs.Json.Reading
import PageSweep.Schema.Group

/-!
# Layers of text

A schema can be text that holds text, to any depth. Its entries are read off by one recursion through these layers and
its shape by another one, and the two look at different things on their way: the first one asks of each layer whether
it is blank, the second one of what lies under them whether it is an object. Both are said here as relations with a
rule for each exit. They end on every schema, since a string is shorter than its text, and they agree on what lies
under the layers.

* `layers_induction`: what holds of the ends and goes through layers holds of every schema.
* `read_blank`: blank text cannot be read, so nothing is lost where it is sorted out first.
* `parses_iff`, `detects_iff`: the two recursions come to one end each, the one that is computed.
* `detect_cases`: either a schema holds lists under hosts, or its entries decide.
* `parse_and_detect_agree`: how the shape of a schema follows from its entries.
-/

namespace PageSweep.Schema

open Json Text

/-! ### Two recursions -/

/-- **The layers of text of a schema**, taken off down to a value that is no text or to a text that cannot be read. -/
inductive Unwraps : Json → Core → Prop where
  | value {v : Json} (h : ∀ text, v ≠ .str text) : Unwraps v (.value v)
  | unreadable {text : String} {e : Json.Error} (h : read text = .error e) :
      Unwraps (.str text) (.unreadable text e)
  | layer {text : String} {v : Json} {core : Core} (h : read text = .ok v) (hv : Unwraps v core) :
      Unwraps (.str text) core

/-- **How entries are read off a schema**, with what there is to report: every layer that is not blank is read. -/
inductive Parses : Json → List Json × List Event → Prop where
  | list (items : List Json) : Parses (.arr items) (items, [])
  | other {v : Json} (htext : ∀ text, v ≠ .str text) (hlist : ∀ items, v ≠ .arr items) :
      Parses v ([], [.schemaNotList v.kind])
  | blank {text : String} (hblank : trimList text.toList = []) : Parses (.str text) ([], [.schemaBlank])
  | unreadable {text : String} {e : Json.Error} (hblank : trimList text.toList ≠ []) (h : read text = .error e) :
      Parses (.str text) ([], [.schemaUnreadable e])
  | layer {text : String} {v : Json} {r : List Json × List Event} (hblank : trimList text.toList ≠ [])
      (h : read text = .ok v) (hv : Parses v r) : Parses (.str text) r

/-- The lists of an object, each with its key. -/
def listsOf (fields : List (String × Json)) : List (String × List Json) :=
  fields.filterMap fun f => f.2.items?.map fun items => (f.1, items)

/-- The entries of a list that are for a host, each with its host. -/
def entriesForHosts (items : List Json) : List (String × Json) :=
  items.filterMap fun item => (ActionGroup.domainOf? item).map fun domain => (domain, item)

/-- **How the shape of a schema is found**, with what there is to report: every layer is read; an object with fields of
which none is an `action` holds lists under hosts; of anything else the entries decide. -/
inductive Detects : Json → ActionGroup × List Event → Prop where
  | unreadable {text : String} {e : Json.Error} (h : read text = .error e) :
      Detects (.str text) (.flat [], [.schemaUnreadable e])
  | layer {text : String} {v : Json} {g : ActionGroup × List Event} (h : read text = .ok v) (hv : Detects v g) :
      Detects (.str text) g
  | keyed {fields : List (String × Json)} (hne : fields ≠ []) (haction : Entries.get? "action" fields = none) :
      Detects (.obj fields) (.keyed (listsOf fields), [])
  | flat {v : Json} {items : List Json} {log : List Event} (htext : ∀ text, v ≠ .str text)
      (hmap : ∀ fields, v = .obj fields → fields = [] ∨ Entries.get? "action" fields ≠ none)
      (h : Parses v (items, log)) (hnone : ∀ item ∈ items, ActionGroup.domainOf? item = none) :
      Detects v (.flat items, log)
  | perEntry {v : Json} {items : List Json} {log : List Event} (htext : ∀ text, v ≠ .str text)
      (hmap : ∀ fields, v = .obj fields → fields = [] ∨ Entries.get? "action" fields ≠ none)
      (h : Parses v (items, log)) (hsome : ∃ item ∈ items, ActionGroup.domainOf? item ≠ none) :
      Detects v (.perEntry (entriesForHosts items), log)

/-! ### Layers -/

theorem unwrap_of_not_text {v : Json} (h : ∀ text, v ≠ .str text) : unwrap v = .value v := by
  cases v with
  | str text => exact absurd rfl (h text)
  | _ => rfl

theorem unwrap_of_unreadable {text : String} {e : Json.Error} (h : read text = .error e) :
    unwrap (.str text) = .unreadable text e := by
  rw [unwrap, unwrapText]
  split
  · rename_i e' he
    rw [Except.error.inj (he.symm.trans h)]
  · rename_i s hs
    cases hs.symm.trans h
  · rename_i v _ hv
    cases hv.symm.trans h

/-- Under a layer lies what lies under the value that it holds. -/
theorem unwrap_of_layer {text : String} {v : Json} (h : read text = .ok v) : unwrap (.str text) = unwrap v := by
  rw [unwrap, unwrapText]
  split
  · rename_i e he
    cases he.symm.trans h
  · rename_i s hs
    rw [Except.ok.inj (h.symm.trans hs), unwrap]
  · rename_i w hnot hw
    obtain rfl := Except.ok.inj (h.symm.trans hw)
    rw [unwrap_of_not_text hnot]

/-- **Induction over the layers of a schema.** It ends since a string is shorter than its text. -/
theorem layers_induction {P : Json → Prop} (value : ∀ v, (∀ text, v ≠ .str text) → P v)
    (unreadable : ∀ text e, read text = .error e → P (.str text))
    (layer : ∀ text v, read text = .ok v → P v → P (.str text)) (v : Json) : P v := by
  -- What a text holds is not under it in the syntax of values, so the induction is on a bound of its length.
  have htext : ∀ n, ∀ text : String, text.length < n → P (.str text) := by
    intro n
    induction n with
    | zero => exact fun text hlen => absurd hlen (Nat.not_lt_zero _)
    | succ n ih =>
      intro text hlen
      cases hread : read text with
      | error e => exact unreadable text e hread
      | ok v =>
        refine layer text v hread ?_
        by_cases hv : ∃ s, v = .str s
        · obtain ⟨s, rfl⟩ := hv
          have hshorter := length_lt_of_read_str hread
          exact ih s (by omega)
        · exact value v fun s hs => hv ⟨s, hs⟩
  cases v with
  | str text => exact htext _ text (Nat.lt_succ_self _)
  | _ => exact value _ fun _ h => by cases h

theorem unwraps_iff {v : Json} {core : Core} : Unwraps v core ↔ unwrap v = core := by
  constructor
  · intro h
    induction h with
    | value h => exact unwrap_of_not_text h
    | unreadable h => exact unwrap_of_unreadable h
    | layer h _ ih => exact (unwrap_of_layer h).trans ih
  · rintro rfl
    induction v using layers_induction with
    | value v h => exact unwrap_of_not_text h ▸ .value h
    | unreadable text e h => exact unwrap_of_unreadable h ▸ .unreadable h
    | layer text v h ih => exact unwrap_of_layer h ▸ .layer h ih

/-! ### Blank text -/

/-- Blank text cannot be read. -/
theorem read_blank {text : String} (h : trimList text.toList = []) : ∃ e, read text = .error e := by
  refine read_of_front fun c hc => ?_
  obtain ⟨r, hr⟩ := List.head?_eq_some_iff.1 hc
  rw [trimList, hr, trimBack_cons_of_not_blank (head_trimFront _ c hc)] at h
  cases h

theorem not_blank_of_read {text : String} {v : Json} (h : read text = .ok v) : trimList text.toList ≠ [] := by
  intro hblank
  obtain ⟨e, he⟩ := read_blank hblank
  cases he.symm.trans h

/-! ### Entries -/

theorem parse_of_layer {text : String} {v : Json} (h : read text = .ok v) : parse (.str text) = parse v := by
  rw [parse, parse, unwrap_of_layer h]

theorem parse_of_not_list {v : Json} (htext : ∀ text, v ≠ .str text) (hlist : ∀ items, v ≠ .arr items) :
    parse v = ([], [.schemaNotList v.kind]) := by
  rw [parse, unwrap_of_not_text htext]
  cases v with
  | arr items => exact absurd rfl (hlist items)
  | _ => rfl

theorem parse_of_blank {text : String} (h : trimList text.toList = []) :
    parse (.str text) = ([], [.schemaBlank]) := by
  obtain ⟨e, he⟩ := read_blank h
  simp [parse, unwrap_of_unreadable he, Core.entries, h]

theorem parse_of_unreadable {text : String} {e : Json.Error} (hblank : trimList text.toList ≠ [])
    (h : read text = .error e) : parse (.str text) = ([], [.schemaUnreadable e]) := by
  simp [parse, unwrap_of_unreadable h, Core.entries, hblank]

/-- **Entries are read off every schema**, in one way. -/
theorem parses_iff {v : Json} {r : List Json × List Event} : Parses v r ↔ parse v = r := by
  constructor
  · intro h
    induction h with
    | list items => rfl
    | other htext hlist => exact parse_of_not_list htext hlist
    | blank hblank => exact parse_of_blank hblank
    | unreadable hblank h => exact parse_of_unreadable hblank h
    | layer _ h _ ih => exact (parse_of_layer h).trans ih
  · rintro rfl
    induction v using layers_induction with
    | value v htext =>
      by_cases hlist : ∀ items, v ≠ .arr items
      · exact parse_of_not_list htext hlist ▸ .other htext hlist
      · obtain ⟨items, hitems⟩ := not_forall_not.1 hlist
        exact hitems ▸ .list items
    | unreadable text e h =>
      by_cases hblank : trimList text.toList = []
      · exact parse_of_blank hblank ▸ .blank hblank
      · exact parse_of_unreadable hblank h ▸ .unreadable hblank h
    | layer text v h ih => exact parse_of_layer h ▸ .layer (not_blank_of_read h) h ih

/-- Only a list has entries. -/
theorem core_of_entries {v : Json} (h : (parse v).1 ≠ []) : unwrap v = .value (.arr (parse v).1) := by
  revert h
  rw [parse]
  cases unwrap v with
  | unreadable text e => exact fun h => absurd rfl h
  | value v =>
    cases v with
    | arr items => exact fun _ => rfl
    | _ => exact fun h => absurd rfl h

/-! ### Shapes -/

theorem isDomainMap_iff {fields : List (String × Json)} :
    ActionGroup.isDomainMap fields = true ↔ fields ≠ [] ∧ Entries.get? "action" fields = none := by
  simp [ActionGroup.isDomainMap]

theorem ofEntries_of_none {items : List Json} (h : ∀ item ∈ items, ActionGroup.domainOf? item = none) :
    ActionGroup.ofEntries items = .flat items := by
  rw [ActionGroup.ofEntries, if_neg]
  simpa using h

theorem ofEntries_of_some {items : List Json} (h : ∃ item ∈ items, ActionGroup.domainOf? item ≠ none) :
    ActionGroup.ofEntries items = .perEntry (entriesForHosts items) := by
  rw [ActionGroup.ofEntries, if_pos]
  · rfl
  · simpa [Option.isSome_iff_ne_none] using h

theorem detect_of_layer {text : String} {v : Json} (h : read text = .ok v) :
    ActionGroup.detect (.str text) = ActionGroup.detect v := by
  rw [ActionGroup.detect, ActionGroup.detect, unwrap_of_layer h]

theorem detectText_of_read {text : String} {v : Json} (h : read text = .ok v) :
    ActionGroup.detectText text = ActionGroup.detect v := detect_of_layer h

theorem detect_of_unreadable {text : String} {e : Json.Error} (h : read text = .error e) :
    ActionGroup.detect (.str text) = (.flat [], [.schemaUnreadable e]) := by
  rw [ActionGroup.detect, unwrap_of_unreadable h, ActionGroup.ofCore]

theorem detect_of_map {fields : List (String × Json)} (hne : fields ≠ [])
    (haction : Entries.get? "action" fields = none) :
    ActionGroup.detect (.obj fields) = (.keyed (listsOf fields), []) :=
  if_pos (isDomainMap_iff.2 ⟨hne, haction⟩)

/-- Of what is no object with lists under hosts, the entries decide. -/
theorem detect_of_entries {v : Json} (htext : ∀ text, v ≠ .str text)
    (hmap : ∀ fields, v = .obj fields → fields = [] ∨ Entries.get? "action" fields ≠ none) :
    ActionGroup.detect v = (ActionGroup.ofEntries (parse v).1, (parse v).2) := by
  rw [ActionGroup.detect, parse, unwrap_of_not_text htext]
  cases v with
  | obj fields =>
    refine if_neg fun h => ?_
    obtain ⟨hne, haction⟩ := isDomainMap_iff.1 h
    exact (hmap fields rfl).elim hne fun h => h haction
  | _ => rfl

/-- **A shape is found of every schema**, in one way. -/
theorem detects_iff {v : Json} {g : ActionGroup × List Event} : Detects v g ↔ ActionGroup.detect v = g := by
  constructor
  · intro h
    induction h with
    | unreadable h => exact detect_of_unreadable h
    | layer h _ ih => exact (detect_of_layer h).trans ih
    | keyed hne haction => exact detect_of_map hne haction
    | flat htext hmap h hnone =>
      rw [detect_of_entries htext hmap, parses_iff.1 h, ofEntries_of_none hnone]
    | perEntry htext hmap h hsome =>
      rw [detect_of_entries htext hmap, parses_iff.1 h, ofEntries_of_some hsome]
  · rintro rfl
    induction v using layers_induction with
    | value v htext =>
      by_cases hmap : ∀ fields, v = .obj fields → fields = [] ∨ Entries.get? "action" fields ≠ none
      · rw [detect_of_entries htext hmap]
        by_cases hnone : ∀ item ∈ (parse v).1, ActionGroup.domainOf? item = none
        · rw [ofEntries_of_none hnone]
          exact .flat htext hmap (parses_iff.2 rfl) hnone
        · have hsome : ∃ item ∈ (parse v).1, ActionGroup.domainOf? item ≠ none := by simpa using hnone
          rw [ofEntries_of_some hsome]
          exact .perEntry htext hmap (parses_iff.2 rfl) hsome
      · obtain ⟨fields, rfl, hne, haction⟩ : ∃ fields, v = .obj fields ∧ fields ≠ [] ∧
            Entries.get? "action" fields = none := by simpa using hmap
        exact detect_of_map hne haction ▸ .keyed hne haction
    | unreadable text e h => exact detect_of_unreadable h ▸ .unreadable h
    | layer text v h ih => exact detect_of_layer h ▸ .layer h ih

theorem ofEntries_ne_keyed (items : List Json) (entries : List (String × List Json)) :
    ActionGroup.ofEntries items ≠ .keyed entries := by
  rw [ActionGroup.ofEntries]
  split <;> exact nofun

theorem detect_of_list {v : Json} {items : List Json} (h : unwrap v = .value (.arr items)) :
    (ActionGroup.detect v).1 = ActionGroup.ofEntries items := by
  rw [ActionGroup.detect, h, ActionGroup.ofCore, Core.entries]
  exact nofun

/-- Whatever is no object with lists under hosts has the shape that its entries give. -/
theorem detect_cases (v : Json) :
    (∃ fields, unwrap v = .value (.obj fields) ∧ fields ≠ [] ∧ Entries.get? "action" fields = none ∧
      (ActionGroup.detect v).1 = .keyed (listsOf fields)) ∨
    ((∀ fields, unwrap v = .value (.obj fields) → fields = [] ∨ Entries.get? "action" fields ≠ none) ∧
      (ActionGroup.detect v).1 = ActionGroup.ofEntries (parse v).1) := by
  induction v using layers_induction with
  | value v htext =>
    rw [unwrap_of_not_text htext]
    by_cases hmap : ∀ fields, v = .obj fields → fields = [] ∨ Entries.get? "action" fields ≠ none
    · exact .inr ⟨fun fields hv => hmap fields (Core.value.inj hv), by rw [detect_of_entries htext hmap]⟩
    · obtain ⟨fields, rfl, hne, haction⟩ : ∃ fields, v = .obj fields ∧ fields ≠ [] ∧
          Entries.get? "action" fields = none := by simpa using hmap
      exact .inl ⟨fields, rfl, hne, haction, by rw [detect_of_map hne haction]⟩
  | unreadable text e h =>
    rw [unwrap_of_unreadable h, detect_of_unreadable h, parse, unwrap_of_unreadable h]
    exact .inr ⟨nofun, rfl⟩
  | layer text v h ih => rwa [unwrap_of_layer h, detect_of_layer h, parse_of_layer h]

/-- Lists under hosts are those of the object under the layers. -/
theorem detect_keyed_iff {v : Json} {entries : List (String × List Json)} :
    (ActionGroup.detect v).1 = .keyed entries ↔ ∃ fields, unwrap v = .value (.obj fields) ∧ fields ≠ [] ∧
      Entries.get? "action" fields = none ∧ entries = listsOf fields := by
  obtain ⟨fields, hcore, hne, haction, hgroup⟩ | ⟨hmap, hgroup⟩ := detect_cases v
  · rw [hgroup]
    refine ⟨fun h => ⟨fields, hcore, hne, haction, (ActionGroup.keyed.inj h).symm⟩, ?_⟩
    rintro ⟨fields', hcore', -, -, rfl⟩
    cases hcore.symm.trans hcore'
    rfl
  · refine ⟨fun h => absurd (hgroup.symm.trans h) (ofEntries_ne_keyed _ _), ?_⟩
    rintro ⟨fields, hcore, hne, haction, -⟩
    exact ((hmap fields hcore).elim hne fun h => h haction).elim

theorem detect_of_not_keyed {v : Json} (h : ∀ entries, (ActionGroup.detect v).1 ≠ .keyed entries) :
    (ActionGroup.detect v).1 = ActionGroup.ofEntries (parse v).1 := by
  obtain ⟨fields, -, -, -, hgroup⟩ | ⟨-, hgroup⟩ := detect_cases v
  · exact absurd hgroup (h _)
  · exact hgroup

/-- **The two ways of reading a schema agree.** Both come to an end on every schema, and go through the same layers of
text to what lies under them. The schema holds lists under hosts iff that is an object with fields of which none is an
`action`, and these lists are all that it has. Any other schema has the shape that its entries give: without an entry
for a host they are one list, and otherwise those for a host are kept, in order, each with its host. Entries are there
only if a list is, so never together with lists under hosts. -/
theorem parse_and_detect_agree (schema : Json) :
    let items := (parse schema).1
    let group := (ActionGroup.detect schema).1
    (∀ r, Parses schema r ↔ r = parse schema) ∧ (∀ g, Detects schema g ↔ g = ActionGroup.detect schema) ∧
      ∃ core, (∀ c, Unwraps schema c ↔ c = core) ∧
        (∀ entries, group = .keyed entries ↔ ∃ fields, core = .value (.obj fields) ∧ fields ≠ [] ∧
          Entries.get? "action" fields = none ∧ entries = listsOf fields) ∧
        ((∀ entries, group ≠ .keyed entries) → (∀ item ∈ items, ActionGroup.domainOf? item = none) →
          group = .flat items) ∧
        ((∀ entries, group ≠ .keyed entries) → (∃ item ∈ items, ActionGroup.domainOf? item ≠ none) →
          group = .perEntry (entriesForHosts items)) ∧
        (items ≠ [] → core = .value (.arr items)) ∧ ∀ entries, group = .keyed entries → items = [] := by
  intro items group
  refine ⟨fun r => parses_iff.trans eq_comm, fun g => detects_iff.trans eq_comm, unwrap schema,
    fun c => unwraps_iff.trans eq_comm, fun entries => detect_keyed_iff, fun hkeyed hnone => ?_, fun hkeyed hsome => ?_,
    core_of_entries, fun entries hkeyed => ?_⟩
  · exact (detect_of_not_keyed hkeyed).trans (ofEntries_of_none hnone)
  · exact (detect_of_not_keyed hkeyed).trans (ofEntries_of_some hsome)
  · obtain ⟨fields, hcore, -⟩ := detect_keyed_iff.1 hkeyed
    by_contra hitems
    cases hcore.symm.trans (core_of_entries hitems)

end PageSweep.Schema
