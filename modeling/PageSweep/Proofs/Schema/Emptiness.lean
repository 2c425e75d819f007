import PageSweep.Proofs.Schema.Shapes
import PageSweep.Proofs.Settings.Warnings

/-!
# Schemas without actions

Two things make a schema empty. One is to have no entries, and these can be counted. The other is to have only entries
that come to nothing: a group of no actions, a list of such entries, a list that lies too deep for what it holds. What
is selected for a host is a list of entries, and since every entry is selected for some host, a handler has something to
run somewhere unless its schema is empty in one of these ways. The warning of an empty schema looks at the first of them
only.

* `mem_entries_iff`: the entries of a group are what is selected for its hosts.
* `isEmpty_iff_select`: a group without entries is one of which nothing is selected.
* `Hollow`: values that come to nothing.
* `collect_eq_nil_iff`: they are those without actions.
* `actionsFor_eq_nil_iff`: the groups of which no host has an action.
* `emptiness_warned`: when the warning of an empty schema is right.
-/

namespace PageSweep

open Json Schema

namespace ActionGroup

variable {g : ActionGroup} {h : Handler} {host : String}

/-- The entries of a group, under all hosts together. -/
def entries : ActionGroup → List Json
  | flat items => items
  | perEntry entries => entries.map (·.2)
  | keyed entries => entries.flatMap (·.2)

theorem size_eq (g : ActionGroup) : g.size = g.entries.length := by
  cases g with
  | flat items => rfl
  | perEntry es => exact List.length_map _ |>.symm
  | keyed es => rw [size, entries, List.length_flatMap, List.sum_eq_foldr]

theorem isEmpty_iff : g.isEmpty = true ↔ g.entries = [] := by
  rw [isEmpty, beq_iff_eq, size_eq, List.length_eq_zero_iff]

/-- Whether lists stand under hosts in the order of these, so that each of them can be looked up. -/
def Ordered (g : ActionGroup) : Prop := ∀ es, g = keyed es → Entries.Increasing es

/-- What is selected is a list. -/
theorem list_of_select {v : Json} (hv : g.select? h host = some v) : ∃ items, v = .arr items := by
  cases g with
  | flat items =>
    rw [select?] at hv
    split at hv
    · exact ⟨items, (Option.some.inj hv).symm⟩
    · cases hv
  | perEntry es =>
    rw [select?] at hv
    split at hv
    · cases hv
    · exact ⟨_, (Option.some.inj hv).symm⟩
  | keyed es =>
    obtain ⟨items, -, hitems⟩ := Option.map_eq_some_iff.1 hv
    exact ⟨items, hitems.symm⟩

theorem entry_of_select {items : List Json} {v : Json} (hitems : g.select? h host = some (.arr items))
    (hv : v ∈ items) : v ∈ g.entries := by
  cases g with
  | flat all =>
    rw [select?] at hitems
    split at hitems
    · cases hitems
      exact hv
    · cases hitems
  | perEntry es =>
    rw [select?] at hitems
    split at hitems
    · cases hitems
    · cases hitems
      obtain ⟨e, he, rfl⟩ := List.mem_map.1 hv
      exact List.mem_map_of_mem (List.mem_filter.1 he).1
  | keyed es =>
    obtain ⟨items', hget, harr⟩ := Option.map_eq_some_iff.1 hitems
    cases harr
    refine List.mem_flatMap.2 ?_
    rcases Option.or_eq_some_iff.1 hget with hget | ⟨-, hget⟩
    · exact ⟨_, Entries.mem_of_get? hget, hv⟩
    · exact ⟨_, Entries.mem_of_get? hget, hv⟩

/-- Every entry is selected for some host: the one that it is for, or the one that the handler is for. -/
theorem select_of_entry (hg : g.Ordered) (h : Handler) {v : Json} (hv : v ∈ g.entries) :
    ∃ host items, g.select? h host = some (.arr items) ∧ v ∈ items := by
  cases g with
  | flat items => exact ⟨h.name, items, select_flat (isMatch_of_domain (.inl rfl)) (List.ne_nil_of_mem hv), hv⟩
  | perEntry es =>
    obtain ⟨e, he, rfl⟩ := List.mem_map.1 hv
    have hmatched : e.2 ∈ (es.filter fun e' => Host.isMatch e'.1 e.1).map (·.2) :=
      List.mem_map_of_mem (List.mem_filter.2 ⟨he, isMatch_of_domain (.inl rfl)⟩)
    refine ⟨e.1, _, ?_, hmatched⟩
    rw [select?, if_neg]
    rw [List.isEmpty_iff]
    exact List.ne_nil_of_mem hmatched
  | keyed es =>
    obtain ⟨e, he, hv⟩ := List.mem_flatMap.1 hv
    have hget : Entries.get? e.1 es = some e.2 := (Entries.get?_eq_some_iff (hg es rfl)).2 he
    refine ⟨e.1, e.2, ?_, hv⟩
    rw [select?, hget]
    rfl

/-- **The entries of a group** are what is selected for one host or another. -/
theorem mem_entries_iff (hg : g.Ordered) (h : Handler) {v : Json} :
    v ∈ g.entries ↔ ∃ host items, g.select? h host = some (.arr items) ∧ v ∈ items :=
  ⟨select_of_entry hg h, fun ⟨_, _, hitems, hv⟩ => entry_of_select hitems hv⟩

/-- **A group without entries** is one of which nothing is selected for any host, or a list of nothing. -/
theorem isEmpty_iff_select (hg : g.Ordered) (h : Handler) :
    g.isEmpty = true ↔ ∀ host, g.select? h host = none ∨ g.select? h host = some (.arr []) := by
  rw [isEmpty_iff, List.eq_nil_iff_forall_not_mem]
  constructor
  · intro hnone host
    cases hv : g.select? h host with
    | none => exact .inl rfl
    | some v =>
      obtain ⟨items, rfl⟩ := list_of_select hv
      have hitems : items = [] := List.eq_nil_iff_forall_not_mem.2 fun v hmem => hnone v (entry_of_select hv hmem)
      exact .inr (by rw [hitems])
  · intro hselect v hv
    obtain ⟨host, items, hitems, hmem⟩ := select_of_entry hg h hv
    rcases hselect host with hnone | hnil
    · cases hitems.symm.trans hnone
    · cases hitems.symm.trans hnil
      cases hmem

end ActionGroup

/-! ### Values that come to nothing -/

/-- **A value that comes to nothing** where so many lists may still lie in each other: a group of no actions, a list of
values that come to nothing, or a list where no more may lie. -/
inductive Schema.Hollow : Nat → Json → Prop where
  | group {room : Nat} {v : Json} (h : v.actions? = some []) : Hollow room v
  | list {room : Nat} {items : List Json} (h : ∀ v ∈ items, Hollow room v) : Hollow (room + 1) (.arr items)
  | tooDeep (items : List Json) : Hollow 0 (.arr items)

namespace Schema

theorem hollow_list_iff {room : Nat} {items : List Json} :
    Hollow (room + 1) (.arr items) ↔ ∀ v ∈ items, Hollow room v := by
  refine ⟨fun h => ?_, .list⟩
  cases h with
  | group h => cases h
  | list h => exact h

theorem hollow_leaf_iff {room : Nat} {v : Json} (hv : ∀ items, v ≠ .arr items) :
    Hollow room v ↔ v.actions? = some [] := by
  refine ⟨fun h => ?_, .group⟩
  cases h with
  | group h => exact h
  | list => exact absurd rfl (hv _)
  | tooDeep items => exact absurd rfl (hv items)

theorem leafActions_eq_nil_iff {v : Json} : leafActions v = [] ↔ v.actions? = some [] := by
  rw [leafActions_eq]
  cases v.actions? <;> simp

mutual
/-- **The values without actions** are those that come to nothing. -/
theorem collect_eq_nil_iff : ∀ (v : Json) (room depth : Nat),
    (collect (depth + room) depth v).1 = [] ↔ Hollow room v
  | .arr items, 0, depth => by
    rw [collect, if_neg (by omega), collectItems_of_lt (by omega)]
    exact iff_of_true rfl (.tooDeep items)
  | .arr items, room + 1, depth => by
    rw [collect, if_neg (by omega), show depth + (room + 1) = depth + 1 + room from by omega,
      collectItems_eq_nil_iff items room (depth + 1), hollow_list_iff]
  | .null, room, depth | .bool _, room, depth | .int _, room, depth | .double _, room, depth | .str _, room, depth
  | .obj _, room, depth => by
    rw [Chain.collect_leaf (fun _ h => by cases h), if_neg (by omega), leafActions_eq_nil_iff,
      hollow_leaf_iff (fun _ h => by cases h)]

theorem collectItems_eq_nil_iff : ∀ (vs : List Json) (room depth : Nat),
    (collectItems (depth + room) depth vs).1 = [] ↔ ∀ v ∈ vs, Hollow room v
  | [], _, _ => by simp [collectItems]
  | v :: vs, room, depth => by
    rw [collectItems, Collected.append, List.append_eq_nil_iff, collect_eq_nil_iff v room depth,
      collectItems_eq_nil_iff vs room depth, List.forall_mem_cons]
end

end Schema

namespace ActionGroup

variable {g : ActionGroup} {h : Handler} {host : String}

/-- The actions that a pass for a handler runs on a host. -/
def actionsFor (maxDepth : Nat) (g : ActionGroup) (h : Handler) (host : String) : List Chain :=
  match g.select? h host with
  | none => []
  | some schema => (collect maxDepth 0 schema).1

/-- **Groups of which no host has an action**: all of their entries come to nothing. -/
theorem actionsFor_eq_nil_iff (hg : g.Ordered) (h : Handler) (room : Nat) :
    (∀ host, g.actionsFor (room + 1) h host = []) ↔ ∀ v ∈ g.entries, Hollow room v := by
  have hselected : ∀ {host items}, g.select? h host = some (.arr items) →
      (g.actionsFor (room + 1) h host = [] ↔ ∀ v ∈ items, Hollow room v) := by
    intro host items hitems
    rw [actionsFor, hitems, ← hollow_list_iff, ← collect_eq_nil_iff (.arr items) (room + 1) 0, Nat.zero_add]
  constructor
  · intro hnone v hv
    obtain ⟨host, items, hitems, hmem⟩ := select_of_entry hg h hv
    exact (hselected hitems).1 (hnone host) v hmem
  · intro hhollow host
    cases hv : g.select? h host with
    | none => rw [actionsFor, hv]
    | some v =>
      obtain ⟨items, rfl⟩ := list_of_select hv
      exact (hselected hv).2 fun v hmem => hhollow v (entry_of_select hv hmem)

end ActionGroup

/-! ### Schemas that are read -/

namespace Schema

/-- What lies under the layers of a text was read off one of them. -/
theorem read_of_unwrapText {text : String} {v : Json} (h : unwrapText text = .value v) :
    ∃ inner, read inner = .ok v := by
  suffices hlayers : ∀ w, unwrap w = .value v → (∃ inner, w = .str inner) → ∃ inner, read inner = .ok v from
    hlayers (.str text) h ⟨text, rfl⟩
  intro w
  induction w using layers_induction with
  | value w hw => exact fun _ ⟨inner, hinner⟩ => absurd hinner (hw inner)
  | unreadable inner e he => exact fun hcore => by rw [unwrap_of_unreadable he] at hcore; cases hcore
  | layer inner w hw ih =>
    intro hcore _
    rw [unwrap_of_layer hw] at hcore
    by_cases htext : ∃ s, w = .str s
    · exact ih hcore htext
    · rw [unwrap_of_not_text fun s hs => htext ⟨s, hs⟩] at hcore
      cases hcore
      exact ⟨inner, hw⟩

theorem increasing_listsOf {fields : List (String × Json)} (h : Entries.Increasing fields) :
    Entries.Increasing (listsOf fields) := by
  refine List.Pairwise.filterMap _ (fun a b hlt a' ha b' hb => ?_) h
  obtain ⟨_, -, rfl⟩ := Option.map_eq_some_iff.1 ha
  obtain ⟨_, -, rfl⟩ := Option.map_eq_some_iff.1 hb
  exact hlt

/-- **The group of a text** has its lists in the order of their hosts. -/
theorem ordered_detectText (text : String) : (ActionGroup.detectText text).1.Ordered := by
  intro es hes
  obtain ⟨fields, hcore, -, -, rfl⟩ := detect_keyed_iff.1 (show (ActionGroup.detect (.str text)).1 = .keyed es from hes)
  obtain ⟨inner, hread⟩ := read_of_unwrapText hcore
  exact increasing_listsOf (increasing_of_read hread)

end Schema

/-! ### The warning -/

/-- **When the warning of an empty schema is right.** Of a handler with a schema of its own that can be read, it is
given just if nothing is selected for any host, or a list of nothing, and then no host has an action. The handler has no
action for any host just if all its entries come to nothing. So the warning is missing only where there are entries and
all of them come to nothing; it says otherwise just what it should. -/
theorem emptiness_warned {s : Settings} {index : Nat} {h : Handler} {v : Json} (hh : s.handlers[index]? = some h)
    (hown : h.isRemote = false) (hread : read h.schema = .ok v) :
    let g := (ActionGroup.detectText h.schema).1
    let warned := Warning.schemaEmpty index h.name ∈ s.warnings
    let idle := ∀ host, g.actionsFor Sweeper.defaultMaxDepth h host = []
    (warned ↔ ∀ host, g.select? h host = none ∨ g.select? h host = some (.arr [])) ∧ (warned → idle) ∧
      (idle ↔ ∀ entry ∈ g.entries, Hollow (Sweeper.defaultMaxDepth - 1) entry) ∧
      ((warned ↔ idle) ↔ g.entries = [] ∨ ∃ entry ∈ g.entries, ¬ Hollow (Sweeper.defaultMaxDepth - 1) entry) := by
  intro g warned idle
  have hg : g.Ordered := ordered_detectText h.schema
  have hwarned : warned ↔ g.isEmpty = true :=
    (Settings.schemaEmpty_iff hh).trans ⟨fun hw => hw.2.2, fun hempty => ⟨hown, ⟨v, hread⟩, hempty⟩⟩
  have hentries : warned ↔ g.entries = [] := hwarned.trans ActionGroup.isEmpty_iff
  have hidle : idle ↔ ∀ entry ∈ g.entries, Hollow (Sweeper.defaultMaxDepth - 1) entry :=
    ActionGroup.actionsFor_eq_nil_iff hg h (Sweeper.defaultMaxDepth - 1)
  have hsound : warned → idle := by
    intro hw
    rw [hidle, hentries.1 hw]
    exact List.forall_mem_nil _
  refine ⟨hwarned.trans (ActionGroup.isEmpty_iff_select hg h), hsound, hidle, ?_⟩
  have hsome : (∃ entry ∈ g.entries, ¬ Hollow (Sweeper.defaultMaxDepth - 1) entry) ↔ ¬ idle := by
    rw [hidle]
    push Not
    rfl
  rw [hsome, ← hentries]
  constructor
  · intro hright
    by_cases hw : warned
    · exact .inl hw
    · exact .inr fun hnone => hw (hright.2 hnone)
  · rintro (hw | hbusy)
    · exact iff_of_true hw (hsound hw)
    · exact iff_of_false (fun hw => hbusy (hsound hw)) hbusy

/-- A list of nothing. -/
theorem emptiness_warned_noEntries :
    let h : Handler := ⟨"shop.example", "[]"⟩
    let s : Settings := ⟨[h], true, Sweeper.defaultMaxDepth, SchemaCache.defaultTtl⟩
    let g := (ActionGroup.detectText h.schema).1
    s.handlers[0]? = some h ∧ h.isRemote = false ∧ read h.schema = .ok (.arr []) ∧
      Warning.schemaEmpty 0 "shop.example" ∈ s.warnings ∧
      ∀ host, g.actionsFor Sweeper.defaultMaxDepth h host = [] := by
  intro h s g
  have hown : h.isRemote = false := by decide
  have hread : read h.schema = .ok (.arr []) := by
    refine read_eq_value.2 ⟨[], ?_, rfl⟩
    simp [h, readValue, readItems, nextItem, stepsFor, depthLimit, skipSpace, isJsonSpace, bind, Except.bind, pure,
      Except.pure]
  have hgroup : (ActionGroup.detectText h.schema).1 = .flat [] := by
    rw [detectText_of_read hread]
    rfl
  have hwarned : Warning.schemaEmpty 0 h.name ∈ s.warnings :=
    (Settings.schemaEmpty_iff rfl).2 ⟨hown, ⟨_, hread⟩, by rw [hgroup]; rfl⟩
  exact ⟨rfl, hown, hread, hwarned, (emptiness_warned (s := s) rfl hown hread).2.1 hwarned⟩

/-- **Entries that come to nothing are entries**: a list of one group of no actions has nothing to run on any host, and
there is no warning. -/
theorem hollow_entry_unwarned :
    let h : Handler := ⟨"*", "[\x7b\"actions\":[]\x7d]"⟩
    let s : Settings := ⟨[h], true, Sweeper.defaultMaxDepth, SchemaCache.defaultTtl⟩
    let g := (ActionGroup.detectText h.schema).1
    s.handlers[0]? = some h ∧ h.isRemote = false ∧ read h.schema = .ok (.arr [.obj [("actions", .arr [])]]) ∧
      Warning.schemaEmpty 0 "*" ∉ s.warnings ∧ ∀ host, g.actionsFor Sweeper.defaultMaxDepth h host = [] := by
  intro h s g
  have hread : read h.schema = .ok (.arr [.obj [("actions", .arr [])]]) := by
    refine read_eq_value.2 ⟨[], ?_, rfl⟩
    simp [h, readValue, readItems, readFields, nextItem, nextField, readString, readChars, readColon, stepsFor,
      depthLimit, skipSpace, isJsonSpace, bind, Except.bind, pure, Except.pure, Entries.insert]
  have hgroup : (ActionGroup.detectText h.schema).1 = .flat [.obj [("actions", .arr [])]] := by
    rw [detectText_of_read hread]
    rfl
  refine ⟨rfl, by decide, hread, fun hwarned => ?_, ?_⟩
  · have hempty := ((Settings.schemaEmpty_iff (h := h) rfl).1 hwarned).2.2
    rw [hgroup] at hempty
    cases hempty
  · refine (ActionGroup.actionsFor_eq_nil_iff (ordered_detectText h.schema) h _).2 fun entry hentry => ?_
    rw [hgroup] at hentry
    obtain rfl := List.mem_singleton.1 hentry
    exact .group rfl

end PageSweep
