import PageSweep.Proofs.Page.Pruning
import PageSweep.Proofs.Pass.Depth
import PageSweep.Proofs.Pass.Settling

/-!
# Removals

A removal takes away all that its selector finds, each with what is below it. It never makes another element match: what
stays has the same elements above it as before. So of several removals each takes away what it would have taken away
as the first one, as far as that is still there, and their order makes no difference to the page.

* `removal_takes_what_matches`: one removal.
* `Page.prunes_compose`: removals one after the other, said of the page before the first.
* `removals_in_any_order`: passes of the same removals in two orders.
-/

namespace PageSweep

/-! ### One removal -/

/-- How a removal ends in a run. -/
theorem Run.perform_remove (r : Run) (began : Instant) {target : String} {found : List Nat}
    (hfound : r.scene.page.query target = .ok found) :
    r.perform began (.remove target) = (decide (0 < found.length),
      { r with
        scene := (r.scene.withPage (found.foldl Page.remove r.scene.page)).countElements found.length
        executed := r.executed + 1
        failed := if 0 < found.length then r.failed else r.failed + 1
        halted := false }) := by
  have hends : (Op.remove target).apply (began.later r.elapsed) r.scene = (.ok (!found.isEmpty),
      (r.scene.withPage (found.foldl Page.remove r.scene.page)).countElements found.length) := by
    rw [Op.apply, Scene.remove, Scene.onMatches, hfound]
  have hok : (!found.isEmpty) = decide (0 < found.length) := by cases found <;> rfl
  rw [Run.perform, hends, hok]
  simp only [decide_eq_true_eq]
  rfl

/-- **A removal takes away what its selector finds**, for each selector that can be read and each page whose elements
are told apart, as those of every page that can be reached are (`Page.Reachable.numbered`). It counts each element
found, once; it ends well just if there is one; and it changes nothing but the body of the page. Of the body just
those elements stay that were not found, with none above them that was found, in their order, as they were and below
the same elements. The selector finds nothing any more, and every selector finds what it found before, as far as it
stayed. -/
theorem removal_takes_what_matches {r : Run} (hr : r.scene.page.Numbered) {target : String} {s : Selector}
    (hs : Selector.read target = .ok s) (began : Instant) :
    let p := r.scene.page
    ∃ found q, p.query target = .ok found ∧
      r.perform began (.remove target) = (decide (0 < found.length),
        { r with
          scene := (r.scene.withPage q).countElements found.length
          executed := r.executed + 1
          failed := if 0 < found.length then r.failed else r.failed + 1
          halted := false }) ∧
      q = { p with body := q.body, loose := q.loose } ∧
      q.lines = p.lines.filter (Page.isClearOf found) ∧
      q.connected = (p.lines.filter (Page.isClearOf found)).map (·.1) ∧
      q.query target = .ok [] ∧
      ∀ selector, q.query selector = (p.query selector).map (List.filter q.isConnected) := by
  intro p
  obtain ⟨found, hfound⟩ : ∃ found, p.query target = .ok found := by
    rw [Page.query, hs]
    exact ⟨_, rfl⟩
  have hprunes := p.prunes_removeAll found
  exact ⟨found, _, hfound, r.perform_remove began hfound, hprunes.rest, hprunes.lines, hprunes.connected,
    hprunes.query_eq_nil hr hfound fun _ href => href, hprunes.query hr⟩

/-- A page with a note in a note, and one more in a text. -/
def notesPage : Page :=
  let add (p : Page) (parent : Option Nat) (tag className : String) : Page :=
    (p.add parent tag [("class", className)]).1
  add (add (add (add (add (.new "shop.example") none "div" "note") (some 1) "p" "lead") (some 1) "div" "note") none
    "main" "text") (some 4) "p" "note"

theorem numbered_notesPage : notesPage.Numbered := by
  have h₁ := (Page.numbered_new "shop.example").append none (.ofTag "div" [("class", "note")])
  have h₂ := h₁.append (some 1) (.ofTag "p" [("class", "lead")])
  have h₃ := h₂.append (some 1) (.ofTag "div" [("class", "note")])
  have h₄ := h₃.append none (.ofTag "main" [("class", "text")])
  exact h₄.append (some 4) (.ofTag "p" [("class", "note")])

/-- The note in the note is counted, and the lead in it goes without being counted. -/
theorem removal_takes_what_matches_notesPage :
    let r := (Sweeper.new 32).start notesPage []
    r.scene.page.Numbered ∧ Selector.read ".note" = .ok [[⟨⟨none, none, ["note"], []⟩, .descendant⟩]] ∧
      notesPage.query ".note" = .ok [1, 3, 5] ∧ (r.perform .epoch (.remove ".note")).1 = true ∧
      let scene := (r.perform .epoch (.remove ".note")).2.scene
      scene.counters = ⟨3, 0⟩ ∧ scene.page.connected.map Node.ref = [4] ∧ scene.page.query ".note" = .ok [] := by
  intro r
  have hread : Selector.read ".note" = .ok [[⟨⟨none, none, ["note"], []⟩, .descendant⟩]] := by decide
  have hquery : notesPage.query ".note" = .ok [1, 3, 5] := by decide +kernel
  obtain ⟨found, q, hfound, hends, -, -, hconnected, hnone, -⟩ :=
    removal_takes_what_matches (r := r) numbered_notesPage hread .epoch
  obtain rfl := Except.ok.inj (hquery.symm.trans hfound)
  have hrefs : q.connected.map Node.ref = [4] := by
    rw [hconnected]
    decide +kernel
  rw [hends]
  exact ⟨numbered_notesPage, hread, hquery, rfl, rfl, hrefs, hnone⟩

/-! ### Removals one after the other -/

/-- The selector of a removal. -/
def Op.removal? : Op → Option String
  | .remove target => some target
  | _ => none

/-- Whether an operation is a removal, or one that cannot be carried out. -/
def Op.onlyRemoves : Op → Bool
  | .remove _ | .invalid _ => true
  | _ => false

namespace Page

variable {p q r : Page} {refs : List Nat}

/-- What selectors find on a pruned page is, as far as it matters to it, what they found before. -/
theorem Prunes.again (h : p.Prunes refs q) (hp : p.Numbered) {selectors : List String}
    (h' : q.Prunes (selectors.flatMap q.found) r) : p.Prunes (refs ++ selectors.flatMap p.found) r := by
  refine h.trans (h'.congr fun ref href => ?_)
  simp only [List.mem_flatMap, h.leaves.mem_found hp, and_iff_left href]

/-- **Removals one after the other** cut off what their selectors find on the page before the first of them. -/
theorem prunes_compose (began : Instant) : Chain.Composes began fun ops s t =>
    (∀ op ∈ ops, op.onlyRemoves = true) → s.page.Numbered →
      t.page.Numbered ∧ s.page.Prunes ((ops.filterMap Op.removal?).flatMap s.page.found) t.page where
  refl s _ hnum := ⟨hnum, .refl _⟩
  trans {ops ops' s t u} h h' hops hnum := by
    obtain ⟨hnum', hprunes⟩ := h (fun op hop => hops op (List.mem_append_left _ hop)) hnum
    obtain ⟨hnum'', hprunes'⟩ := h' (fun op hop => hops op (List.mem_append_right _ hop)) hnum'
    refine ⟨hnum'', ?_⟩
    rw [List.filterMap_append, List.flatMap_append]
    exact hprunes.again hnum hprunes'
  apply op ms s hops hnum := by
    refine ⟨hnum.apply op _, ?_⟩
    have hop := hops op List.mem_cons_self
    cases op with
    | remove target =>
      have hscene : (Op.remove target).apply (began.later ms) s = s.remove target := rfl
      rw [hscene, s.remove_eq target]
      show s.page.Prunes (s.page.found target ++ []) _
      rw [List.append_nil]
      exact prunes_removeAll s.page (s.page.found target)
    | invalid reason => exact .refl _
    | _ => cases hop
  report _ h := h

end Page

/-! ### Passes of removals -/

/-- **A removal that nothing follows**, as the fields of its object: with whatever selector, readable or not, or with
none, and with any delay. -/
structure Op.LoneRemoval (fields : JsonFields) : Prop where
  action : Entries.get? "action" fields = some (.str "remove")
  log : Op.textField? "log" fields = none
  message : Op.textField? "message" fields = none
  actions : (Entries.get? "actions" fields).bind Json.items? = none
  onSuccess : Entries.get? "onSuccess" fields = none ∨ Entries.get? "onSuccess" fields = some .null
  onError : Entries.get? "onError" fields = none ∨ Entries.get? "onError" fields = some .null

/-- What stands under no key, or is null, is no action to follow. -/
theorem Chain.ofKey_eq_done {key : String} {fields : JsonFields}
    (h : Entries.get? key fields = none ∨ Entries.get? key fields = some .null) : ofKey key fields = done := by
  induction fields with
  | nil => rw [ofKey]
  | cons e es ih =>
    obtain ⟨k, v⟩ := e
    rw [Entries.get?] at h
    unfold ofKey
    by_cases hk : k = key
    · rw [if_pos hk] at h
      rw [if_pos hk]
      rcases h with h | h
      · cases h
      · obtain rfl : v = .null := Option.some.inj h
        rfl
    · rw [if_neg hk] at h
      rw [if_neg hk]
      exact ih h

/-- The selectors of removals. -/
def removalTargets (removals : List JsonFields) : List String := removals.filterMap (Op.textField? "target")

namespace Op.LoneRemoval

variable {fields : JsonFields} {removals : List JsonFields}

theorem isAction (h : LoneRemoval fields) : (Json.obj fields).IsAction := ⟨⟨fields, rfl⟩, h.actions⟩

/-- The operation is a removal if there is a selector, and otherwise one that cannot be carried out. -/
theorem ofJson_eq (h : LoneRemoval fields) : ∃ op, op.onlyRemoves = true ∧ op.isCosmetic = true ∧
    op.removal? = textField? "target" fields ∧
      Chain.ofJson (.obj fields) = .link op (delayOf fields) .done .done := by
  have hop : ofFields fields = onTarget "remove" (textField? "target" fields) remove := by
    rw [ofFields, h.log, h.message, h.action]
    rfl
  rw [Chain.ofJson, hop, Chain.ofKey_eq_done h.onSuccess, Chain.ofKey_eq_done h.onError]
  cases textField? "target" fields with
  | none => exact ⟨_, rfl, rfl, rfl, rfl⟩
  | some target => exact ⟨_, rfl, rfl, rfl, rfl⟩

/-- The operations that chains of removals begin with. -/
theorem firstOps_eq (h : ∀ fields ∈ removals, LoneRemoval fields) :
    let ops := Chain.firstOps (removals.map fun fields => Chain.ofJson (.obj fields))
    (∀ op ∈ ops, op.onlyRemoves = true) ∧ ops.filterMap Op.removal? = removalTargets removals := by
  induction removals with
  | nil => exact ⟨fun _ h => absurd h List.not_mem_nil, rfl⟩
  | cons fields removals ih =>
    obtain ⟨hrest, htargets⟩ := ih fun fields' hmem => h fields' (List.mem_cons_of_mem _ hmem)
    obtain ⟨op, hop, -, htarget, hchain⟩ := (h fields List.mem_cons_self).ofJson_eq
    intro ops
    have hops : ops = op :: Chain.firstOps (removals.map fun fields => Chain.ofJson (.obj fields)) := by
      simp only [ops, Chain.firstOps, List.map_cons, hchain]
      rfl
    rw [hops]
    refine ⟨List.forall_mem_cons.2 ⟨hop, hrest⟩, ?_⟩
    rw [List.filterMap_cons, htarget, htargets, removalTargets, removalTargets, List.filterMap_cons]

end Op.LoneRemoval

/-- **A pass of removals** cuts off what their selectors find on the page as the pass found it. -/
theorem Sweeper.run_removals (i : Sweeper) (hdepth : 0 < i.maxDepth) (began : Instant) {removals : List JsonFields}
    (h : ∀ fields ∈ removals, Op.LoneRemoval fields) {p : Page} (hp : p.Numbered) :
    p.Prunes ((removalTargets removals).flatMap p.found) (i.run began (.arr (removals.map .obj)) p).scene.page := by
  have hcollect : (collect i.maxDepth 0 (.arr (removals.map .obj))).1 =
      removals.map fun fields => Chain.ofJson (.obj fields) := by
    rw [collect_actions (List.forall_mem_map.2 fun fields hmem => (h fields hmem).isAction),
      if_neg (Nat.pos_iff_ne_zero.1 hdepth), List.map_map]
    rfl
  have hcosmetic : ∀ c ∈ removals.map (fun fields => Chain.ofJson (.obj fields)), c.isCosmetic = true := by
    refine List.forall_mem_map.2 fun fields hmem => ?_
    obtain ⟨op, -, hop, -, hchain⟩ := (h fields hmem).ofJson_eq
    rw [hchain]
    exact hop
  obtain ⟨dss, r, log, hg, -, -, hrun⟩ := i.run_ends began (.arr (removals.map .obj)) p
  rw [hcollect] at hg
  have hprunes := (Page.prunes_compose began).along hg
  obtain ⟨hall, htargets⟩ := Op.LoneRemoval.firstOps_eq h
  rw [(hg.of_cosmetic hcosmetic).1, htargets] at hprunes
  rw [hrun]
  exact (hprunes hall hp).2

/-- **Removals can be done in any order.** Passes of a list of removals that nothing follows, whatever their selectors
and delays, and of the same removals in another order leave pages with one snapshot, on every page whose elements are
told apart (`Page.Reachable.numbered`), if their bounds let them run at all. Of the body just those elements stay that
none of the selectors found on the page at first, with none above them that was found, in their order, as they were and
below the same elements; and nothing else on the page is changed. -/
theorem removals_in_any_order {p : Page} (hp : p.Numbered) {removals removals' : List JsonFields}
    (hperm : removals.Perm removals') (h : ∀ fields ∈ removals, Op.LoneRemoval fields) {i i' : Sweeper}
    (hdepth : 0 < i.maxDepth) (hdepth' : 0 < i'.maxDepth) (began began' : Instant) :
    let q := (i.run began (.arr (removals.map .obj)) p).scene.page
    let q' := (i'.run began' (.arr (removals'.map .obj)) p).scene.page
    q'.snapshot = q.snapshot ∧
      q.lines = p.lines.filter (Page.isClearOf ((removalTargets removals).flatMap p.found)) ∧
      q = { p with body := q.body, loose := q.loose } := by
  intro q q'
  have hprunes := i.run_removals hdepth began h hp
  have hprunes' := i'.run_removals hdepth' began' (fun fields hmem => h fields (hperm.mem_iff.2 hmem)) hp
  have hfound : ((removalTargets removals).flatMap p.found).Perm ((removalTargets removals').flatMap p.found) :=
    (hperm.filterMap _).flatMap_right _
  exact ⟨hprunes.snapshot (hprunes'.congr fun ref _ => hfound.mem_iff), hprunes.lines, hprunes.rest⟩

/-- Removals of the notes and of what is in them: which of the two comes first is seen in the counts only. -/
def noteRemovals : List JsonFields := [
  [("action", .str "remove"), ("target", .str ".note p"), ("delay", .int 40)],
  [("action", .str "remove"), ("onError", .null), ("target", .str ".note")],
  [("action", .str "remove"), ("target", .str "[[")],
  [("action", .str "remove")]]

theorem removals_in_any_order_notesPage :
    notesPage.Numbered ∧ noteRemovals.Perm noteRemovals.reverse ∧ (∀ fields ∈ noteRemovals, Op.LoneRemoval fields) ∧
      0 < (Sweeper.new 32).maxDepth ∧ 0 < (Sweeper.new 1).maxDepth ∧
      let q := ((Sweeper.new 32).run .epoch (.arr (noteRemovals.map .obj)) notesPage).scene.page
      let q' := ((Sweeper.new 1).run .epoch (.arr (noteRemovals.reverse.map .obj)) notesPage).scene.page
      q'.snapshot = q.snapshot ∧
        q.lines = notesPage.lines.filter (Page.isClearOf ((removalTargets noteRemovals).flatMap notesPage.found)) ∧
        q = { notesPage with body := q.body, loose := q.loose } := by
  have hperm : noteRemovals.Perm noteRemovals.reverse := (List.reverse_perm _).symm
  have hlone : ∀ fields ∈ noteRemovals, Op.LoneRemoval fields :=
    List.forall_mem_cons.2 ⟨⟨rfl, rfl, rfl, rfl, .inl rfl, .inl rfl⟩,
      List.forall_mem_cons.2 ⟨⟨rfl, rfl, rfl, rfl, .inl rfl, .inr rfl⟩,
        List.forall_mem_cons.2 ⟨⟨rfl, rfl, rfl, rfl, .inl rfl, .inl rfl⟩,
          List.forall_mem_singleton.2 ⟨rfl, rfl, rfl, rfl, .inl rfl, .inl rfl⟩⟩⟩⟩
  exact ⟨numbered_notesPage, hperm, hlone, by decide, by decide,
    removals_in_any_order numbered_notesPage hperm hlone (by decide) (by decide) .epoch .epoch⟩

end PageSweep
