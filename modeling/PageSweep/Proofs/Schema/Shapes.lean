import PageSweep.Proofs.Pass.Groups
import PageSweep.Proofs.Pass.Unread
import PageSweep.Proofs.Schema.Layers

/-!
# The shapes of a schema

Actions for a host can be written in three shapes: as a list whose handler names the host, as an entry of a list
that names the host itself, or in an object under the host. Each shape takes its own way through detection and
selection, and puts its actions into lists of its own depth. A pass makes the same of all three.

* `detect_flat`, `detect_perEntry`, `detect_keyed`: the group that each shape forms.
* `actions_list`, `actions_entry`: the actions of a list, and those of its one entry that holds them all.
* `shapes_interchangeable`: passes of the three shapes.
-/

namespace PageSweep

/-- Whether a value is an action by itself: no list, no group of actions, and for no host of its own. -/
def Json.isLoneAction (v : Json) : Bool :=
  v.items?.isNone && ((v.get? "actions").bind Json.items?).isNone && (ActionGroup.domainOf? v).isNone

theorem Json.isPlain_of_isLoneAction {v : Json} (h : v.isLoneAction = true) : v.isPlain = true := by
  rw [isLoneAction, Bool.and_eq_true] at h
  exact h.1

/-- The entry of a list that has actions for a host. -/
def Schema.entryFor (domain : String) (actions : List Json) : Json :=
  .ofFields [("domain", .str domain), ("actions", .arr actions)]

/-- **Schemas that hold the same actions for a host**, each in its shape, and each as a value or as text. -/
structure Schema.Shapes (domain : String) (actions : List Json) (flat perEntry keyed : Json) : Prop where
  flat : unwrap flat = .value (.arr actions)
  perEntry : unwrap perEntry = .value (.arr [entryFor domain actions])
  keyed : unwrap keyed = .value (.obj [(domain, .arr actions)])

namespace Schema

variable {domain host : String} {actions : List Json} {schema : Json} {handler : Handler}

theorem get?_entryFor (domain : String) (actions : List Json) (key : String) :
    (entryFor domain actions).get? key =
      if "actions" = key then some (.arr actions) else if "domain" = key then some (.str domain) else none := by
  rw [entryFor, Json.ofFields, Json.get?, Entries.ofList, List.foldl_cons, List.foldl_cons, List.foldl_nil,
    Entries.get?_insert, Entries.get?_insert, Entries.get?]

theorem domainOf?_entryFor (hdomain : domain ≠ "") (actions : List Json) :
    ActionGroup.domainOf? (entryFor domain actions) = some domain := by
  rw [ActionGroup.domainOf?, get?_entryFor, if_neg (by decide), if_pos rfl]
  simp [Json.text?, hdomain]

/-! ### Detection -/

theorem detect_flat (h : unwrap schema = .value (.arr actions)) (hactions : ∀ v ∈ actions, v.isLoneAction = true) :
    (ActionGroup.detect schema).1 = .flat actions := by
  refine (detect_of_list h).trans (ofEntries_of_none fun v hv => ?_)
  have hlone := hactions v hv
  rw [Json.isLoneAction, Bool.and_eq_true] at hlone
  exact Option.isNone_iff_eq_none.1 hlone.2

theorem detect_perEntry (h : unwrap schema = .value (.arr [entryFor domain actions])) (hdomain : domain ≠ "") :
    (ActionGroup.detect schema).1 = .perEntry [(domain, entryFor domain actions)] := by
  have hdomain' := domainOf?_entryFor hdomain actions
  have hsome : ∃ item ∈ [entryFor domain actions], ActionGroup.domainOf? item ≠ none :=
    ⟨_, List.mem_singleton_self _, by rw [hdomain']; exact Option.some_ne_none _⟩
  rw [detect_of_list h, ofEntries_of_some hsome, entriesForHosts, List.filterMap_cons, hdomain']
  rfl

theorem detect_keyed (h : unwrap schema = .value (.obj [(domain, .arr actions)])) (hdomain : domain ≠ "action") :
    (ActionGroup.detect schema).1 = .keyed [(domain, actions)] :=
  detect_keyed_iff.2 ⟨_, h, List.cons_ne_nil _ _, if_neg hdomain, rfl⟩

/-! ### Actions -/

/-- The actions of a list, wherever it lies. -/
theorem actions_items (hactions : ∀ v ∈ actions, v.isLoneAction = true) (maxDepth depth : Nat) :
    (collectItems maxDepth depth actions).1 = if maxDepth < depth then [] else actions.map Chain.ofJson := by
  rw [collectItems_of_plain fun v hv => Json.isPlain_of_isLoneAction (hactions v hv)]
  split <;> rfl

theorem actions_list (hactions : ∀ v ∈ actions, v.isLoneAction = true) (maxDepth : Nat) :
    (collect maxDepth 0 (.arr actions)).1 = if maxDepth = 0 then [] else actions.map Chain.ofJson := by
  rw [collect, if_neg (Nat.not_lt_zero _), actions_items hactions]
  simp only [Nat.lt_one_iff, Nat.zero_add]

/-- **The one entry that holds all actions** has them in the depth of a list's own entries. -/
theorem actions_entry (domain : String) (actions : List Json) (maxDepth : Nat) :
    (collect maxDepth 0 (.arr [entryFor domain actions])).1 =
      if maxDepth = 0 then [] else actions.map Chain.ofJson := by
  have hleaf : leafActions (entryFor domain actions) = actions.map Chain.ofJson := by
    rw [leafActions, get?_entryFor, if_pos rfl]
    rfl
  rw [collect, if_neg (Nat.not_lt_zero _), collectItems, collectItems, Collected.append,
    Chain.collect_leaf (fun _ h => by cases h), hleaf]
  simp only [Nat.zero_add, Nat.lt_one_iff, List.append_nil]
  split <;> rfl

/-! ### Selection -/

/-- A host is matched by its own name and by the one of its last two labels. -/
theorem isMatch_of_domain (h : domain = host ∨ domain = Host.baseDomain host) : Host.isMatch domain host = true := by
  rcases h with rfl | rfl
  · simp [Host.isMatch]
  · simp [Host.isMatch]

theorem select_flat (hmatch : handler.appliesTo host = true) (hne : actions ≠ []) :
    (ActionGroup.flat actions).select? handler host = some (.arr actions) := by
  rw [ActionGroup.select?, hmatch, if_pos (by simp [hne])]

theorem select_perEntry (hmatch : Host.isMatch domain host = true) (entry : Json) :
    (ActionGroup.perEntry [(domain, entry)]).select? handler host = some (.arr [entry]) := by
  simp [ActionGroup.select?, hmatch]

theorem select_keyed (h : domain = host ∨ domain = Host.baseDomain host) :
    (ActionGroup.keyed [(domain, actions)]).select? handler host = some (.arr actions) := by
  rcases h with rfl | rfl
  · simp [ActionGroup.select?, Entries.get?]
  · by_cases hbase : Host.baseDomain host = host
    · simp [ActionGroup.select?, Entries.get?, hbase]
    · simp [ActionGroup.select?, Entries.get?, hbase]

end Schema

open Schema in
/-- **The three shapes of a schema are interchangeable.** Actions for the host of a page, or for its last two
labels, can stand in a list whose handler has that name, in an entry with that name, or in an object under it,
the last two under any handler. In each shape there is something for the host, and passes of what there is count
the same, leave the same page and the same styles, and send the same. -/
theorem shapes_interchangeable {domain : String} {actions : List Json} {flat perEntry keyed : Json} {page : Page}
    (hshapes : Shapes domain actions flat perEntry keyed)
    (hhost : domain = page.hostname ∨ domain = Host.baseDomain page.hostname) (hempty : domain ≠ "")
    (haction : domain ≠ "action") (hne : actions ≠ []) (hlone : ∀ v ∈ actions, v.isLoneAction = true)
    {named : Handler} (hnamed : named.name = domain) (h₁ h₂ : Handler) (i : Sweeper) (began : Instant) :
    ∃ s s₁ s₂, (ActionGroup.detect flat).1.select? named page.hostname = some s ∧
      (ActionGroup.detect perEntry).1.select? h₁ page.hostname = some s₁ ∧
      (ActionGroup.detect keyed).1.select? h₂ page.hostname = some s₂ ∧
      ∀ s' ∈ [s₁, s₂],
        (i.run began s' page).summary = (i.run began s page).summary ∧
        (i.run began s' page).scene.page = (i.run began s page).scene.page ∧
        (i.run began s' page).scene.styles = (i.run began s page).scene.styles ∧
        (i.run began s' page).scene.sent = (i.run began s page).scene.sent := by
  have hmatch := isMatch_of_domain hhost
  rw [detect_flat hshapes.flat hlone, detect_perEntry hshapes.perEntry hempty, detect_keyed hshapes.keyed haction]
  refine ⟨_, _, _, select_flat ?_ hne, select_perEntry hmatch _, select_keyed hhost, fun s' hs' => ?_⟩
  · rw [Handler.appliesTo, hnamed, hmatch]
  -- Whichever of the two is taken, it has the actions of the list.
  have hactions : (collect i.maxDepth 0 s').1 = (collect i.maxDepth 0 (.arr actions)).1 := by
    rw [actions_list hlone]
    simp only [List.mem_cons, List.not_mem_nil, or_false] at hs'
    rcases hs' with rfl | rfl
    · exact actions_entry domain actions i.maxDepth
    · exact actions_list hlone i.maxDepth
  have hrun := i.run_of_same_actions hactions began page
  rw [hrun]
  exact ⟨rfl, rfl, rfl, rfl⟩

/-- Two actions, one of them with another to follow. -/
def bannerActions : List Json := [
  .obj [("action", .str "hide"), ("onError", .obj [("action", .str "reload")]), ("target", .str ".banner")],
  .obj [("action", .str "removeClass"), ("className", .str "locked"), ("target", .str "body")]]

theorem shapes_interchangeable_bannerActions :
    let page := ((Page.new "www.shop.example").add none "div" [("class", "banner")]).1
    let perEntry := Json.arr [Schema.entryFor "shop.example" bannerActions]
    let keyed := Json.obj [("shop.example", .arr bannerActions)]
    Schema.Shapes "shop.example" bannerActions (.arr bannerActions) perEntry keyed ∧
      ("shop.example" = page.hostname ∨ "shop.example" = Host.baseDomain page.hostname) ∧
      "shop.example" ≠ "" ∧ "shop.example" ≠ "action" ∧ bannerActions ≠ [] ∧
      (∀ v ∈ bannerActions, v.isLoneAction = true) ∧
      ∃ s s₁ s₂, (ActionGroup.detect (.arr bannerActions)).1.select? ⟨"shop.example", ""⟩ page.hostname = some s ∧
        (ActionGroup.detect perEntry).1.select? ⟨"other.example", ""⟩ page.hostname = some s₁ ∧
        (ActionGroup.detect keyed).1.select? ⟨"*", ""⟩ page.hostname = some s₂ ∧
        ∀ s' ∈ [s₁, s₂],
          ((Sweeper.new 1).run .epoch s' page).summary = ((Sweeper.new 1).run .epoch s page).summary ∧
          ((Sweeper.new 1).run .epoch s' page).scene.page = ((Sweeper.new 1).run .epoch s page).scene.page ∧
          ((Sweeper.new 1).run .epoch s' page).scene.styles = ((Sweeper.new 1).run .epoch s page).scene.styles ∧
          ((Sweeper.new 1).run .epoch s' page).scene.sent = ((Sweeper.new 1).run .epoch s page).scene.sent := by
  intro page perEntry keyed
  have hshapes : Schema.Shapes "shop.example" bannerActions (.arr bannerActions) perEntry keyed := ⟨rfl, rfl, rfl⟩
  have hhost : "shop.example" = page.hostname ∨ "shop.example" = Host.baseDomain page.hostname := .inr (by decide)
  have hlone : ∀ v ∈ bannerActions, v.isLoneAction = true := by decide
  have hne : bannerActions ≠ [] := List.cons_ne_nil _ _
  exact ⟨hshapes, hhost, by decide, by decide, hne, hlone,
    shapes_interchangeable hshapes hhost (by decide) (by decide) hne hlone rfl _ _ (Sweeper.new 1) .epoch⟩

end PageSweep
