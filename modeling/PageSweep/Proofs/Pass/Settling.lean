import PageSweep.Proofs.Page.Dressing
import PageSweep.Proofs.Page.Pruning
import PageSweep.Proofs.Pass.Trail

/-!
# Passes that settle

A pass that only takes elements away and changes inline styles does nothing more when it is run again. What a
selector finds among the elements that stay is the same at every moment of both passes. So after a pass its
removals find nothing any more, and each element that stayed has had the same declarations written to it that
the second pass writes again.

* `Scene.cosmetic_cases`: what such an operation does.
* `Settled.step`: what a pass has settled after each of its operations.
* `settles_compose`, `dresses_compose`: the first pass settles the page, the second one only dresses it.
* `Settled.dress_eq_self`: dressing a settled page again.
* `cosmetic_pass_settles`: the two passes of a schema.
-/

namespace PageSweep

open Element

/-! ### Cosmetic operations -/

/-- Whether an operation at most takes elements away, changes inline styles or is logged. -/
def Op.isCosmetic : Op → Bool
  | .remove _ | .hide _ | .style _ _ | .log _ | .invalid _ => true
  | _ => false

/-- What an operation on inline styles is on, and what it writes. -/
def Op.styling? : Op → Option (String × List Declaration)
  | .hide target => some (target, [("display", "none")])
  | .style target ds => some (target, ds)
  | _ => none

/-- The declarations that an operation writes to the element of a number. -/
def Page.writes (p : Page) (ref : Nat) (op : Op) : List Declaration :=
  match op.styling? with
  | some (target, ds) => if ref ∈ p.found target then ds else []
  | none => []

namespace Scene

variable {s : Scene} {target : String}

theorem style_eq (h : s.page.Numbered) (target : String) (ds : List Declaration) :
    (s.style target ds).2 = s.withPage (s.page.dress fun ref => if ref ∈ s.page.found target then ds else []) := by
  have hnodup : (s.page.found target).Nodup := h.sides.1.sublist (s.page.found_sublist target)
  unfold style onMatches
  unfold Page.found at hnodup ⊢
  cases hquery : s.page.query target with
  | error e =>
    simp only [List.not_mem_nil, if_false]
    rw [Page.dress_nil]
    rfl
  | ok refs =>
    simp only [hquery] at hnodup ⊢
    rw [Page.styleAll_eq s.page hnodup]

theorem remove_eq (s : Scene) (target : String) : (s.remove target).2 =
    (s.withPage ((s.page.found target).foldl Page.remove s.page)).countElements (s.page.found target).length := by
  unfold remove onMatches Page.found
  cases s.page.query target <;> rfl

/-- **What a cosmetic operation does**: it takes away what a selector finds, or it dresses the page. -/
theorem cosmetic_cases (h : s.page.Numbered) {op : Op} (hop : op.isCosmetic = true) (now : Instant) :
    (∃ target, op = .remove target ∧ (op.apply now s).2 =
      (s.withPage ((s.page.found target).foldl Page.remove s.page)).countElements
        (s.page.found target).length) ∨
    (∀ target, op ≠ .remove target) ∧
      ∃ log, (op.apply now s).2 = { s with page := s.page.dress (s.page.writes · op), log := log } := by
  have hidle : s = { s with page := s.page.dress fun _ => [] } := by rw [Page.dress_nil]
  cases op with
  | remove target => exact .inl ⟨target, rfl, s.remove_eq target⟩
  | hide target => exact .inr ⟨fun _ h => (by cases h), s.log, style_eq h target _⟩
  | style target ds => exact .inr ⟨fun _ h => (by cases h), s.log, style_eq h target ds⟩
  | log text => exact .inr ⟨fun _ h => (by cases h), _, congrArg (Scene.report · (.noted text)) hidle⟩
  | invalid reason => exact .inr ⟨fun _ h => (by cases h), s.log, hidle⟩
  | _ => cases hop

end Scene

namespace Page

variable {p q : Page} {ops : List Op}

/-- What stays in the body has the same written to it at every moment. -/
theorem Leaves.writes (h : p.Leaves q) (hp : p.Numbered) {ref : Nat} (href : ref ∈ q.rooted) (op : Op) :
    q.writes ref op = p.writes ref op := by
  unfold Page.writes
  cases op.styling? with
  | none => rfl
  | some styling =>
    have hfound : ref ∈ q.found styling.1 ↔ ref ∈ p.found styling.1 := by rw [h.mem_found hp, and_iff_left href]
    simp only [hfound]

theorem writes_dress (p : Page) (ds : Nat → List Declaration) (ref : Nat) (op : Op) :
    (p.dress ds).writes ref op = p.writes ref op := by
  unfold Page.writes
  simp only [found_dress]

/-- Nothing is written to what is not in the body. -/
theorem writes_of_not_rooted {ref : Nat} (h : ref ∉ p.rooted) (op : Op) : p.writes ref op = [] := by
  unfold Page.writes
  cases op.styling? with
  | none => rfl
  | some styling => exact if_neg fun hfound => h ((p.found_sublist styling.1).subset hfound)

/-- **What operations have settled on a page**: their removals find nothing, and each element of the body has
had written to it all that they write. -/
structure Settled (ops : List Op) (p : Page) : Prop where
  swept : ∀ target, .remove target ∈ ops → p.found target = []
  dressed : ∀ n ∈ p.body.preorder, ∃ style, n.element.style = declareAll (ops.flatMap (p.writes n.ref)) style

theorem settled_nil (p : Page) : p.Settled [] :=
  ⟨fun _ h => absurd h List.not_mem_nil, fun n _ => ⟨n.element.style, rfl⟩⟩

/-- Taking away what a selector finds. -/
theorem Settled.remove (h : p.Settled ops) (hp : p.Numbered) (target : String) :
    ((p.found target).foldl Page.remove p).Settled (ops ++ [.remove target]) := by
  have hprunes := prunes_removeAll p (p.found target)
  generalize (p.found target).foldl Page.remove p = q at hprunes
  have hleaves := hprunes.leaves
  have hbody : q.body.preorder.Sublist p.body.preorder := hprunes.body ▸ Forest.preorder_cut_sublist _ p.body
  refine ⟨fun target' hmem => ?_, fun n hn => ?_⟩
  · rw [List.eq_nil_iff_forall_not_mem]
    intro ref href
    obtain ⟨hfound, hrooted⟩ := (hleaves.mem_found hp).1 href
    rcases List.mem_append.1 hmem with hmem | hmem
    · rw [h.swept target' hmem] at hfound
      exact absurd hfound List.not_mem_nil
    · cases List.mem_singleton.1 hmem
      exact hprunes.not_mem_rooted hfound hrooted
  · obtain ⟨style, hstyle⟩ := h.dressed n (hbody.subset hn)
    have hrooted : n.ref ∈ q.rooted := List.mem_map_of_mem hn
    have hwrites : (ops ++ [Op.remove target]).flatMap (q.writes n.ref) = ops.flatMap (p.writes n.ref) := by
      rw [funext (hleaves.writes hp hrooted), List.flatMap_append]
      exact List.append_nil _
    exact ⟨style, by rw [hwrites, hstyle]⟩

/-- Writing what an operation writes. -/
theorem Settled.dress (h : p.Settled ops) {op : Op} (hop : ∀ target, op ≠ .remove target) :
    (p.dress (p.writes · op)).Settled (ops ++ [op]) := by
  refine ⟨fun target hmem => ?_, fun n hn => ?_⟩
  · rw [found_dress]
    rcases List.mem_append.1 hmem with hmem | hmem
    · exact h.swept target hmem
    · exact absurd (List.mem_singleton.1 hmem).symm (hop target)
  · have hbody : (p.dress (p.writes · op)).body.preorder = p.body.preorder.map (Page.dressed (p.writes · op)) :=
      Forest.preorder_map _ _
    rw [hbody] at hn
    obtain ⟨m, hm, rfl⟩ := List.mem_map.1 hn
    obtain ⟨style, hstyle⟩ := h.dressed m hm
    refine ⟨style, ?_⟩
    show declareAll (p.writes m.ref op) m.element.style =
      declareAll ((ops ++ [op]).flatMap ((p.dress (p.writes · op)).writes m.ref)) style
    rw [hstyle, funext (writes_dress p _ m.ref), List.flatMap_append, List.flatMap_singleton, declareAll_append]

/-- **Each operation settles what it does**, and leaves settled what was. -/
theorem Settled.step {s : Scene} (h : s.page.Settled ops) (hp : s.page.Numbered) {op : Op}
    (hop : op.isCosmetic = true) (now : Instant) : (op.apply now s).2.page.Settled (ops ++ [op]) := by
  rcases Scene.cosmetic_cases hp hop now with ⟨target, rfl, heq⟩ | ⟨hother, log, heq⟩
  · rw [heq]
    exact h.remove hp target
  · rw [heq]
    exact h.dress hother

/-- **Dressing a settled page again** changes nothing. -/
theorem Settled.dress_eq_self (h : p.Settled ops) (hp : p.Numbered) :
    p.dress (fun ref => ops.flatMap (p.writes ref)) = p := by
  refine Page.dress_eq_self fun n hn => ?_
  rcases List.mem_append.1 hn with hn | hn
  · obtain ⟨style, hstyle⟩ := h.dressed n hn
    rw [Element.dress, hstyle, declareAll_declareAll, ← hstyle]
  · -- What lies loose has nothing written to it.
    have hloose : n.ref ∉ p.rooted := fun hrooted =>
      hp.sides.2.2 n.ref hrooted n.ref (List.mem_map_of_mem hn) rfl
    have hnone : ops.flatMap (p.writes n.ref) = [] :=
      List.flatMap_eq_nil_iff.2 fun op _ => writes_of_not_rooted hloose op
    rw [hnone]
    rfl

end Page

/-! ### Two passes -/

/-- **Cosmetic operations settle the page**, one after the other. -/
theorem Page.settles_compose (began : Instant) : Chain.Composes began fun ops s t =>
    (∀ op ∈ ops, op.isCosmetic = true) → ∀ before, s.page.Numbered → s.page.Settled before →
      t.page.Numbered ∧ t.page.Settled (before ++ ops) where
  refl s _ before hnum h := ⟨hnum, by rwa [List.append_nil]⟩
  trans h h' hops before hnum hs := by
    obtain ⟨hnum', ht⟩ := h (fun op hop => hops op (List.mem_append_left _ hop)) before hnum hs
    rw [← List.append_assoc]
    exact h' (fun op hop => hops op (List.mem_append_right _ hop)) _ hnum' ht
  apply op ms s hops before hnum h :=
    ⟨hnum.apply op _, h.step hnum (hops op List.mem_cons_self) _⟩
  report _ h := h

/-- **Where removals find nothing, cosmetic operations only dress the page.** -/
theorem Page.dresses_compose (began : Instant) : Chain.Composes began fun ops s t =>
    (∀ op ∈ ops, op.isCosmetic = true) → s.page.Numbered →
      (∀ target, .remove target ∈ ops → s.page.found target = []) →
        ∃ log, t = { s with page := s.page.dress fun ref => ops.flatMap (s.page.writes ref), log := log } where
  refl s _ _ _ := ⟨s.log, by rw [funext fun ref => List.flatMap_nil, Page.dress_nil]⟩
  trans {ops ops' s t u} h h' hops hnum hswept := by
    obtain ⟨log, rfl⟩ := h (fun op hop => hops op (List.mem_append_left _ hop)) hnum
      fun target hmem => hswept target (List.mem_append_left _ hmem)
    obtain ⟨log', rfl⟩ := h' (fun op hop => hops op (List.mem_append_right _ hop)) (hnum.dress _)
      fun target hmem => (s.page.found_dress _ target).trans (hswept target (List.mem_append_right _ hmem))
    refine ⟨log', ?_⟩
    simp only [Page.dress_dress, funext (Page.writes_dress s.page _ _), List.flatMap_append]
  apply op ms s hops hnum hswept := by
    rcases Scene.cosmetic_cases hnum (hops op List.mem_cons_self) (began.later ms) with
      ⟨target, rfl, heq⟩ | ⟨-, log, heq⟩
    · refine ⟨s.log, ?_⟩
      rw [heq, hswept target List.mem_cons_self]
      simp only [List.flatMap_singleton]
      have hnone : (fun ref => s.page.writes ref (.remove target)) = fun _ => [] := rfl
      rw [hnone, Page.dress_nil]
      rfl
    · refine ⟨log, ?_⟩
      simp only [List.flatMap_singleton]
      exact heq
  report e h hops hnum hswept := by
    obtain ⟨log, rfl⟩ := h hops hnum hswept
    exact ⟨log ++ [e], rfl⟩

/-! ### Schemas -/

namespace Chain

/-- Whether an action is cosmetic and nothing may follow it. -/
def isCosmetic : Chain → Bool
  | link op _ done done => op.isCosmetic
  | _ => false

/-- The operations that chains begin with. -/
def firstOps (cs : List Chain) : List Op := cs.filterMap fun c => c.head?.map (·.1)

variable {began : Instant} {maxDepth b : Nat} {t t' : Stage}

theorem Goes.of_cosmetic {c : Chain} {ds : List Deed} (h : c.Goes began maxDepth b t ds t')
    (hc : c.isCosmetic = true) :
    ∃ op delay ok, c.head? = some (op, delay) ∧ op.isCosmetic = true ∧ ds = [⟨op, delay, ok⟩] := by
  unfold isCosmetic at hc
  split at hc
  · cases h with
    | reload _ => cases hc
    | last _ _ _ => exact ⟨_, _, _, rfl, hc, rfl⟩
    | @dropped _ _ _ _ _ _ ok _ _ hn => exact absurd (by cases ok <;> rfl) hn
    | @followed _ _ _ _ _ _ _ _ ok _ _ _ hn _ => exact absurd (by cases ok <;> rfl) hn
  · cases hc

/-- **Cosmetic actions that nothing follows** are carried out once each, in their order. -/
theorem AllGo.of_cosmetic {cs : List Chain} {dss : List (List Deed)} (h : AllGo began maxDepth cs t dss t')
    (hcs : ∀ c ∈ cs, c.isCosmetic = true) :
    dss.flatten.map Deed.op = firstOps cs ∧ ∀ op ∈ firstOps cs, op.isCosmetic = true := by
  induction h with
  | nil => exact ⟨rfl, fun _ h => absurd h List.not_mem_nil⟩
  | stop h hr =>
    -- No reload is among them.
    obtain ⟨op, delay, ok, -, hop, rfl⟩ := h.of_cosmetic (hcs _ List.mem_cons_self)
    obtain ⟨d, hd, hreload⟩ := hr
    rw [List.mem_singleton.1 hd] at hreload
    subst hreload
    cases hop
  | cons h _ _ ih =>
    obtain ⟨op, delay, ok, hhead, hop, rfl⟩ := h.of_cosmetic (hcs _ List.mem_cons_self)
    obtain ⟨hrest, hall⟩ := ih fun c hc => hcs c (List.mem_cons_of_mem _ hc)
    unfold firstOps at hrest hall ⊢
    rw [List.filterMap_cons_some (by rw [hhead]; rfl), List.flatten_cons, List.map_append, hrest]
    refine ⟨rfl, fun op' hop' => ?_⟩
    rcases List.mem_cons.1 hop' with rfl | hop'
    · exact hop
    · exact hall op' hop'

end Chain

/-- Whether a value of a schema is no list, and all actions that it stands for are cosmetic ones that nothing
follows. -/
def Json.isCosmetic (v : Json) : Bool := v.items?.isNone && (leafActions v).all Chain.isCosmetic

theorem cosmetic_collect {items : List Json} (h : ∀ v ∈ items, v.isCosmetic = true) (maxDepth depth : Nat) :
    ∀ c ∈ (collect maxDepth depth (.arr items)).1, c.isCosmetic = true := by
  have hitems : ∀ c ∈ (collectItems maxDepth (depth + 1) items).1, c.isCosmetic = true := by
    induction items with
    | nil =>
      rw [collectItems]
      exact fun c hc => absurd hc List.not_mem_nil
    | cons v vs ih =>
      intro c hc
      rw [collectItems, Collected.append] at hc
      rcases List.mem_append.1 hc with hc | hc
      · have hv := h v List.mem_cons_self
        rw [Json.isCosmetic, Bool.and_eq_true, List.all_eq_true] at hv
        refine hv.2 c (Chain.mem_collect_leaf (fun items hlist => ?_) hc)
        rw [hlist] at hv
        cases hv.1
      · exact ih (fun w hw => h w (List.mem_cons_of_mem _ hw)) c hc
  intro c hc
  rw [collect] at hc
  split at hc
  · exact absurd hc List.not_mem_nil
  · exact hitems c hc

namespace Sweeper

variable {i : Sweeper} {schema : Json} {p : Page}

/-- **The first pass settles the page.** -/
theorem run_settles (h : ∀ c ∈ (collect i.maxDepth 0 schema).1, c.isCosmetic = true) (hp : p.Numbered)
    (began : Instant) : (i.run began schema p).scene.page.Numbered ∧
      (i.run began schema p).scene.page.Settled (Chain.firstOps (collect i.maxDepth 0 schema).1) := by
  obtain ⟨dss, r, log, hg, -, -, hrun⟩ := i.run_ends began schema p
  obtain ⟨hops, hall⟩ := hg.of_cosmetic h
  have hsettles := (Page.settles_compose began).along hg
  rw [hops] at hsettles
  rw [hrun]
  exact hsettles hall [] hp p.settled_nil

/-- **A pass on a page that is settled** leaves the page and has nothing to tell. -/
theorem run_of_settled (h : ∀ c ∈ (collect i.maxDepth 0 schema).1, c.isCosmetic = true) (hp : p.Numbered)
    (hs : p.Settled (Chain.firstOps (collect i.maxDepth 0 schema).1)) (began : Instant) :
    let r := i.run began schema p
    r.scene.page = p ∧ r.summary.elements = 0 ∧ r.summary.cookies = 0 ∧ r.scene.sent = [] := by
  intro r
  obtain ⟨dss, r₀, log, hg, -, -, hrun⟩ := i.run_ends began schema p
  obtain ⟨hops, hall⟩ := hg.of_cosmetic h
  have hdresses := (Page.dresses_compose began).along hg
  rw [hops] at hdresses
  obtain ⟨log₀, hscene⟩ := hdresses hall hp hs.swept
  have hscene₀ : r₀.scene = ⟨p, i.styles, .zero, [], log₀⟩ := by
    rw [show r₀.scene = _ from hscene]
    simp only [hs.dress_eq_self hp]
  have htotal : r₀.summary.total = 0 := by
    unfold Run.summary
    rw [hscene₀]
    rfl
  rw [show r = _ from hrun, htotal, Run.summary]
  simp only [hscene₀]
  exact ⟨trivial, rfl, rfl, by simp⟩

end Sweeper

/-- **A pass that only takes elements away and changes inline styles does nothing more when it is run again.**
Of a schema that is a flat list of such actions, of ones that are logged and of ones that are invalid, none of
them followed by another, the second pass right after the first leaves the page as it is, and with it the
snapshot; it counts nothing and tells nothing. -/
theorem cosmetic_pass_settles {p : Page} (hp : p.Numbered) {items : List Json}
    (hitems : ∀ v ∈ items, v.isCosmetic = true) (i : Sweeper) (began later : Instant) :
    let r := i.run began (.arr items) p
    let r' := (i.after r).run later (.arr items) r.scene.page
    r'.scene.page = r.scene.page ∧ r'.summary.elements = 0 ∧ r'.summary.cookies = 0 ∧ r'.scene.sent = [] := by
  intro r r'
  have hcosmetic := cosmetic_collect hitems i.maxDepth 0
  obtain ⟨hnum, hsettled⟩ := Sweeper.run_settles hcosmetic hp began
  exact Sweeper.run_of_settled (i := i.after r) hcosmetic hnum hsettled later

/-- A page with an element for a wall, and a note of two classes that brings an attribute for its style along. -/
def walledPage : Page :=
  (((Page.new "shop.example").add none "div" [("class", "wall")]).1.add none "p"
    [("class", "note wide"), ("style", "color: red; display: block")]).1

/-- Actions that style the note twice, under two selectors and in two orders, between a removal, a selector that
cannot be read and an action that has no name. -/
def overlappingActions : List Json := [
  .obj [("action", .str "style"), ("target", .str ".note"),
    ("styles", .obj [("top", .str "0"), ("color", .str "blue")])],
  .obj [("action", .str "remove"), ("target", .str ".wall"), ("delay", .int 30)],
  .obj [("action", .str "hide"), ("target", .str "p.wide")],
  .obj [("action", .str "style"), ("target", .str "p"),
    ("styles", .obj [("color", .str "green"), ("top", .str "1px")])],
  .obj [("action", .str "remove"), ("target", .str "[[")],
  .obj [("target", .str "p")]]

theorem cosmetic_pass_settles_walledPage :
    walledPage.Numbered ∧ (∀ v ∈ overlappingActions, v.isCosmetic = true) ∧
      let r := (Sweeper.new 32).run .epoch (.arr overlappingActions) walledPage
      let r' := ((Sweeper.new 32).after r).run .epoch (.arr overlappingActions) r.scene.page
      r'.scene.page = r.scene.page ∧ r'.summary.elements = 0 ∧ r'.summary.cookies = 0 ∧ r'.scene.sent = [] := by
  have hwall := (Page.numbered_new "shop.example").append none (.ofTag "div" [("class", "wall")])
  have hnum : walledPage.Numbered :=
    hwall.append none (.ofTag "p" [("class", "note wide"), ("style", "color: red; display: block")])
  have hitems : ∀ v ∈ overlappingActions, v.isCosmetic = true := by decide
  exact ⟨hnum, hitems, cosmetic_pass_settles hnum hitems (Sweeper.new 32) .epoch .epoch⟩

end PageSweep
