import PageSweep.Proofs.Lists
import PageSweep.Proofs.Page.Uprooting

/-!
# What selectors find

A selector looks at the tags and attributes of an element and of those above it. So it finds the same when
inline styles were changed; and when elements were taken away, it finds what it found before, as far as that
is still in the body, since whatever stays in the body stays below the same elements.

* `Selector.isMatch_bare`: inline styles and clicks are not looked at.
* `outline_map`: changes that leave the outline of a page.
* `Leaves.query`, `Leaves.mem_found`: what a selector finds in what was left of a page.
-/

namespace PageSweep

/-! ### What is looked at -/

/-- An element without its inline style and its clicks. -/
def Element.bare (e : Element) : Element := { e with style := [], clicks := 0 }

namespace Selector

theorem Step.isMatch_bare (s : Step) (e : Element) : s.isMatch e.bare = s.isMatch e := rfl

theorem lines_map (f : Element → Element) (as : List Element) :
    lines (as.map f) = (lines as).map fun a => (f a.1, a.2.map f) := by
  induction as with
  | nil => rfl
  | cons a as ih => simp [lines, ih]

theorem matchesBack_bare (c : Chain) (e : Element) (above : List Element) :
    matchesBack c e.bare (above.map Element.bare) = matchesBack c e above := by
  induction c generalizing e above with
  | nil => rfl
  | cons p c ih =>
    cases c with
    | nil => exact p.step.isMatch_bare e
    | cons q rest =>
      have hline : (fun a : Element × List Element => matchesBack (q :: rest) a.1 a.2) ∘
          (fun a : Element × List Element => (a.1.bare, a.2.map Element.bare)) =
          fun a => matchesBack (q :: rest) a.1 a.2 := by
        funext a
        exact ih a.1 a.2
      rw [matchesBack, matchesBack, p.step.isMatch_bare, lines_map]
      cases p.combinator with
      | child => simp only [← List.map_take, List.any_map, hline]
      | descendant => simp only [List.any_map, hline]

/-- **A selector does not look at inline styles and clicks.** -/
theorem isMatch_bare (s : Selector) (e : Element) (above : List Element) :
    s.isMatch e.bare (above.map Element.bare) = s.isMatch e above := by
  unfold isMatch Chain.isMatch
  simp only [matchesBack_bare]

end Selector

/-- A node as selectors see it. -/
def Node.bare (n : Node) : Node := ⟨n.ref, n.element.bare⟩

namespace Page

/-- **The outline of a page**: the nodes of the body as selectors see them, each with those above it, in
document order. -/
def outline (p : Page) : List (Node × List Node) := (p.body.map Node.bare).withAncestors []

/-- The numbers of the elements that a selector finds; none if it cannot be read. -/
def found (p : Page) (selector : String) : List Nat :=
  match p.query selector with
  | .ok refs => refs
  | .error _ => []

variable {p q r : Page} {selector : String}

theorem rooted_eq (p : Page) : p.rooted = p.outline.map (·.1.ref) := by
  have hbare := Forest.preorder_withAncestors [] (p.body.map Node.bare)
  have hrefs := congrArg (List.map Node.ref) hbare
  rw [List.map_map, Forest.preorder_map, List.map_map] at hrefs
  exact hrefs.symm

/-- **What a selector finds is read off the outline.** -/
theorem query_eq (p : Page) (selector : String) : p.query selector = (Selector.read selector).map fun s =>
    (p.outline.filter fun n => s.isMatch n.1.element (n.2.map (·.element))).map (·.1.ref) := by
  unfold query
  cases Selector.read selector with
  | error e => rfl
  | ok s =>
    have hwalk : p.outline = (p.body.withAncestors []).map fun n => (n.1.bare, n.2.map Node.bare) :=
      Forest.map_withAncestors Node.bare [] p.body
    have hfit : ((fun n : Node × List Node => s.isMatch n.1.element (n.2.map (·.element))) ∘
        fun n : Node × List Node => (n.1.bare, n.2.map Node.bare)) =
        fun n => s.isMatch n.1.element (n.2.map (·.element)) := by
      funext n
      have habove : (n.2.map Node.bare).map (·.element) = (n.2.map (·.element)).map Element.bare := by
        rw [List.map_map, List.map_map]
        rfl
      rw [Function.comp_apply, habove]
      exact s.isMatch_bare _ _
    simp only [Except.map, hwalk, List.filter_map, hfit, List.map_map]
    rfl

theorem found_eq (h : p.query selector = q.query selector) : p.found selector = q.found selector := by
  rw [found, found, h]

/-- What a selector finds is in the body, each element once. -/
theorem found_sublist (p : Page) (selector : String) : (p.found selector).Sublist p.rooted := by
  unfold found
  split
  · rename_i hquery
    exact query_sublist hquery
  · exact List.nil_sublist _

/-! ### What is left of a page -/

/-- **A page that was left of another one**: its outline is that of the other one without some lines. -/
def Leaves (p q : Page) : Prop := ∃ keep, q.outline = p.outline.filter keep

/-- Changes that selectors do not see leave the outline. -/
theorem outline_map {f : Node → Node} (hf : ∀ n, (f n).bare = n.bare) (hbody : q.body = p.body.map f) :
    q.outline = p.outline := by
  have hnode : Node.bare ∘ f = Node.bare := funext hf
  rw [outline, hbody, Forest.map_map, hnode, outline]

/-- **What a selector finds in what was left of a page** is what it found before, as far as it is still there. -/
theorem Leaves.query (h : p.Leaves q) (hp : p.Numbered) (selector : String) :
    q.query selector = (p.query selector).map (List.filter fun ref => decide (ref ∈ q.rooted)) := by
  obtain ⟨keep, hq⟩ := h
  have hnodup : p.rooted.Nodup := hp.sides.1
  rw [rooted_eq] at hnodup
  rw [query_eq, query_eq, rooted_eq, hq]
  cases Selector.read selector with
  | error e => rfl
  | ok s =>
    simp only [Except.map, List.filter_map, List.filter_filter, Except.ok.injEq]
    refine congrArg _ (List.filter_congr fun n hn => ?_)
    have hkept := mem_map_filter_iff keep hnodup hn
    rw [Function.comp_apply, Bool.and_comm]
    congr 1
    rw [Bool.eq_iff_iff, decide_eq_true_iff]
    exact hkept.symm

theorem Leaves.mem_found (h : p.Leaves q) (hp : p.Numbered) {ref : Nat} :
    ref ∈ q.found selector ↔ ref ∈ p.found selector ∧ ref ∈ q.rooted := by
  have hquery := h.query hp selector
  unfold found
  rw [hquery]
  cases p.query selector with
  | error e => simp [Except.map]
  | ok refs => simp [Except.map]

end Page

end PageSweep
