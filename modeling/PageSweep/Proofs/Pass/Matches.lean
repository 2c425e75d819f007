import PageSweep.Proofs.Page.Pruning
import PageSweep.Proofs.Page.Restyling
import PageSweep.Pass.Effect

/-!
# What is changed where it is

Styling, hiding and taking a class away change each element that their selector finds, once and in its place, and
nothing else of the page. Hiding is styling. What selectors find does not depend on styles, so neither is seen by them.

* `Page.mem_query_iff`: what a selector finds.
* `Scene.onMatches_update`: one change made to what a selector finds.
* `matches_changed_alone`: the three operations.
-/

namespace PageSweep

/-- **A selector finds what it matches**, below what stands above it. -/
theorem Page.mem_query_iff {p : Page} (hp : p.Numbered) {target : String} {sel : Selector} {found : List Nat}
    (hs : Selector.read target = .ok sel) (hfound : p.query target = .ok found) {line : Node × List Node}
    (hline : line ∈ p.lines) :
    line.1.ref ∈ found ↔ sel.isMatch line.1.element (line.2.map (·.element)) = true := by
  have hnodup : (p.lines.map fun line => line.1.ref).Nodup := by
    have hpreorder : p.lines.map (·.1) = p.body.preorder := Forest.preorder_withAncestors [] p.body
    have hrefs : p.lines.map (fun line => line.1.ref) = p.body.preorder.map Node.ref := by
      rw [← hpreorder, List.map_map]
      rfl
    rw [hrefs]
    exact hp.sides.1
  have heq : found = (p.lines.filter fun line => sel.isMatch line.1.element (line.2.map (·.element))).map (·.1.ref) := by
    rw [Page.query, hs] at hfound
    exact (Except.ok.inj hfound).symm
  rw [heq]
  exact mem_map_filter_iff _ hnodup hline

namespace Scene

variable {s : Scene} {target : String} {found : List Nat}

/-- **One change made to what a selector finds.** -/
theorem onMatches_update (hp : s.page.Numbered) (hfound : s.page.query target = .ok found) (f : Element → Element) :
    s.onMatches target (fun refs s => s.withPage (refs.foldl (fun p ref => p.update ref f) s.page)) =
      (.ok (!found.isEmpty), s.withPage (s.page.changeAll found f)) := by
  rw [onMatches, hfound]
  simp only [hp.foldl_update_eq (Page.query_sublist hfound) f]

theorem style_eq_changeAll (hp : s.page.Numbered) (hfound : s.page.query target = .ok found) (ds : List Declaration) :
    s.style target ds = (.ok (!found.isEmpty), s.withPage (s.page.changeAll found (·.dress ds))) := by
  rw [← onMatches_update hp hfound, style]
  simp only [Page.setStyles_eq]

end Scene

/-- **Styling, hiding and taking a class away change what they match**, in its place, and nothing else: not the order of
the elements nor what stands below what, no cookie, no stylesheet, and no element that is not matched. On an element
that is matched, a style goes on with the declarations: each property that is declared has the value that was declared
last, all others have theirs, the entries keep their places, and new ones come behind in the order in which they were
declared first. An element that loses a class has the other words of its class attribute, in their order, and all other
attributes as they were. No selector finds anything else after styling or hiding. -/
theorem matches_changed_alone {s : Scene} (hp : s.page.Numbered) {target : String} {sel : Selector}
    (hs : Selector.read target = .ok sel) (ds : List Declaration) (className : String) (now : Instant) :
    ∃ found, s.page.query target = .ok found ∧
      (∀ line ∈ s.page.lines,
        line.1.ref ∈ found ↔ sel.isMatch line.1.element (line.2.map (·.element)) = true) ∧
      (Op.style target ds).apply now s =
        (.ok (!found.isEmpty), s.withPage (s.page.changeAll found (·.dress ds))) ∧
      (Op.hide target).apply now s =
        (.ok (!found.isEmpty), s.withPage (s.page.changeAll found (·.dress [("display", "none")]))) ∧
      (Op.removeClass target className).apply now s =
        (.ok (!found.isEmpty), s.withPage (s.page.changeAll found (·.removeClass className))) ∧
      (∀ es selector, (s.page.changeAll found (·.dress es)).query selector = s.page.query selector) ∧
      ∀ e : Element, (∀ es, e.Restyles es (e.dress es)) ∧ e.Declasses className (e.removeClass className) := by
  obtain ⟨found, hfound⟩ : ∃ found, s.page.query target = .ok found := by
    rw [Page.query, hs]
    exact ⟨_, rfl⟩
  exact ⟨found, hfound, fun line hline => Page.mem_query_iff hp hs hfound hline,
    Scene.style_eq_changeAll hp hfound ds, Scene.style_eq_changeAll hp hfound _,
    Scene.onMatches_update hp hfound (·.removeClass className),
    s.page.query_changeAll_dress found, fun e => ⟨(e.restyles_dress ·), e.declasses_removeClass className⟩⟩

/-- A page with a note that has a property and a class twice, and a lead. -/
def doubledPage : Page :=
  (((Page.new "shop.example").append none ⟨"div", .ofList [("class", "note  wide note")],
    [("top", "0"), ("color", "red"), ("top", "1px")], 0⟩).1.add none "p" [("class", "lead")]).1

theorem numbered_doubledPage : doubledPage.Numbered :=
  ((Page.numbered_new "shop.example").append none _).append none (.ofTag "p" [("class", "lead")])

/-- The first entry of the note's doubled property gets the last value, and both words of its class go. -/
theorem matches_changed_alone_doubledPage :
    let s : Scene := ⟨doubledPage, .empty, .zero, [], []⟩
    let ds := [("left", "2px"), ("top", "3px"), ("color", "blue"), ("top", "4px")]
    s.page.Numbered ∧ Selector.read ".note" = .ok [[⟨⟨none, none, ["note"], []⟩, .descendant⟩]] ∧
      s.page.query ".note" = .ok [1] ∧
      ((Op.style ".note" ds).apply .epoch s).2.page.connected.map (·.element.style) =
        [[("top", "4px"), ("color", "blue"), ("top", "1px"), ("left", "2px")], []] ∧
      ((Op.removeClass ".note" "note").apply .epoch s).2.page.connected.map (·.element.classes) =
        [["wide"], ["lead"]] := by
  intro s ds
  have hread : Selector.read ".note" = .ok [[⟨⟨none, none, ["note"], []⟩, .descendant⟩]] := by decide
  have hquery : s.page.query ".note" = .ok [1] := by decide +kernel
  obtain ⟨found, hfound, -, hstyle, -, hclass, -⟩ :=
    matches_changed_alone (s := s) numbered_doubledPage hread ds "note" .epoch
  obtain rfl := Except.ok.inj (hquery.symm.trans hfound)
  refine ⟨numbered_doubledPage, hread, hquery, ?_, ?_⟩
  · rw [hstyle]
    decide +kernel
  · rw [hclass]
    decide +kernel

end PageSweep
