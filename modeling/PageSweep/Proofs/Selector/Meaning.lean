import PageSweep.Proofs.Page.WellLinked

/-!
# What a selector means

A chain fits a node if there is a row of elements that ends in it, one for each part, that fit their steps and of which
each is the parent of the next one, or any element above it, as its part says. The program looks for such a row from its
end and goes back to try another element above where it gets stuck; it finds one if there is one.

* `fits_concat`: a chain with one part more at its end.
* `matchesBack_iff`: the search finds a row just if there is one.
* `query_meaning`: what a selector finds on a page.
-/

namespace PageSweep

namespace Selector

/-- The elements above, each with those above it, are the ends of the row. -/
theorem mem_lines {as : List Element} {x : Element × List Element} :
    x ∈ lines as ↔ x.1 :: x.2 <:+ as := by
  induction as with
  | nil => simp [lines]
  | cons a as ih => rw [lines, List.mem_cons, ih, List.suffix_cons_iff, Prod.ext_iff, List.cons.injEq]

/-- **One step of the search**: it goes on from an element above, or from the nearest one only. -/
theorem matchesBack_cons {q r : Part} {rest : Chain} {e : Element} {above : List Element} :
    matchesBack (q :: r :: rest) e above = true ↔ q.step.isMatch e = true ∧
      ∃ b bs, b :: bs <:+ above ∧ (q.combinator = .child → b :: bs = above) ∧
        matchesBack (r :: rest) b bs = true := by
  rw [matchesBack, Bool.and_eq_true]
  refine and_congr_right fun _ => ?_
  cases q.combinator with
  | child =>
    cases above with
    | nil => simp [lines]
    | cons b bs =>
      simp only [lines, List.take_succ_cons, List.take_zero, List.any_cons, List.any_nil, Bool.or_false]
      constructor
      · exact fun hmatch => ⟨b, bs, List.suffix_rfl, fun _ => rfl, hmatch⟩
      · rintro ⟨b', bs', -, hparent, hmatch⟩
        obtain ⟨rfl, rfl⟩ := List.cons.inj (hparent trivial)
        exact hmatch
  | descendant =>
    simp only [List.any_eq_true, Prod.exists, mem_lines, reduceCtorEq, false_implies, true_and]

end Selector

/-- With a node, those above it are in the forest, each with what is above it. -/
theorem Forest.mem_withAncestors_of_suffix {α : Type} {f : Forest α} {above : List α} :
    ∀ x ∈ f.withAncestors above, ∀ b bs, b :: bs <:+ x.2 →
      (b, bs) ∈ f.withAncestors above ∨ b :: bs <:+ above := by
  induction f generalizing above with
  | nil => exact fun _ hx => absurd hx List.not_mem_nil
  | cons c below after ihbelow ihafter =>
    intro x hx b bs hsuffix
    simp only [withAncestors, List.mem_cons, List.mem_append] at hx ⊢
    rcases hx with rfl | hx | hx
    · exact .inr hsuffix
    · rcases ihbelow x hx b bs hsuffix with hmem | habove
      · exact .inl (.inr (.inl hmem))
      · rcases List.suffix_cons_iff.1 habove with heq | habove
        · obtain ⟨rfl, rfl⟩ := List.cons.inj heq
          exact .inl (.inl rfl)
        · exact .inr habove
    · rcases ihafter x hx b bs hsuffix with hmem | habove
      · exact .inl (.inr (.inr hmem))
      · exact .inr habove

namespace Arena

open Selector

/-- How a node stands to the one on its right. -/
def Tied (a : Arena) : Combinator → Nat → Nat → Prop
  | .child, m, n => a.parent? n = some m
  | .descendant, m, n => a.Above m n

/-- A node is an element that fits a step; the root is none. -/
def Meets (a : Arena) (s : Selector.Step) (n : Nat) : Prop :=
  n ≠ 0 ∧ ∃ e, a.element? n = some e ∧ s.isMatch e = true

/-- **What a chain means**: there are elements, one for each part and the node the last of them, which fit their steps
and of which each is tied to the one before it as its part says. -/
def Fits (a : Arena) (chain : Selector.Chain) (n : Nat) : Prop :=
  chain ≠ [] ∧ ∃ ns : Nat → Nat, ns (chain.length - 1) = n ∧ ∀ i (hi : i < chain.length),
    a.Meets chain[i].step (ns i) ∧ (0 < i → a.Tied chain[i].combinator (ns (i - 1)) (ns i))

variable {a : Arena} {p : Page} {c : Selector.Chain} {m n : Nat}

/-- The root is not looked for. -/
theorem Fits.ne_zero (h : a.Fits c n) : n ≠ 0 := by
  obtain ⟨hc, ns, rfl, hall⟩ := h
  exact (hall (c.length - 1) (Nat.sub_one_lt (by simpa using hc))).1.1

theorem fits_singleton {q : Part} : a.Fits [q] n ↔ a.Meets q.step n := by
  constructor
  · rintro ⟨-, ns, rfl, hall⟩
    exact (hall 0 Nat.one_pos).1
  · intro hmeets
    refine ⟨List.cons_ne_nil q [], fun _ => n, rfl, fun i hi => ?_⟩
    obtain rfl : i = 0 := Nat.lt_one_iff.1 hi
    exact ⟨hmeets, fun h => absurd h (Nat.lt_irrefl 0)⟩

/-- **One part more**: the chain before it fits a node that is tied to this one. -/
theorem fits_concat {q : Part} (hc : c ≠ []) :
    a.Fits (c ++ [q]) n ↔ a.Meets q.step n ∧ ∃ m, a.Tied q.combinator m n ∧ a.Fits c m := by
  have hpos : 0 < c.length := List.length_pos_iff.2 hc
  constructor
  · rintro ⟨-, ns, hlast, hall⟩
    simp only [List.length_append, List.length_singleton] at hlast hall
    have hn : ns c.length = n := by rw [← hlast]; rfl
    have hend := hall c.length (by omega)
    rw [List.getElem_concat_length rfl, hn] at hend
    refine ⟨hend.1, ns (c.length - 1), hend.2 hpos, hc, ns, rfl, fun i hi => ?_⟩
    have hi' := hall i (by omega)
    rw [List.getElem_append_left hi] at hi'
    exact hi'
  · rintro ⟨hmeets, m, htied, -, ns, hlast, hall⟩
    -- The row that there is, and the node at its end.
    refine ⟨by simp, fun i => if i < c.length then ns i else n, by simp, fun i hi => ?_⟩
    rw [List.length_append, List.length_singleton] at hi
    rcases Nat.lt_or_ge i c.length with hlt | hge
    · have hi' := hall i hlt
      rw [List.getElem_append_left hlt]
      simp only [if_pos hlt, if_pos (show i - 1 < c.length by omega)]
      exact hi'
    · obtain rfl : i = c.length := by omega
      rw [List.getElem_concat_length rfl]
      simp only [if_neg (Nat.lt_irrefl _), if_pos (show c.length - 1 < c.length by omega), hlast]
      exact ⟨hmeets, fun _ => htied⟩

/-! ### Lines of a page -/

theorem Holds.element? {parent : Option Nat} {f : Forest Node} (h : a.Holds parent f) :
    ∀ x ∈ f.preorder, a.element? x.ref = some x.element := by
  induction f generalizing parent with
  | nil => exact fun _ hx => absurd hx List.not_mem_nil
  | cons y below after ihbelow ihafter =>
    obtain ⟨hslot, -, hbelow, hafter⟩ := h
    intro x hx
    simp only [Forest.preorder_cons, List.mem_cons, List.mem_append] at hx
    rcases hx with rfl | hx | hx
    · rw [Arena.element?, hslot]
      rfl
    · exact ihbelow hbelow x hx
    · exact ihafter hafter x hx

variable {x : Node × List Node}

theorem mem_body_of_withAncestors (hx : x ∈ p.body.withAncestors []) : x.1 ∈ p.body.preorder := by
  rw [← Forest.preorder_withAncestors [] p.body]
  exact List.mem_map_of_mem hx

theorem Depicts.ne_zero (h : a.Depicts p) (hx : x ∈ p.body.withAncestors []) : x.1.ref ≠ 0 :=
  Nat.ne_of_gt (h.ref_pos x.1 (List.mem_append_left _ (mem_body_of_withAncestors hx)))

theorem Depicts.meets_iff (h : a.Depicts p) (hx : x ∈ p.body.withAncestors []) (s : Selector.Step) :
    a.Meets s x.1.ref ↔ s.isMatch x.1.element = true := by
  have helement := h.body.element? x.1 (mem_body_of_withAncestors hx)
  simp [Meets, helement, h.ne_zero hx]

theorem Line.eq_head? {parent : Option Nat} {ms : List Nat} (h : a.Line parent ms) : parent = ms.head? := by
  cases h <;> rfl

/-- **What is tied to a node of the body**, apart from the root, is a node of the body that is above it; the nearest
one if it has to be the parent. -/
theorem Depicts.tied_iff (h : a.Depicts p) (hx : x ∈ p.body.withAncestors []) (k : Combinator) (hm : m ≠ 0) :
    a.Tied k m x.1.ref ↔ ∃ y ys, y :: ys <:+ x.2 ∧ y.ref = m ∧ (k = .child → y :: ys = x.2) := by
  have hline := h.line hx
  cases k with
  | child =>
    rw [Tied, hline.eq_head?]
    cases hup : x.2 with
    | nil =>
      simp [hm.symm]
    | cons y ys =>
      simp only [List.map_cons, List.cons_append, List.head?_cons, Option.some.injEq]
      constructor
      · rintro rfl
        exact ⟨y, ys, List.suffix_rfl, rfl, fun _ => rfl⟩
      · rintro ⟨z, zs, -, rfl, hparent⟩
        rw [(List.cons.inj (hparent trivial)).1]
  | descendant =>
    rw [Tied, hline.above_iff, List.mem_append, List.mem_singleton, or_iff_left hm, List.mem_map]
    constructor
    · rintro ⟨y, hy, rfl⟩
      obtain ⟨ys, zs, hsplit⟩ := List.append_of_mem hy
      exact ⟨y, zs, ⟨ys, hsplit.symm⟩, rfl, fun hk => by cases hk⟩
    · rintro ⟨y, ys, hsuffix, rfl, -⟩
      exact ⟨y, hsuffix.subset List.mem_cons_self, rfl⟩

/-- **The search from the end finds a row if there is one.** -/
theorem Depicts.matchesBack_iff (h : a.Depicts p) (hx : x ∈ p.body.withAncestors []) (c : Selector.Chain) :
    matchesBack c x.1.element (x.2.map (·.element)) = true ↔ a.Fits c.reverse x.1.ref := by
  induction c generalizing x with
  | nil => exact ⟨fun hfalse => absurd hfalse Bool.false_ne_true, fun hfits => absurd rfl hfits.1⟩
  | cons q c ih =>
    cases c with
    | nil => rw [matchesBack, List.reverse_singleton, fits_singleton, h.meets_iff hx]
    | cons r rest =>
      have hreverse : (q :: r :: rest).reverse = (r :: rest).reverse ++ [q] := List.reverse_cons
      rw [matchesBack_cons, hreverse, fits_concat (by simp), h.meets_iff hx]
      refine and_congr_right fun _ => ?_
      constructor
      · rintro ⟨b, bs, hsuffix, hparent, hmatch⟩
        obtain ⟨l, hl, hmap⟩ := List.suffix_map_iff.1 hsuffix
        obtain ⟨y, ys, rfl, rfl, rfl⟩ := List.map_eq_cons_iff.1 hmap.symm
        have hy := (Forest.mem_withAncestors_of_suffix x hx y ys hl).resolve_right (by simp)
        refine ⟨y.ref, (h.tied_iff hx _ (h.ne_zero hy)).2 ⟨y, ys, hl, rfl, fun hk => ?_⟩, (ih hy).1 hmatch⟩
        -- The nearest one is known from how much is above it.
        refine hl.eq_of_length ?_
        simpa using congrArg List.length (hparent hk)
      · rintro ⟨m, htied, hfits⟩
        obtain ⟨y, ys, hsuffix, rfl, hparent⟩ := (h.tied_iff hx _ hfits.ne_zero).1 htied
        have hy := (Forest.mem_withAncestors_of_suffix x hx y ys hsuffix).resolve_right (by simp)
        exact ⟨y.element, ys.map Node.element, hsuffix.map Node.element, fun hk => by rw [← hparent hk]; rfl,
          (ih hy).2 hfits⟩

end Arena

open Arena in
/-- **What a selector finds** on any page that can be reached: the elements in the body that one of its chains fits,
each once and in document order. -/
theorem query_meaning {a : Arena} {p : Page} {text : String} {s : Selector} (h : a.Backs p)
    (hs : Selector.read text = .ok s) :
    ∃ walk found, a.Walks walk ∧ p.query text = .ok found ∧ found.Sublist walk ∧ found.Nodup ∧
      ∀ n, n ∈ found ↔ n ≠ 0 ∧ a.Climbs (some n) true ∧ ∃ c ∈ s, a.Fits c n := by
  have hdepicts := h.depicts
  have hnodup : p.rooted.Nodup := hdepicts.numbered.sides.1
  have hquery : p.query text = .ok (((p.body.withAncestors []).filter fun x =>
      s.isMatch x.1.element (x.2.map (·.element))).map (·.1.ref)) := by rw [Page.query, hs]
  have hsub := Page.query_sublist hquery
  refine ⟨p.rooted, _, (hdepicts.walks_iff _).2 rfl, hquery, hsub, hnodup.sublist hsub, fun n => ?_⟩
  have hmatch : ∀ x ∈ p.body.withAncestors [],
      s.isMatch x.1.element (x.2.map (·.element)) = true ↔ ∃ c ∈ s, a.Fits c x.1.ref := by
    intro x hx
    rw [Selector.isMatch, List.any_eq_true]
    refine exists_congr fun c => and_congr_right fun _ => ?_
    rw [Selector.Chain.isMatch, hdepicts.matchesBack_iff hx, List.reverse_reverse]
  rw [← and_assoc, ← hdepicts.mem_rooted_iff, Page.rooted, ← Forest.preorder_withAncestors [] p.body, List.map_map]
  constructor
  · intro hn
    obtain ⟨x, hx, rfl⟩ := List.mem_map.1 hn
    obtain ⟨hx, hfits⟩ := List.mem_filter.1 hx
    exact ⟨List.mem_map_of_mem hx, (hmatch x hx).1 hfits⟩
  · rintro ⟨hn, hfits⟩
    obtain ⟨x, hx, rfl⟩ := List.mem_map.1 hn
    exact List.mem_map_of_mem (List.mem_filter.2 ⟨hx, (hmatch x hx).2 hfits⟩)

open Arena

/-- The step of a tag. -/
def Selector.Step.ofTag (tag : String) : Selector.Step := ⟨some tag, none, [], []⟩

/-- Elements below each other, of which two have one tag. -/
def nestedPage : Arena × Page :=
  let add (x : Arena × Page) (m : Nat) (tag : String) : Arena × Page :=
    (x.1.append m (.ofTag tag []), (x.2.append (place m) (.ofTag tag [])).1)
  add (add (add (add (.new, .new "shop.example") 0 "main") 1 "div") 2 "div") 3 "p"

theorem backs_nestedPage : nestedPage.1.Backs nestedPage.2 := by
  have h₁ := (Backs.new "shop.example").step (.append (m := 0) (by decide) (.ofTag "main" []))
  have h₂ := h₁.step (.append (m := 1) (by decide) (.ofTag "div" []))
  have h₃ := h₂.step (.append (m := 2) (by decide) (.ofTag "div" []))
  exact h₃.step (.append (m := 3) (by decide) (.ofTag "p" []))

/-- The nearest element of the second tag is the wrong one. -/
theorem query_meaning_nestedPage :
    let c : Selector.Chain := [⟨.ofTag "main", .descendant⟩, ⟨.ofTag "div", .child⟩, ⟨.ofTag "p", .descendant⟩]
    Selector.read "main > div p" = .ok [c] ∧ nestedPage.2.query "main > div p" = .ok [4] ∧
      nestedPage.1.Fits c 4 := by
  intro c
  have hread : Selector.read "main > div p" = .ok [c] := by decide
  have hquery : nestedPage.2.query "main > div p" = .ok [4] := by decide +kernel
  obtain ⟨walk, found, -, hfound, -, -, hall⟩ := query_meaning backs_nestedPage hread
  obtain rfl := Except.ok.inj (hquery.symm.trans hfound)
  obtain ⟨-, -, c', hc', hfits⟩ := (hall 4).1 List.mem_cons_self
  obtain rfl := List.mem_singleton.1 hc'
  exact ⟨hread, hquery, hfits⟩

end PageSweep
