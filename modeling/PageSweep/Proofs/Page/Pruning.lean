import PageSweep.Proofs.Page.Finding

/-!
# Pruned pages

An element that is taken away goes with all that is below it. However many are taken, one after the other and in
whatever way they are nested, the body is then the former one cut at all of them at once. What stays has the same
elements above it as before, so a selector finds what it found, as far as that stayed.

* `Forest.cut_cut`: one cut after the other.
* `prunes_removeAll`, `Prunes.trans`: elements that are taken away one after the other.
* `Prunes.lines`, `Prunes.query`: what stays, and what selectors find of it.
* `Prunes.snapshot`: pages that were pruned at the same elements.
-/

namespace PageSweep

namespace Forest

variable {α : Type} {p : α → Bool} {f : Forest α}

/-- Cutting nothing. -/
theorem cut_eq_self (h : ∀ a ∈ f.preorder, p a = false) : (f.cut p).1 = f := by
  induction f with
  | nil => rfl
  | cons a below after ih1 ih2 =>
    simp only [preorder_cons, List.mem_cons, List.mem_append] at h
    simp only [cut, h a (.inl rfl), Bool.false_eq_true, if_false, ih1 fun b hb => h b (.inr (.inl hb)),
      ih2 fun b hb => h b (.inr (.inr hb))]

/-- **One cut after the other** leaves what one cut at both leaves. -/
theorem cut_cut (p q : α → Bool) (f : Forest α) : ((f.cut p).1.cut q).1 = (f.cut fun a => p a || q a).1 := by
  induction f with
  | nil => rfl
  | cons a below after ih1 ih2 =>
    by_cases hp : p a = true
    · simp only [cut, hp, if_true, Bool.true_or, ih2]
    · rw [Bool.not_eq_true] at hp
      by_cases hq : q a = true
      · simp only [cut, hp, hq, if_true, Bool.false_eq_true, if_false, Bool.false_or, ih2]
      · simp only [cut, hp, hq, Bool.false_eq_true, if_false, Bool.false_or, ih1, ih2]

end Forest

namespace Page

/-- The elements of the body, each with those above it, the nearest first, in document order. -/
def lines (p : Page) : List (Node × List Node) := p.body.withAncestors []

/-- Whether neither an element nor one above it has one of some numbers. -/
def isClearOf (refs : List Nat) (x : Node × List Node) : Bool := (x.1 :: x.2).all fun n => decide (n.ref ∉ refs)

/-- **A page that was pruned at the elements of some numbers**: its body was cut there, and all else is as it was, but
for what lies loose. -/
structure Prunes (refs : List Nat) (p q : Page) : Prop where
  body : q.body = (p.body.cut fun n => decide (n.ref ∈ refs)).1
  rest : q = { p with body := q.body, loose := q.loose }

variable {p q r : Page} {refs refs' : List Nat}

theorem Prunes.refl (p : Page) : p.Prunes [] p :=
  ⟨(Forest.cut_eq_self fun _ _ => decide_eq_false List.not_mem_nil).symm, rfl⟩

theorem Prunes.trans (h : p.Prunes refs q) (h' : q.Prunes refs' r) : p.Prunes (refs ++ refs') r := by
  refine ⟨?_, ?_⟩
  · rw [h'.body, h.body, Forest.cut_cut]
    simp only [List.mem_append, Bool.decide_or]
  · rw [h'.rest, h.rest]

/-- Only numbers of the body matter. -/
theorem Prunes.congr (h : p.Prunes refs q) (hsame : ∀ ref ∈ p.rooted, ref ∈ refs' ↔ ref ∈ refs) :
    p.Prunes refs' q := by
  refine ⟨h.body.trans ?_, h.rest⟩
  rw [Forest.cut_congr fun n hn => ?_]
  exact decide_eq_decide.2 (hsame n.ref (List.mem_map_of_mem hn)).symm

theorem prunes_remove (p : Page) (ref : Nat) : p.Prunes [ref] (p.remove ref) := by
  refine ⟨?_, rfl⟩
  simp only [List.mem_singleton]
  rfl

/-- **Elements that are taken away one after the other** are cut off at once, nested ones among them. -/
theorem prunes_removeAll (p : Page) (refs : List Nat) : p.Prunes refs (refs.foldl remove p) := by
  induction refs generalizing p with
  | nil => exact .refl p
  | cons ref refs ih => exact (prunes_remove p ref).trans (ih _)

/-! ### What stays -/

/-- **What stays keeps the elements above it**: just those elements stay that were not cut off, with none above them
that was, in their order and as they were. -/
theorem Prunes.lines (h : p.Prunes refs q) : q.lines = p.lines.filter (isClearOf refs) := by
  have hnone : ∀ n ∈ ([] : List Node), decide (n.ref ∈ refs) = false := fun _ hn => absurd hn List.not_mem_nil
  rw [Page.lines, h.body, Forest.withAncestors_cut _ p.body hnone]
  refine List.filter_congr fun x _ => ?_
  simp only [isClearOf, List.all_cons, decide_not]

theorem Prunes.connected (h : p.Prunes refs q) : q.connected = (p.lines.filter (isClearOf refs)).map (·.1) := by
  rw [← h.lines]
  exact (Forest.preorder_withAncestors [] q.body).symm

theorem Prunes.leaves (h : p.Prunes refs q) : p.Leaves q := by
  have hcut := Forest.map_cut Node.bare (fun n : Node => decide (n.ref ∈ refs)) p.body
  have hnone : ∀ n ∈ ([] : List Node), decide (n.ref ∈ refs) = false := fun _ hn => absurd hn List.not_mem_nil
  have hwalk := Forest.withAncestors_cut _ (p.body.map Node.bare) hnone
  rw [hcut] at hwalk
  exact ⟨_, by rw [outline, h.body]; exact hwalk⟩

/-- What was cut off is not in the body. -/
theorem Prunes.not_mem_rooted (h : p.Prunes refs q) {ref : Nat} (href : ref ∈ refs) : ref ∉ q.rooted := by
  intro hrooted
  obtain ⟨n, hn, rfl⟩ := List.mem_map.1 hrooted
  rw [h.body] at hn
  exact of_decide_eq_false (Forest.not_of_mem_cut _ p.body n hn) href

theorem isConnected_iff {ref : Nat} : p.isConnected ref = true ↔ ref ∈ p.rooted := by
  rw [isConnected, connected, rooted, List.any_eq_true, List.mem_map]
  simp only [beq_iff_eq]

/-- **Selectors find what they found**, as far as it stayed. -/
theorem Prunes.query (h : p.Prunes refs q) (hp : p.Numbered) (selector : String) :
    q.query selector = (p.query selector).map (List.filter q.isConnected) := by
  have hkept : (fun ref => decide (ref ∈ q.rooted)) = q.isConnected := by
    funext ref
    rw [Bool.eq_iff_iff, decide_eq_true_iff, isConnected_iff]
  rw [← hkept]
  exact h.leaves.query hp selector

/-- What a selector found and was cut off, it does not find. -/
theorem Prunes.query_eq_nil (h : p.Prunes refs q) (hp : p.Numbered) {selector : String} {found : List Nat}
    (hfound : p.query selector = .ok found) (hrefs : ∀ ref ∈ found, ref ∈ refs) : q.query selector = .ok [] := by
  have hnone : found.filter q.isConnected = [] :=
    List.filter_eq_nil_iff.2 fun ref href hconnected =>
      h.not_mem_rooted (hrefs ref href) (isConnected_iff.1 hconnected)
  rw [h.query hp, hfound, Except.map, hnone]

/-- **Pages that were pruned at the same elements** have one snapshot. -/
theorem Prunes.snapshot (h : p.Prunes refs q) (h' : p.Prunes refs r) : r.snapshot = q.snapshot := by
  have hbody : r.body = q.body := h'.body.trans h.body.symm
  rw [h.rest, h'.rest, hbody]
  rfl

end Page

end PageSweep
