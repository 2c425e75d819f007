import Mathlib.Data.Set.Card
import PageSweep.Proofs.Page.Backing
import PageSweep.Proofs.Page.Uprooting

/-!
# Arenas are forests

The two ends of a link always agree and a parent is always older than its children, so the loops over an arena end: the
climb to the root from any node, and the walk down from the root. They find the same nodes, those that are in the body
of the page that the arena depicts.

* `Depicts.isForest`: the links of an arena.
* `Depicts.climbs_iff`, `Depicts.walks_iff`: its loops end, and what they give.
* `Line.above_iff`: what is above a node.
* `arena_well_linked`: all this for every arena that can be reached.
-/

namespace PageSweep

namespace Arena

/-- **An arena that is a forest**: the root is there and has no parent, a parent is older than its children, and a node
stands in the list of its parent once, and in no other list. -/
structure IsForest (a : Arena) : Prop where
  root : 0 < a.size ∧ a.parent? 0 = none
  older : ∀ m n, a.parent? n = some m → m < n
  listed : ∀ m n, (a.children m).count n = if a.parent? n = some m then 1 else 0

/-- A node is above another one: its parent, or above that. -/
def Above (a : Arena) : Nat → Nat → Prop := Relation.TransGen fun m n => a.parent? n = some m

/-- **The walk down from the root**, and what it passes. -/
def Walks (a : Arena) (out : List Nat) : Prop := a.Collects (a.children 0) out

/-- A parent, what is above it, and so on to the end. -/
inductive Line (a : Arena) : Option Nat → List Nat → Prop where
  | nil : Line a none []
  | cons {m : Nat} {ms : List Nat} (h : Line a (a.parent? m) ms) : Line a (some m) (m :: ms)

variable {a a' : Arena} {p p' : Page} {parent : Option Nat} {f : Forest Node} {m n : Nat}

/-! ### Links -/

theorem lt_size_of_parent? (h : a.parent? n = some m) : n < a.size := by
  obtain ⟨s, hs, -⟩ := parent?_eq_some.1 h
  exact lt_size_of_slot hs

/-- What has a parent is not the root. -/
theorem Depicts.pos_of_parent? (h : a.Depicts p) (hn : a.parent? n = some m) : 0 < n := by
  rcases Nat.eq_zero_or_pos n with rfl | hpos
  · rw [h.parent?_zero] at hn
    cases hn
  · exact hpos

theorem Depicts.mem_children_of_parent? (h : a.Depicts p) (hn : a.parent? n = some m) : n ∈ a.children m := by
  refine h.forall_node (P := fun n => a.parent? n = some m → n ∈ a.children m) (fun x hx hm => ?_)
    (fun x hx hm => ?_) n (h.pos_of_parent? hn) (lt_size_of_parent? hn) hn
  · rcases h.body.mem_children x hx with htop | ⟨y, -, hparent, hlist⟩
    · obtain rfl := Option.some.inj ((h.body.parent?_tops x htop).symm.trans hm)
      rw [h.children_zero]
      exact List.mem_map_of_mem htop
    · obtain rfl := Option.some.inj (hparent.symm.trans hm)
      exact hlist
  · rcases h.loose.mem_children x hx with htop | ⟨y, -, hparent, hlist⟩
    · rw [h.loose.parent?_tops x htop] at hm
      cases hm
    · obtain rfl := Option.some.inj (hparent.symm.trans hm)
      exact hlist

theorem Depicts.nodup_children (h : a.Depicts p) (m : Nat) : (a.children m).Nodup := by
  obtain ⟨hbody, hloose, -⟩ := h.numbered.sides
  rcases Nat.eq_zero_or_pos m with rfl | hpos
  · rw [h.children_zero]
    exact hbody.sublist ((Forest.tops_sublist p.body).map _)
  · rcases Nat.lt_or_ge m a.size with hlt | hge
    · exact h.forall_node (P := fun m => (a.children m).Nodup) (h.body.nodup_children hbody)
        (h.loose.nodup_children hloose) m hpos hlt
    · rw [children, List.getElem?_eq_none_iff.2 hge]
      exact .nil

/-- **The links of an arena that depicts a page** are those of a forest. -/
theorem Depicts.isForest (h : a.Depicts p) : a.IsForest := by
  refine ⟨⟨lt_size_of_slot h.root, h.parent?_zero⟩, fun m n hn => ?_, fun m n => ?_⟩
  · exact h.forall_node (P := fun n => ∀ m, a.parent? n = some m → m < n) h.body.parent?_lt h.loose.parent?_lt n
      (h.pos_of_parent? hn) (lt_size_of_parent? hn) m hn
  · split
    · rename_i hn
      exact List.count_eq_one_of_mem (h.nodup_children m) (h.mem_children_of_parent? hn)
    · rename_i hn
      exact List.count_eq_zero_of_not_mem fun hmem => hn (h.parent?_of_mem_children hmem)

/-! ### Loops -/

/-- From all nodes of a forest one climbs where one climbs from the node above it. -/
theorem Holds.climbs (h : a.Holds parent f) (hpos : ∀ n ∈ f.preorder, 0 < n.ref) {b : Bool}
    (hb : a.Climbs parent b) : ∀ n ∈ f.preorder, a.Climbs (some n.ref) b := by
  induction f generalizing parent with
  | nil => exact fun _ hn => absurd hn List.not_mem_nil
  | cons n below after ihbelow ihafter =>
    obtain ⟨hslot, -, hbelow, hafter⟩ := h
    simp only [Forest.preorder_cons, List.mem_cons, List.mem_append] at hpos
    have hn : a.Climbs (some n.ref) b := .up (Nat.ne_of_gt (hpos n (.inl rfl))) hslot hb
    intro m hm
    simp only [Forest.preorder_cons, List.mem_cons, List.mem_append] at hm
    rcases hm with rfl | hm | hm
    · exact hn
    · exact ihbelow hbelow (fun m hm => hpos m (.inr (.inl hm))) hn m hm
    · exact ihafter hafter (fun m hm => hpos m (.inr (.inr hm))) hb m hm

/-- The walk over the topmost nodes of a forest passes all its nodes, in document order. -/
theorem Holds.collects (h : a.Holds parent f) : a.Collects (f.tops.map Node.ref) (f.preorder.map Node.ref) := by
  induction f generalizing parent with
  | nil => exact .nil
  | cons n below after ihbelow ihafter =>
    obtain ⟨hslot, -, hbelow, hafter⟩ := h
    rw [Forest.tops, Forest.preorder_cons, List.map_cons, List.map_cons, List.map_append]
    exact .cons hslot (ihbelow hbelow) (ihafter hafter)

/-- **The climb from a node ends**, and gets to the root from the nodes of the body. -/
theorem Depicts.climbs_iff (h : a.Depicts p) (hpos : 0 < n) (hn : n < a.size) (b : Bool) :
    a.Climbs (some n) b ↔ b = decide (n ∈ p.rooted) := by
  have hends : a.Climbs (some n) (decide (n ∈ p.rooted)) := by
    refine h.forall_node (P := fun n => a.Climbs (some n) (decide (n ∈ p.rooted)))
      (fun x hx => ?_) (fun x hx => ?_) n hpos hn
    · have hmem : x.ref ∈ p.rooted := List.mem_map_of_mem hx
      rw [decide_eq_true hmem]
      exact h.body.climbs (fun y hy => h.ref_pos y (List.mem_append_left _ hy)) .root x hx
    · have hnot : x.ref ∉ p.rooted := fun hmem =>
        h.numbered.sides.2.2 x.ref hmem x.ref (List.mem_map_of_mem hx) rfl
      rw [decide_eq_false hnot]
      exact h.loose.climbs (fun y hy => h.ref_pos y (List.mem_append_right _ hy)) .lost x hx
  exact ⟨fun hb => hb.unique hends, fun hb => hb ▸ hends⟩

/-- **The walk ends**, and passes the nodes of the body. -/
theorem Depicts.walks_iff (h : a.Depicts p) (out : List Nat) : a.Walks out ↔ out = p.rooted := by
  have hends : a.Walks p.rooted := by
    rw [Walks, h.children_zero]
    exact h.body.collects
  exact ⟨fun hout => hout.unique hends, fun hout => hout ▸ hends⟩

/-- **The nodes of the body** are those from which one climbs to the root. -/
theorem Depicts.mem_rooted_iff (h : a.Depicts p) : n ∈ p.rooted ↔ n ≠ 0 ∧ a.Climbs (some n) true := by
  constructor
  · intro hmem
    obtain ⟨hpos, hlt⟩ := (h.mem_refs n).1 (Page.mem_refs_of_rooted hmem)
    exact ⟨Nat.ne_of_gt hpos, (h.climbs_iff hpos hlt true).2 (decide_eq_true hmem).symm⟩
  · rintro ⟨hn, hclimbs⟩
    have hlt : n < a.size := by
      cases hclimbs with
      | root => exact absurd rfl hn
      | up _ hs _ => exact lt_size_of_slot hs
    exact of_decide_eq_true ((h.climbs_iff (Nat.pos_of_ne_zero hn) hlt true).1 hclimbs).symm

theorem Depicts.elementCount_eq (h : a.Depicts p) :
    p.elementCount = {n | n ≠ 0 ∧ a.Climbs (some n) true}.ncard := by
  have hset : {n | n ≠ 0 ∧ a.Climbs (some n) true} = ↑p.rooted.toFinset := by
    ext n
    rw [Finset.mem_coe, List.mem_toFinset, h.mem_rooted_iff]
    rfl
  have hnodup : p.rooted.Nodup := h.numbered.sides.1
  rw [hset, Set.ncard_coe_finset, List.toFinset_card_of_nodup hnodup, Page.length_rooted]

/-! ### What is above a node -/

theorem above_iff : a.Above m n ↔ ∃ x, a.parent? n = some x ∧ (m = x ∨ a.Above m x) := by
  rw [Above, Relation.TransGen.tail'_iff]
  refine exists_congr fun x => ?_
  rw [Relation.reflTransGen_iff_eq_or_transGen, and_comm, eq_comm (a := x)]

/-- **What is above a node** is in its line. -/
theorem Line.above_iff {ms : List Nat} (h : a.Line (a.parent? n) ms) : a.Above m n ↔ m ∈ ms := by
  generalize hparent : a.parent? n = parent at h
  induction h generalizing n with
  | nil =>
    rw [Arena.above_iff, hparent]
    simp
  | @cons x ms _ ih =>
    rw [Arena.above_iff, List.mem_cons, hparent]
    simp only [Option.some.injEq, exists_eq_left', ih rfl]

/-- The lines of the nodes of a forest are those that its walk gives, and what is above the forest. -/
theorem Holds.line (above : List Node) {base : List Nat} (h : a.Holds parent f)
    (hline : a.Line parent (above.map Node.ref ++ base)) :
    ∀ x ∈ f.withAncestors above, a.Line (a.parent? x.1.ref) (x.2.map Node.ref ++ base) := by
  induction f generalizing parent above with
  | nil => exact fun _ hx => absurd hx List.not_mem_nil
  | cons n below after ihbelow ihafter =>
    obtain ⟨hslot, -, hbelow, hafter⟩ := h
    have hn : a.parent? n.ref = parent := by
      rw [parent?, hslot]
      rfl
    intro x hx
    simp only [Forest.withAncestors, List.mem_cons, List.mem_append] at hx
    rcases hx with rfl | hx | hx
    · rw [hn]
      exact hline
    · refine ihbelow (n :: above) hbelow ?_ x hx
      exact .cons (hn ▸ hline)
    · exact ihafter above hafter hline x hx

/-- The line of a node of the body goes up to the root. -/
theorem Depicts.line (h : a.Depicts p) {x : Node × List Node} (hx : x ∈ p.body.withAncestors []) :
    a.Line (a.parent? x.1.ref) (x.2.map Node.ref ++ [0]) :=
  h.body.line [] (.cons (h.parent?_zero ▸ .nil)) x hx

end Arena

/-- What is above a node in a forest comes before it. -/
theorem Forest.sublist_of_mem_above {α : Type} (f : Forest α) (above : List α) :
    ∀ x ∈ f.withAncestors above, ∀ b ∈ x.2, b ∈ above ∨ [b, x.1].Sublist f.preorder := by
  induction f generalizing above with
  | nil => exact fun _ hx => absurd hx List.not_mem_nil
  | cons c below after ihbelow ihafter =>
    intro x hx b hb
    simp only [withAncestors, List.mem_cons, List.mem_append] at hx
    rcases hx with rfl | hx | hx
    · exact .inl hb
    · have hmem : x.1 ∈ below.preorder := by
        rw [← preorder_withAncestors (c :: above) below]
        exact List.mem_map_of_mem hx
      rcases ihbelow _ x hx b hb with hmem' | hsub
      · rcases List.mem_cons.1 hmem' with rfl | hb'
        · exact .inr ((List.singleton_sublist.2 (List.mem_append_left _ hmem)).cons_cons b)
        · exact .inl hb'
      · exact .inr ((hsub.trans (List.sublist_append_left _ _)).cons c)
    · rcases ihafter _ x hx b hb with hb' | hsub
      · exact .inl hb'
      · exact .inr ((hsub.trans (List.sublist_append_right _ _)).cons c)

namespace Arena

variable {a : Arena} {p : Page} {m n : Nat}

/-- **What is above a node comes before it** in the walk. -/
theorem Depicts.sublist_of_above (h : a.Depicts p) (habove : a.Above m n) (hm : m ≠ 0)
    (hn : n ∈ p.rooted) : [m, n].Sublist p.rooted := by
  rw [Page.rooted, ← Forest.preorder_withAncestors [] p.body, List.map_map] at hn
  obtain ⟨x, hx, rfl⟩ := List.mem_map.1 hn
  rcases List.mem_append.1 ((h.line hx).above_iff.1 habove) with hmem | hzero
  · obtain ⟨y, hy, rfl⟩ := List.mem_map.1 hmem
    rcases p.body.sublist_of_mem_above [] x hx y hy with hnil | hsub
    · exact absurd hnil List.not_mem_nil
    · exact hsub.map Node.ref
  · exact absurd (List.mem_singleton.1 hzero) hm

theorem Backs.loosens {a' : Arena} {p' : Page} (h : a.Backs p)
    (hsteps : Relation.ReflTransGen Step (a, p) (a', p')) : a.Loosens a' := by
  have hall : ∀ x, Relation.ReflTransGen Step (a, p) x → x.1.Backs x.2 ∧ a.Loosens x.1 := by
    intro x hx
    induction hx with
    | refl => exact ⟨h, .refl a⟩
    | tail _ hstep ih => exact ⟨ih.1.step hstep, ih.2.trans (ih.1.depicts.loosens hstep)⟩
  exact (hall _ hsteps).2

end Arena

open Arena in
/-- **Arenas are forests, whatever was done to a page**, from a new one or one that was made from a snapshot on. The
root has no parent, every other parent is older than its children, and each node stands once in the list of its parent
and in no other list. Whatever is done later, a link may be cut and is never made again, and what has lost the root does
not come back. The climb to the root ends from every node, and so does the walk down from the root. The walk passes just
the nodes from which one climbs to the root, each once and after all that is above it; and these are the elements in the
body of the page, which are counted. -/
theorem arena_well_linked {a : Arena} {p : Page} (h : a.Backs p) :
    a.IsForest ∧
    (∀ a' p', Relation.ReflTransGen Step (a, p) (a', p') →
      (∀ n < a.size, a'.parent? n = a.parent? n ∨ a'.parent? n = none) ∧
      ∀ n, a.Climbs (some n) false → a'.Climbs (some n) false) ∧
    ∃ walk, (∀ out, a.Walks out ↔ out = walk) ∧ walk.Nodup ∧
      (∀ n, 0 < n → n < a.size → ∀ b, a.Climbs (some n) b ↔ b = decide (n ∈ walk)) ∧
      (∀ m n, a.Above m n → m ≠ 0 → n ∈ walk → [m, n].Sublist walk) ∧
      walk = p.rooted ∧ (∀ n, p.isConnected n = decide (n ∈ walk)) ∧
      p.elementCount = {n | n ≠ 0 ∧ a.Climbs (some n) true}.ncard := by
  have hdepicts := h.depicts
  refine ⟨hdepicts.isForest, fun a' p' hsteps => ?_, p.rooted, hdepicts.walks_iff,
    hdepicts.numbered.sides.1, fun n hpos hlt => hdepicts.climbs_iff hpos hlt,
    fun m n habove hm hn => hdepicts.sublist_of_above habove hm hn, rfl, fun n => ?_, hdepicts.elementCount_eq⟩
  · have hloosens := h.loosens hsteps
    exact ⟨hloosens.parent, fun n hn => hloosens.climbs hn⟩
  · rw [Bool.eq_iff_iff, decide_eq_true_iff, Page.isConnected, List.any_eq_true, Page.rooted, List.mem_map]
    simp only [beq_iff_eq]
    rfl

open Arena

def plain : Element := .ofTag "div" []

/-- Three elements below each other and one beside them. The second was taken away, and then, from below it, the third
with an element that it had got meanwhile. -/
def tornArena : Arena :=
  ((((((Arena.new.append 0 plain).append 1 plain).append 2 plain).append 0 plain).remove 2).append 3 plain).remove 3

def tornPage : Page :=
  let p := ((Page.new "shop.example").append (place 0) plain).1
  let p := (((p.append (place 1) plain).1.append (place 2) plain).1.append (place 0) plain).1
  ((p.remove 2).append (place 3) plain).1.remove 3

theorem backs_torn : tornArena.Backs tornPage := by
  have h₁ := (Backs.new "shop.example").step (.append (m := 0) (by decide) plain)
  have h₂ := h₁.step (.append (m := 1) (by decide) plain)
  have h₃ := h₂.step (.append (m := 2) (by decide) plain)
  have h₄ := h₃.step (.append (m := 0) (by decide) plain)
  have h₅ := (h₄.step (.remove _ _ 2)).step (.append (m := 3) (by decide) plain)
  exact h₅.step (.remove _ _ 3)

theorem arena_well_linked_torn : tornArena.IsForest ∧ tornArena.Walks [1, 4] ∧ tornPage.elementCount = 2 ∧
    tornArena.parent? 5 = some 3 ∧ tornArena.Climbs (some 5) false := by
  obtain ⟨hforest, -, walk, hwalks, -, hclimbs, -, hwalk, -⟩ := arena_well_linked backs_torn
  have htwo : walk = [1, 4] := hwalk.trans (by decide)
  refine ⟨hforest, (hwalks _).2 htwo.symm, by decide, by decide, (hclimbs 5 (by decide) (by decide) false).2 ?_⟩
  rw [htwo]
  decide

end PageSweep
