import Mathlib.Logic.Relation
import PageSweep.Proofs.Page.Depiction

/-!
# Pages and their arenas

A page and an arena go through the same operations. The arena depicts the page at first, and every operation keeps it
so: what is cut from a forest is cut at both ends of a link, and nothing else is.

* `Depicts.append`, `Depicts.remove`, `Depicts.update`: single operations.
* `Backs.depicts`: all that can be reached.
* `Depicts.loosens`: links are never made anew.
-/

namespace PageSweep

/-- **What is done to a page beside its elements**: to its path, cookies, stylesheets, and that it is loaded again. -/
inductive Page.Aside : Page → Page → Prop where
  | withPath (p : Page) (path : String) : Aside p (p.withPath path)
  | attachHead (p : Page) (attached : Bool) : Aside p { p with headAttached := attached }
  | insertCookie (p : Page) (c : Cookie) : Aside p { p with jar := p.jar.insert c }
  | setCookie (p : Page) (directive : String) (now : Instant) : Aside p (p.setCookie directive now)
  | openSheet {p : Page} {id : String} {s : StyleSheet} (hs : p.openSheet? id = some s) : Aside p (p.putSheet id s)
  | insertRule {p : Page} {id text : String} {index : Nat} {s s' : StyleSheet} (hs : p.openSheet? id = some s)
      (hs' : s.insertRule text index = .ok s') : Aside p (p.putSheet id s')
  | deleteRule {p : Page} {id : String} {index : Nat} {s s' : StyleSheet} (hs : p.openSheet? id = some s)
      (hs' : s.deleteRule index = .ok s') : Aside p (p.putSheet id s')
  | reload (p : Page) : Aside p p.reload

theorem Page.Aside.same {p q : Page} (h : p.Aside q) : q.body = p.body ∧ q.loose = p.loose ∧ q.next = p.next := by
  cases h <;> exact ⟨rfl, rfl, rfl⟩

namespace Arena

/-- The place for a new element below a node: the body is below the root. -/
def place (m : Nat) : Option Nat := if m = 0 then none else some m

/-- **An operation on a page, and the same one on its arena.** Elements are added below any node, also below one that
lies loose. -/
inductive Step : Arena × Page → Arena × Page → Prop where
  | append {a : Arena} {p : Page} {m : Nat} (hm : m < a.size) (e : Element) :
      Step (a, p) (a.append m e, (p.append (place m) e).1)
  | remove (a : Arena) (p : Page) (n : Nat) : Step (a, p) (a.remove n, p.remove n)
  | setStyle (a : Arena) (p : Page) (n : Nat) (property value : String) :
      Step (a, p) (a.update n (·.setStyle property value), p.setStyle n property value)
  | removeClass (a : Arena) (p : Page) (n : Nat) (className : String) :
      Step (a, p) (a.update n (·.removeClass className), p.removeClass n className)
  | click (a : Arena) {p q : Page} {n : Nat} (hq : p.click n = .ok q) : Step (a, p) (a.update n Element.click, q)
  | aside (a : Arena) {p q : Page} (h : p.Aside q) : Step (a, p) (a, q)

/-- **The arena of a page that can be reached**: both are new or made from a snapshot, and went through the same
operations. -/
inductive Backs : Arena → Page → Prop where
  | new (hostname : String) : Backs .new (.new hostname)
  | ofSnapshot (s : Snapshot) : Backs (Arena.new.appendAll 0 s.body) (Page.ofSnapshot s).1
  | step {a a' : Arena} {p p' : Page} (h : Backs a p) (hstep : Step (a, p) (a', p')) : Backs a' p'

/-- **The arena depicts the page**: its root holds the body, what lies loose is held by no node, and there is no other
slot. -/
structure Depicts (a : Arena) (p : Page) : Prop where
  next : p.next = a.size
  numbered : p.Numbered
  mem_refs : ∀ n, n ∈ p.refs ↔ 0 < n ∧ n < a.size
  root : a.slots[0]? = some ⟨none, p.body.tops.map Node.ref, none⟩
  body : a.Holds (some 0) p.body
  loose : a.Holds none p.loose

variable {a a' : Arena} {p p' : Page} {m n : Nat}

theorem mem_refs_iff : n ∈ p.refs ↔ ∃ x ∈ p.body.preorder ++ p.loose.preorder, x.ref = n := List.mem_map

/-- A node of the page is in one of the two forests that the arena holds. -/
theorem Depicts.forall_node (h : a.Depicts p) {P : Nat → Prop}
    (hbody : ∀ x ∈ p.body.preorder, P x.ref) (hloose : ∀ x ∈ p.loose.preorder, P x.ref) :
    ∀ n, 0 < n → n < a.size → P n := by
  intro n hpos hlt
  obtain ⟨x, hx, rfl⟩ := mem_refs_iff.1 ((h.mem_refs n).2 ⟨hpos, hlt⟩)
  exact (List.mem_append.1 hx).elim (hbody x) (hloose x)

/-- The root is none of the elements. -/
theorem Depicts.ref_pos (h : a.Depicts p) : ∀ x ∈ p.body.preorder ++ p.loose.preorder, 0 < x.ref :=
  fun x hx => ((h.mem_refs x.ref).1 (mem_refs_iff.2 ⟨x, hx, rfl⟩)).1

theorem Depicts.parent?_zero (h : a.Depicts p) : a.parent? 0 = none := by
  rw [parent?, h.root]
  rfl

theorem Depicts.children_zero (h : a.Depicts p) : a.children 0 = p.body.tops.map Node.ref := by
  rw [children, h.root]
  rfl

/-- **What stands in a list has the node of the list as its parent.** -/
theorem Depicts.parent?_of_mem_children (h : a.Depicts p) {c : Nat} (hc : c ∈ a.children m) :
    a.parent? c = some m := by
  rcases Nat.eq_zero_or_pos m with rfl | hpos
  · rw [h.children_zero] at hc
    obtain ⟨t, ht, rfl⟩ := List.mem_map.1 hc
    exact h.body.parent?_tops t ht
  · rcases Nat.lt_or_ge m a.size with hlt | hge
    · exact h.forall_node (P := fun m => ∀ c ∈ a.children m, a.parent? c = some m) h.body.parent?_of_mem_children
        h.loose.parent?_of_mem_children m hpos hlt c hc
    · rw [children, List.getElem?_eq_none_iff.2 hge] at hc
      exact absurd hc List.not_mem_nil

/-! ### Operations -/

/-- A tree put below the nodes of a number is there if one of them is. -/
theorem mem_addBelow {f : Forest Node} {new x : Node} :
    x ∈ (Forest.addBelow (·.ref == m) (.tree new .nil) f).preorder ↔
      x ∈ f.preorder ∨ x = new ∧ ∃ y ∈ f.preorder, y.ref = m := by
  rw [(Forest.preorder_addBelow_perm _ new f).mem_iff, List.mem_append, List.mem_replicate, ← Nat.pos_iff_ne_zero,
    List.countP_pos_iff, and_comm (b := x = new)]
  simp only [beq_iff_eq]

/-- Below the root. -/
theorem Depicts.append_zero (h : a.Depicts p) (e : Element) : (a.append 0 e).Depicts (p.append none e).1 := by
  have hsize : 0 < a.size := lt_size_of_slot h.root
  have hne : ∀ x ∈ p.body.preorder ++ p.loose.preorder, x.ref ≠ 0 := fun x hx => Nat.ne_of_gt (h.ref_pos x hx)
  have hnew : (p.append none e).1.body = p.body.append (.tree ⟨a.size, e⟩ .nil) := by rw [← h.next]; rfl
  refine ⟨?_, h.numbered.append none e, fun n => ?_, ?_, ?_, ?_⟩
  · rw [size_append, ← h.next]
    rfl
  · have hrefs : n ∈ (p.append none e).1.refs ↔ n ∈ p.refs ∨ n = a.size := by
      simp only [mem_refs_iff, hnew, List.mem_append, Forest.preorder_append, Forest.tree, Forest.preorder_cons,
        Forest.preorder_nil, List.append_nil, List.mem_singleton]
      constructor
      · rintro ⟨x, (hx | rfl) | hx, rfl⟩
        · exact .inl ⟨x, .inl hx, rfl⟩
        · exact .inr rfl
        · exact .inl ⟨x, .inr hx, rfl⟩
      · rintro (⟨x, hx | hx, rfl⟩ | rfl)
        · exact ⟨x, .inl (.inl hx), rfl⟩
        · exact ⟨x, .inr hx, rfl⟩
        · exact ⟨⟨a.size, e⟩, .inl (.inr rfl), rfl⟩
    rw [hrefs, h.mem_refs, size_append]
    omega
  · rw [slots_append hsize, h.root, Option.map_some, if_pos rfl, hnew, Forest.tops_append, List.map_append]
    rfl
  · rw [hnew]
    exact (h.body.append_of_not_mem e fun x hx => hne x (List.mem_append_left _ hx)).append (holds_new hsize e)
  · exact h.loose.append_of_not_mem e fun x hx => hne x (List.mem_append_right _ hx)

/-- Below an element. -/
theorem Depicts.append_pos (h : a.Depicts p) (hpos : 0 < m) (hm : m < a.size) (e : Element) :
    (a.append m e).Depicts (p.append (some m) e).1 := by
  have hsize : 0 < a.size := lt_size_of_slot h.root
  have hbody : (p.append (some m) e).1.body = .addBelow (·.ref == m) (.tree ⟨a.size, e⟩ .nil) p.body := by
    rw [← h.next]; rfl
  have hloose : (p.append (some m) e).1.loose = .addBelow (·.ref == m) (.tree ⟨a.size, e⟩ .nil) p.loose := by
    rw [← h.next]; rfl
  refine ⟨?_, h.numbered.append (some m) e, fun n => ?_, ?_, ?_, ?_⟩
  · rw [size_append, ← h.next]
    rfl
  · have hrefs : n ∈ (p.append (some m) e).1.refs ↔ n ∈ p.refs ∨ n = a.size := by
      simp only [mem_refs_iff, hbody, hloose, List.mem_append, mem_addBelow]
      constructor
      · rintro ⟨x, (hx | ⟨rfl, -⟩) | (hx | ⟨rfl, -⟩), rfl⟩
        · exact .inl ⟨x, .inl hx, rfl⟩
        · exact .inr rfl
        · exact .inl ⟨x, .inr hx, rfl⟩
        · exact .inr rfl
      · rintro (⟨x, hx | hx, rfl⟩ | rfl)
        · exact ⟨x, .inl (.inl hx), rfl⟩
        · exact ⟨x, .inr (.inl hx), rfl⟩
        · -- The parent is in one of the forests.
          obtain ⟨y, hy, hym⟩ := mem_refs_iff.1 ((h.mem_refs m).2 ⟨hpos, hm⟩)
          rcases List.mem_append.1 hy with hy | hy
          · exact ⟨⟨a.size, e⟩, .inl (.inr ⟨rfl, y, hy, hym⟩), rfl⟩
          · exact ⟨⟨a.size, e⟩, .inr (.inr ⟨rfl, y, hy, hym⟩), rfl⟩
    rw [hrefs, h.mem_refs, size_append]
    omega
  · rw [slots_append hsize, h.root, Option.map_some, if_neg (Nat.ne_of_gt hpos), hbody, Forest.tops_addBelow]
  · rw [hbody]
    exact h.body.addBelow hm e
  · rw [hloose]
    exact h.loose.addBelow hm e

theorem Depicts.append (h : a.Depicts p) (hm : m < a.size) (e : Element) :
    (a.append m e).Depicts (p.append (place m) e).1 := by
  rcases Nat.eq_zero_or_pos m with rfl | hpos
  · exact h.append_zero e
  · rw [place, if_neg (Nat.ne_of_gt hpos)]
    exact h.append_pos hpos hm e

/-- Taking a node away strikes its number from all lists. -/
theorem Depicts.slots_remove (h : a.Depicts p) (n m : Nat) :
    (a.remove n).slots[m]? = a.slots[m]?.map (cutOff n m) := by
  refine Arena.slots_remove (fun m s hs hn => h.parent?_of_mem_children ?_) h.parent?_zero m
  rw [children, hs]
  exact hn

theorem Depicts.remove (h : a.Depicts p) (n : Nat) : (a.remove n).Depicts (p.remove n) := by
  have hslots := h.slots_remove n
  obtain ⟨hnbody, hnloose, -⟩ := h.numbered.sides
  obtain ⟨hkept, hoff⟩ := h.body.cut hslots hnbody
  obtain ⟨hloose, hapart⟩ := h.loose.cutBelow hslots hnloose
  refine ⟨h.next.trans (size_remove a n).symm, h.numbered.remove n, fun m => ?_, ?_, hkept,
    (hloose.append hapart).append hoff⟩
  · rw [(Page.refs_remove p n).mem_iff, h.mem_refs, size_remove]
  · rw [hslots, h.root, Option.map_some, cutOff, ite_self, Page.remove, Forest.tops_cut_eq, map_filter_ref]

theorem Depicts.update (h : a.Depicts p) (n : Nat) (f : Element → Element) : (a.update n f).Depicts (p.update n f) := by
  have href : Node.ref ∘ Page.updated n f = Node.ref := funext (Page.updated_ref n f)
  refine ⟨h.next.trans (size_update a n f).symm, h.numbered.update n f, fun m => ?_, ?_, ?_, ?_⟩
  · rw [Page.refs_update, h.mem_refs, size_update]
  · rw [slots_update, h.root, Option.map_some, Page.body_update, Forest.tops_map, List.map_map, href]
    split <;> rfl
  · rw [Page.body_update]
    exact h.body.update n f
  · rw [Page.loose_update]
    exact h.loose.update n f

theorem Depicts.clicked (h : a.Depicts p) (n : Nat) : (a.update n Element.click).Depicts (p.clicked n) := by
  have hupdate := h.update n Element.click
  exact ⟨hupdate.next, h.numbered.clicked n, hupdate.mem_refs, hupdate.root, hupdate.body, hupdate.loose⟩

theorem Depicts.aside (h : a.Depicts p) (haside : p.Aside p') : a.Depicts p' := by
  obtain ⟨hbody, hloose, hnext⟩ := haside.same
  have hrefs : p'.refs = p.refs := by rw [Page.refs, Page.refs, Page.nodes, Page.nodes, hbody, hloose]
  exact ⟨hnext.trans h.next, h.numbered.of_perm (.of_eq hrefs) hnext, hrefs ▸ h.mem_refs, hbody ▸ h.root,
    hbody ▸ h.body, hloose ▸ h.loose⟩

/-- **Every operation keeps what is depicted.** -/
theorem Depicts.step (h : a.Depicts p) (hstep : Step (a, p) (a', p')) : a'.Depicts p' := by
  cases hstep with
  | append hm e => exact h.append hm e
  | remove _ _ n => exact h.remove n
  | setStyle _ _ n property value => exact h.update n _
  | removeClass _ _ n className => exact h.update n _
  | click _ hq =>
    obtain ⟨-, rfl⟩ := Page.click_eq_ok hq
    exact h.clicked _
  | aside _ haside => exact h.aside haside

/-! ### What can be reached -/

theorem depicts_new (hostname : String) : Arena.new.Depicts (.new hostname) := by
  refine ⟨rfl, Page.numbered_new hostname, fun n => ?_, rfl, trivial, trivial⟩
  have hnone : n ∉ (Page.new hostname).refs := List.not_mem_nil
  have hone : Arena.new.size = 1 := rfl
  simp only [hnone, false_iff]
  omega

/-- **An arena that is filled from a snapshot** depicts the page of the snapshot. -/
theorem depicts_ofSnapshot (s : Snapshot) : (Arena.new.appendAll 0 s.body).Depicts (Page.ofSnapshot s).1 := by
  have hone : Arena.new.size = 1 := rfl
  obtain ⟨hsize, hslots, hheld⟩ := appendAll_spec s.body (q := 0) (hone ▸ Nat.one_pos)
  obtain ⟨-, hnext, -⟩ := Forest.preorder_numberFrom 1 s.body
  refine ⟨hsize.symm, Page.numbered_ofSnapshot s, fun n => ?_, ?_, hheld, trivial⟩
  · rw [Page.refs_ofSnapshot, List.mem_range'_1, hsize, hone, hnext]
    omega
  · rw [hslots 0 (hone ▸ Nat.one_pos)]
    rfl

/-- **An arena depicts its page**, whatever was done to both. -/
theorem Backs.depicts (h : a.Backs p) : a.Depicts p := by
  induction h with
  | new hostname => exact depicts_new hostname
  | ofSnapshot s => exact depicts_ofSnapshot s
  | step _ hstep ih => exact ih.step hstep

theorem Depicts.loosens_remove (h : a.Depicts p) (n : Nat) : a.Loosens (a.remove n) := by
  refine ⟨Nat.le_of_eq (size_remove a n).symm, fun m _ => ?_⟩
  rw [parent?, h.slots_remove n m, parent?]
  cases a.slots[m]? with
  | none => exact .inl rfl
  | some s =>
    simp only [Option.map_some, Option.bind_some, cutOff]
    split
    · exact .inr rfl
    · exact .inl rfl

/-- **No operation makes a link anew**, but to a node that is new. -/
theorem Depicts.loosens (h : a.Depicts p) (hstep : Step (a, p) (a', p')) : a.Loosens a' := by
  cases hstep with
  | @append _ _ m hm e => exact loosens_append a m e
  | remove _ _ n => exact h.loosens_remove n
  | setStyle _ _ n property value => exact loosens_update a n _
  | removeClass _ _ n className => exact loosens_update a n _
  | click _ _ => exact loosens_update a _ _
  | aside _ _ => exact .refl a

end Arena

end PageSweep
