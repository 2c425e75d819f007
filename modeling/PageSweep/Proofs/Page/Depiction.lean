import PageSweep.Proofs.Page.Arena
import PageSweep.Proofs.Page.Numbered

/-!
# Forests in an arena

An arena holds a forest if its slots are those that the forest gives: the lists of children are the rows of topmost
nodes, and the nodes above them are their parents. A forest has each link once, so both ends of a link in the arena
agree.

* `Holds.addBelow`, `Holds.cut`, `Holds.update`: a new node, links that are cut, a changed element.
* `Holds.parent?_of_mem_children`, `Holds.mem_children`: both ends of a link.
* `appendAll_spec`: what a snapshot holds, added to an arena.
-/

namespace PageSweep

namespace Forest

variable {α : Type}

theorem tops_addBelow (p : α → Bool) (new f : Forest α) : (addBelow p new f).tops = f.tops := by
  induction f with
  | nil => rfl
  | cons a below after _ ih => rw [addBelow, tops, tops, ih]

/-- Of the topmost nodes those stay that were not cut. -/
theorem tops_cut_eq (q : α → Bool) (f : Forest α) : (f.cut q).1.tops = f.tops.filter (!q ·) := by
  induction f with
  | nil => rfl
  | cons a below after _ ih =>
    by_cases hq : q a
    · simp [cut, hq, tops, ih]
    · simp [cut, hq, tops, ih]

end Forest

namespace Arena

/-- **An arena holds a forest below a node**, or below none: in the slot of each of its nodes stand the parent, which
was made before it, the topmost nodes of what is below it, and its element. -/
def Holds (a : Arena) (parent : Option Nat) : Forest Node → Prop
  | .nil => True
  | .cons n below after =>
    a.slots[n.ref]? = some ⟨parent, below.tops.map Node.ref, some n.element⟩ ∧ (∀ m ∈ parent, m < n.ref) ∧
      a.Holds (some n.ref) below ∧ a.Holds parent after

variable {a a' : Arena} {parent : Option Nat} {f g : Forest Node} {r : Nat}

/-- Only the slots of its own nodes matter. -/
theorem Holds.frame (h : a.Holds parent f) (hsame : ∀ n ∈ f.preorder, a'.slots[n.ref]? = a.slots[n.ref]?) :
    a'.Holds parent f := by
  induction f generalizing parent with
  | nil => trivial
  | cons n below after ihbelow ihafter =>
    obtain ⟨hslot, hlt, hbelow, hafter⟩ := h
    simp only [Forest.preorder_cons, List.mem_cons, List.mem_append] at hsame
    exact ⟨(hsame n (.inl rfl)).trans hslot, hlt, ihbelow hbelow fun m hm => hsame m (.inr (.inl hm)),
      ihafter hafter fun m hm => hsame m (.inr (.inr hm))⟩

theorem Holds.append (hf : a.Holds parent f) (hg : a.Holds parent g) : a.Holds parent (f.append g) := by
  induction f with
  | nil => exact hg
  | cons n below after _ ih =>
    obtain ⟨hslot, hlt, hbelow, hafter⟩ := hf
    exact ⟨hslot, hlt, hbelow, ih hafter⟩

/-- The nodes of a forest have slots. -/
theorem Holds.lt_size (h : a.Holds parent f) : ∀ n ∈ f.preorder, n.ref < a.size := by
  induction f generalizing parent with
  | nil => exact fun _ hn => absurd hn List.not_mem_nil
  | cons n below after ihbelow ihafter =>
    obtain ⟨hslot, -, hbelow, hafter⟩ := h
    intro m hm
    simp only [Forest.preorder_cons, List.mem_cons, List.mem_append] at hm
    rcases hm with rfl | hm | hm
    · exact lt_size_of_slot hslot
    · exact ihbelow hbelow m hm
    · exact ihafter hafter m hm

/-! ### Changing elements -/

theorem Holds.update (h : a.Holds parent f) (r : Nat) (change : Element → Element) :
    (a.update r change).Holds parent (f.map (Page.updated r change)) := by
  induction f generalizing parent with
  | nil => trivial
  | cons n below after ihbelow ihafter =>
    obtain ⟨hslot, hlt, hbelow, hafter⟩ := h
    have href : Node.ref ∘ Page.updated r change = Node.ref := funext (Page.updated_ref r change)
    have hself : (Page.updated r change n).ref = n.ref := Page.updated_ref r change n
    rw [Forest.map, Holds, hself]
    refine ⟨?_, hlt, ihbelow hbelow, ihafter hafter⟩
    rw [slots_update, hslot, Option.map_some, Forest.tops_map, List.map_map, href]
    by_cases hr : n.ref = r
    · simp [Page.updated, hr]
    · simp [Page.updated, hr, Ne.symm hr]

/-! ### New nodes -/

theorem holds_new (hr : r < a.size) (e : Element) :
    (a.append r e).Holds (some r) (.tree ⟨a.size, e⟩ .nil) := by
  refine ⟨slots_append_size hr e, ?_, trivial, trivial⟩
  rintro m hm
  obtain rfl := Option.some.inj hm
  exact hr

/-- **A new node comes last below its parent**, wherever that is in the forest. -/
theorem Holds.addBelow (h : a.Holds parent f) (hr : r < a.size) (e : Element) :
    (a.append r e).Holds parent (.addBelow (·.ref == r) (.tree ⟨a.size, e⟩ .nil) f) := by
  induction f generalizing parent with
  | nil => trivial
  | cons n below after ihbelow ihafter =>
    obtain ⟨hslot, hlt, hbelow, hafter⟩ := h
    have hslot' := slots_append (lt_size_of_slot hslot) r e
    rw [hslot, Option.map_some] at hslot'
    by_cases hn : n.ref = r
    · subst hn
      simp only [Forest.addBelow, beq_self_eq_true, if_true]
      refine ⟨?_, hlt, (ihbelow hbelow).append (holds_new hr e), ihafter hafter⟩
      rw [hslot', if_pos rfl, Forest.tops_append, Forest.tops_addBelow, List.map_append]
      rfl
    · simp only [Forest.addBelow, beq_eq_false_iff_ne.2 hn, Bool.false_eq_true, if_false]
      refine ⟨?_, hlt, ihbelow hbelow, ihafter hafter⟩
      rw [hslot', if_neg (Ne.symm hn), Forest.tops_addBelow]

/-- A new node below another one that is not in the forest. -/
theorem Holds.append_of_not_mem (h : a.Holds parent f) (e : Element) (hr : ∀ n ∈ f.preorder, n.ref ≠ r) :
    (a.append r e).Holds parent f := by
  refine h.frame fun n hn => ?_
  rw [slots_append (h.lt_size n hn)]
  simp [(hr n hn).symm]

/-! ### Nodes that are taken away -/

theorem map_filter_ref (ns : List Node) (r : Nat) :
    (ns.filter fun n => !(n.ref == r)).map Node.ref = (ns.map Node.ref).filter (· ≠ r) := by
  rw [List.filter_map]
  congr 1
  refine List.filter_congr fun n _ => ?_
  by_cases hn : n.ref = r <;> simp [hn]

theorem filter_tops_eq_self (hr : ∀ n ∈ f.preorder, n.ref ≠ r) :
    (f.tops.map Node.ref).filter (· ≠ r) = f.tops.map Node.ref := by
  rw [List.filter_eq_self]
  intro c hc
  obtain ⟨n, hn, rfl⟩ := List.mem_map.1 hc
  exact decide_eq_true (hr n ((Forest.tops_sublist f).subset hn))

/-- A forest that a node is not in stays when that node is cut off. -/
theorem Holds.cut_of_not_mem (h : a.Holds parent f) (hslots : ∀ n, a'.slots[n]? = a.slots[n]?.map (cutOff r n))
    (hr : ∀ n ∈ f.preorder, n.ref ≠ r) : a'.Holds parent f := by
  induction f generalizing parent with
  | nil => trivial
  | cons n below after ihbelow ihafter =>
    obtain ⟨hslot, hlt, hbelow, hafter⟩ := h
    simp only [Forest.preorder_cons, List.mem_cons, List.mem_append] at hr
    have hrbelow : ∀ m ∈ below.preorder, m.ref ≠ r := fun m hm => hr m (.inr (.inl hm))
    refine ⟨?_, hlt, ihbelow hbelow hrbelow, ihafter hafter fun m hm => hr m (.inr (.inr hm))⟩
    rw [hslots, hslot, Option.map_some, cutOff, if_neg (hr n (.inl rfl)), filter_tops_eq_self hrbelow]

/-- **Cutting a node off**: what stays is held below the same node, and what is off below none. -/
theorem Holds.cut (h : a.Holds parent f) (hslots : ∀ n, a'.slots[n]? = a.slots[n]?.map (cutOff r n))
    (hnodup : (f.preorder.map Node.ref).Nodup) :
    a'.Holds parent (f.cut (·.ref == r)).1 ∧ a'.Holds none (f.cut (·.ref == r)).2 := by
  induction f generalizing parent with
  | nil => exact ⟨trivial, trivial⟩
  | cons n below after ihbelow ihafter =>
    obtain ⟨hslot, hlt, hbelow, hafter⟩ := h
    rw [Forest.preorder_cons, List.map_cons, List.map_append, List.nodup_cons] at hnodup
    obtain ⟨hself, hrest⟩ := hnodup
    obtain ⟨hkept, hoff⟩ := ihafter hafter (List.nodup_append.1 hrest).2.1
    have hslot' := hslots n.ref
    rw [hslot, Option.map_some, cutOff] at hslot'
    by_cases hn : n.ref = r
    · -- The node is here, so nothing below it has its number.
      have hrbelow : ∀ m ∈ below.preorder, m.ref ≠ r := by
        rintro m hm rfl
        exact hself (List.mem_append_left _ (hn ▸ List.mem_map_of_mem hm))
      rw [if_pos hn, filter_tops_eq_self hrbelow] at hslot'
      simp only [Forest.cut, hn, beq_self_eq_true, if_true]
      exact ⟨hkept, hslot', fun m hm => absurd hm (by simp), hbelow.cut_of_not_mem hslots hrbelow, hoff⟩
    · obtain ⟨hkeptBelow, hoffBelow⟩ := ihbelow hbelow (List.nodup_append.1 hrest).1
      simp only [Forest.cut, beq_eq_false_iff_ne.2 hn, Bool.false_eq_true, if_false]
      refine ⟨⟨?_, hlt, hkeptBelow, hkept⟩, hoffBelow.append hoff⟩
      rw [hslot', if_neg hn, Forest.tops_cut_eq, map_filter_ref]

/-- The same where the topmost nodes lie loose already. -/
theorem Holds.cutBelow (h : a.Holds none f) (hslots : ∀ n, a'.slots[n]? = a.slots[n]?.map (cutOff r n))
    (hnodup : (f.preorder.map Node.ref).Nodup) :
    a'.Holds none (f.cutBelow (·.ref == r)).1 ∧ a'.Holds none (f.cutBelow (·.ref == r)).2 := by
  induction f with
  | nil => exact ⟨trivial, trivial⟩
  | cons n below after _ ih =>
    obtain ⟨hslot, hlt, hbelow, hafter⟩ := h
    rw [Forest.preorder_cons, List.map_cons, List.map_append, List.nodup_cons] at hnodup
    obtain ⟨hkept, hoff⟩ := ih hafter (List.nodup_append.1 hnodup.2).2.1
    obtain ⟨hkeptBelow, hoffBelow⟩ := hbelow.cut hslots (List.nodup_append.1 hnodup.2).1
    refine ⟨⟨?_, hlt, hkeptBelow, hkept⟩, hoffBelow.append hoff⟩
    rw [hslots, hslot, Option.map_some, cutOff, ite_self, Forest.tops_cut_eq, map_filter_ref]

/-! ### Links -/

/-- The topmost nodes have the parent that the forest is below. -/
theorem Holds.parent?_tops (h : a.Holds parent f) : ∀ n ∈ f.tops, a.parent? n.ref = parent := by
  induction f with
  | nil => exact fun _ hn => absurd hn List.not_mem_nil
  | cons n below after _ ih =>
    obtain ⟨hslot, -, -, hafter⟩ := h
    intro m hm
    rcases List.mem_cons.1 hm with rfl | hm
    · rw [parent?, hslot]
      rfl
    · exact ih hafter m hm

/-- **What stands in the list of a node has it as its parent.** -/
theorem Holds.parent?_of_mem_children (h : a.Holds parent f) :
    ∀ n ∈ f.preorder, ∀ c ∈ a.children n.ref, a.parent? c = some n.ref := by
  induction f generalizing parent with
  | nil => exact fun _ hn => absurd hn List.not_mem_nil
  | cons n below after ihbelow ihafter =>
    obtain ⟨hslot, -, hbelow, hafter⟩ := h
    intro m hm c hc
    simp only [Forest.preorder_cons, List.mem_cons, List.mem_append] at hm
    rcases hm with rfl | hm | hm
    · rw [children, hslot] at hc
      obtain ⟨t, ht, rfl⟩ := List.mem_map.1 hc
      exact hbelow.parent?_tops t ht
    · exact ihbelow hbelow m hm c hc
    · exact ihafter hafter m hm c hc

/-- **A node stands in the list of its parent**, unless the forest is below that. -/
theorem Holds.mem_children (h : a.Holds parent f) :
    ∀ n ∈ f.preorder, n ∈ f.tops ∨ ∃ m ∈ f.preorder, a.parent? n.ref = some m.ref ∧ n.ref ∈ a.children m.ref := by
  induction f generalizing parent with
  | nil => exact fun _ hn => absurd hn List.not_mem_nil
  | cons n below after ihbelow ihafter =>
    obtain ⟨hslot, -, hbelow, hafter⟩ := h
    intro m hm
    simp only [Forest.preorder_cons, List.mem_cons, List.mem_append] at hm ⊢
    rcases hm with rfl | hm | hm
    · exact .inl (List.mem_cons_self)
    · rcases ihbelow hbelow m hm with htop | ⟨x, hx, hparent, hlist⟩
      · refine .inr ⟨n, .inl rfl, hbelow.parent?_tops m htop, ?_⟩
        rw [children, hslot]
        exact List.mem_map_of_mem htop
      · exact .inr ⟨x, .inr (.inl hx), hparent, hlist⟩
    · rcases ihafter hafter m hm with htop | ⟨x, hx, hparent, hlist⟩
      · exact .inl (List.mem_cons_of_mem _ htop)
      · exact .inr ⟨x, .inr (.inr hx), hparent, hlist⟩

/-- A node was made after its parent. -/
theorem Holds.parent?_lt (h : a.Holds parent f) : ∀ n ∈ f.preorder, ∀ m, a.parent? n.ref = some m → m < n.ref := by
  induction f generalizing parent with
  | nil => exact fun _ hn => absurd hn List.not_mem_nil
  | cons n below after ihbelow ihafter =>
    obtain ⟨hslot, hlt, hbelow, hafter⟩ := h
    intro m hm x hx
    simp only [Forest.preorder_cons, List.mem_cons, List.mem_append] at hm
    rcases hm with rfl | hm | hm
    · rw [parent?, hslot] at hx
      exact hlt x hx
    · exact ihbelow hbelow m hm x hx
    · exact ihafter hafter m hm x hx

/-- No list has a number twice, if the nodes are told apart. -/
theorem Holds.nodup_children (h : a.Holds parent f) (hnodup : (f.preorder.map Node.ref).Nodup) :
    ∀ n ∈ f.preorder, (a.children n.ref).Nodup := by
  induction f generalizing parent with
  | nil => exact fun _ hn => absurd hn List.not_mem_nil
  | cons n below after ihbelow ihafter =>
    obtain ⟨hslot, -, hbelow, hafter⟩ := h
    rw [Forest.preorder_cons, List.map_cons, List.map_append, List.nodup_cons] at hnodup
    obtain ⟨hdbelow, hdafter, -⟩ := List.nodup_append.1 hnodup.2
    intro m hm
    simp only [Forest.preorder_cons, List.mem_cons, List.mem_append] at hm
    rcases hm with rfl | hm | hm
    · rw [children, hslot]
      exact hdbelow.sublist ((Forest.tops_sublist below).map _)
    · exact ihbelow hbelow hdbelow m hm
    · exact ihafter hafter hdafter m hm

/-! ### Snapshots -/

/-- What a snapshot holds, numbered as it comes. -/
def numbered (first : Nat) (specs : Forest ElementSpec) : Forest Node :=
  (specs.numberFrom first).1.map fun n => ⟨n.1, n.2.toElement⟩

theorem numbered_cons (first : Nat) (s : ElementSpec) (below after : Forest ElementSpec) :
    numbered first (.cons s below after) = .cons ⟨first, s.toElement⟩ (numbered (first + 1) below)
      (numbered (below.numberFrom (first + 1)).2 after) := rfl

theorem ref_of_mem_numbered {first : Nat} {specs : Forest ElementSpec} {x : Node}
    (hx : x ∈ (numbered first specs).preorder) : first ≤ x.ref ∧ x.ref < (specs.numberFrom first).2 := by
  obtain ⟨-, hnext, hnumbers⟩ := Forest.preorder_numberFrom first specs
  rw [numbered, Forest.preorder_map] at hx
  obtain ⟨y, hy, rfl⟩ := List.mem_map.1 hx
  have hmem : y.1 ∈ List.range' first specs.preorder.length := hnumbers ▸ List.mem_map_of_mem hy
  rw [hnext]
  exact List.mem_range'_1.1 hmem

/-- **What a snapshot holds, added below a node.** -/
theorem appendAll_spec (specs : Forest ElementSpec) {q : Nat} (hq : q < a.size) :
    (a.appendAll q specs).size = (specs.numberFrom a.size).2 ∧
      (∀ n < a.size, (a.appendAll q specs).slots[n]? = a.slots[n]?.map fun s =>
        if q = n then { s with children := s.children ++ (numbered a.size specs).tops.map Node.ref } else s) ∧
      (a.appendAll q specs).Holds (some q) (numbered a.size specs) := by
  induction specs generalizing a q with
  | nil =>
    refine ⟨rfl, fun n _ => ?_, trivial⟩
    cases hslot : a.slots[n]? with
    | none => simp [appendAll, hslot]
    | some s => simp [appendAll, hslot, numbered, Forest.numberFrom, Forest.map, Forest.tops]
  | cons s below after ihbelow ihafter =>
    -- First the element itself, then what is below it, then what comes after it.
    let a₁ := a.append q s.toElement
    let a₂ := a₁.appendAll a.size below
    have hsize₁ : a₁.size = a.size + 1 := size_append a q _
    obtain ⟨hsize₂, hslots₂, hbelow⟩ := ihbelow (a := a₁) (q := a.size) (by omega)
    rw [hsize₁] at hsize₂ hslots₂ hbelow
    have hnumber : (below.numberFrom (a.size + 1)).2 = a₂.size := hsize₂.symm
    have hlt₂ : a.size < a₂.size := by
      obtain ⟨-, hnext, -⟩ := Forest.preorder_numberFrom (a.size + 1) below
      omega
    obtain ⟨hsize₃, hslots₃, hafter⟩ := ihafter (a := a₂) (q := q) (by omega)
    simp only [numbered_cons, Forest.numberFrom, Forest.tops, List.map_cons, appendAll, hnumber, Holds]
    -- What was there first got its new children in two goes.
    refine ⟨hsize₃, fun n hn => ?_, ?_, ?_, hbelow.frame fun m hm => ?_, hafter⟩
    · rw [hslots₃ n (by omega), hslots₂ n (by omega), slots_append hn]
      cases a.slots[n]? with
      | none => rfl
      | some s =>
        have hne : a.size ≠ n := by omega
        by_cases hqn : q = n
        · simp [hqn, hne]
        · simp [hqn, hne]
    · rw [hslots₃ a.size (by omega), hslots₂ a.size (by omega), slots_append_size hq]
      simp [Nat.ne_of_lt hq]
    · intro m hm
      obtain rfl := Option.some.inj hm
      exact hq
    · obtain ⟨hge, hlt⟩ := ref_of_mem_numbered hm
      have hne : q ≠ m.ref := by omega
      rw [hslots₃ m.ref (by omega)]
      cases a₂.slots[m.ref]? <;> simp [hne]

end Arena

end PageSweep
