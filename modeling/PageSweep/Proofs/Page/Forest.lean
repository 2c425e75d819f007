import Mathlib.Tactic.Common
import PageSweep.Page.Snapshot

/-!
# Laws of forests

Relabelling goes through cutting and through the walk with ancestors, numbering keeps the labels, and a
forest is known from its shape and the row of its labels. Of the nodes below a node, cutting keeps some, in
their order.

* `map_cut`, `map_withAncestors`: relabelling and cutting, and the walk.
* `withAncestors_cut`: the walk through what cutting leaves.
* `eq_of_map_eq`: a forest from its shape with part of the labels, and the rest in document order.
* `preorder_cutBelow_perm`, `preorder_addBelow_perm`: which nodes there are afterwards.
* `children_cut`: the children of a node after cutting.
* `tops_cut_off`, `tops_cutBelow_off`: the roots of what was cut off.
-/

namespace PageSweep.Forest

variable {α β γ : Type}

/-! ### Relabelling -/

theorem map_congr {h g : α → β} {f : Forest α} (hg : ∀ a ∈ f.preorder, h a = g a) : f.map h = f.map g := by
  induction f with
  | nil => rfl
  | cons a below after ih1 ih2 =>
    simp only [preorder_cons, List.mem_cons, List.mem_append] at hg
    rw [map, map, hg a (.inl rfl), ih1 fun b hb => hg b (.inr (.inl hb)),
      ih2 fun b hb => hg b (.inr (.inr hb))]

/-- Relabelling nothing. -/
theorem map_eq_self {h : α → α} {f : Forest α} (hf : ∀ a ∈ f.preorder, h a = a) : f.map h = f := by
  induction f with
  | nil => rfl
  | cons a below after ih1 ih2 =>
    simp only [preorder_cons, List.mem_cons, List.mem_append] at hf
    rw [map, hf a (.inl rfl), ih1 fun b hb => hf b (.inr (.inl hb)), ih2 fun b hb => hf b (.inr (.inr hb))]

theorem map_append (h : α → β) (f g : Forest α) : (f.append g).map h = (f.map h).append (g.map h) := by
  induction f with
  | nil => rfl
  | cons a below after _ ih => simp [append, map, ih]

theorem cut_congr {p q : α → Bool} {f : Forest α} (hp : ∀ a ∈ f.preorder, p a = q a) :
    f.cut p = f.cut q := by
  induction f with
  | nil => rfl
  | cons a below after ih1 ih2 =>
    simp only [preorder_cons, List.mem_cons, List.mem_append] at hp
    simp only [cut]
    rw [hp a (.inl rfl), ih1 fun b hb => hp b (.inr (.inl hb)), ih2 fun b hb => hp b (.inr (.inr hb))]

theorem map_cut (h : α → β) (p : β → Bool) (f : Forest α) :
    (f.map h).cut p = ((f.cut (p ∘ h)).1.map h, (f.cut (p ∘ h)).2.map h) := by
  induction f with
  | nil => rfl
  | cons a below after ih1 ih2 =>
    by_cases hp : p (h a)
    · simp [map, cut, ih2, hp]
    · simp [map, cut, ih1, ih2, hp, map_append]

theorem map_withAncestors (h : α → β) (above : List α) (f : Forest α) :
    (f.map h).withAncestors (above.map h) =
      (f.withAncestors above).map fun n => (h n.1, n.2.map h) := by
  induction f generalizing above with
  | nil => rfl
  | cons a below after ih1 ih2 =>
    have h1 := ih1 (a :: above)
    rw [List.map_cons] at h1
    simp [map, withAncestors, h1, ih2]

/-- What is above a forest is above each of its nodes. -/
theorem mem_above {above : List α} {f : Forest α} {b : α} (hb : b ∈ above) :
    ∀ n ∈ f.withAncestors above, b ∈ n.2 := by
  induction f generalizing above with
  | nil => simp [withAncestors]
  | cons a below after ih1 ih2 =>
    intro n hn
    simp only [withAncestors, List.mem_cons, List.mem_append] at hn
    rcases hn with rfl | hn | hn
    · exact hb
    · exact ih1 (List.mem_cons_of_mem a hb) n hn
    · exact ih2 hb n hn

/-- **What stays after cutting keeps what is above it**, and stays just if nothing in that line was cut. -/
theorem withAncestors_cut (p : α → Bool) (f : Forest α) {above : List α}
    (habove : ∀ a ∈ above, p a = false) :
    (f.cut p).1.withAncestors above =
      (f.withAncestors above).filter fun n => !p n.1 && n.2.all (!p ·) := by
  induction f generalizing above with
  | nil => rfl
  | cons a below after ih1 ih2 =>
    by_cases ha : p a = true
    · -- All that is below was cut off with the node.
      have hbelow : (below.withAncestors (a :: above)).filter (fun n => !p n.1 && n.2.all (!p ·)) = [] := by
        rw [List.filter_eq_nil_iff]
        intro n hn hstays
        rw [Bool.and_eq_true, List.all_eq_true] at hstays
        have hclear := hstays.2 a (mem_above List.mem_cons_self n hn)
        rw [ha] at hclear
        cases hclear
      simp only [cut, ha, if_true, withAncestors, List.filter_cons, List.filter_append, hbelow]
      exact ih2 habove
    · rw [Bool.not_eq_true] at ha
      have habove' : ∀ b ∈ a :: above, p b = false := by
        intro b hb
        rcases List.mem_cons.1 hb with rfl | hb
        · exact ha
        · exact habove b hb
      have hclear : above.all (!p ·) = true := by
        rw [List.all_eq_true]
        intro b hb
        rw [habove b hb]
        rfl
      simp [cut, ha, withAncestors, hclear, ih1 habove', ih2 habove]

/-- Numbering keeps the labels. -/
theorem map_snd_numberFrom (n : Nat) (f : Forest α) : (f.numberFrom n).1.map (·.2) = f := by
  induction f generalizing n with
  | nil => rfl
  | cons a below after ih1 ih2 => simp [numberFrom, map, ih1, ih2]

/-- **A forest is known from its shape with a part of the labels, and the rest in document order.** -/
theorem eq_of_map_eq {h : α → β} {g : α → γ} (hhg : ∀ a b, h a = h b → g a = g b → a = b)
    {f f' : Forest α} (hm : f.map h = f'.map h) (hp : f.preorder.map g = f'.preorder.map g) : f = f' := by
  induction f generalizing f' with
  | nil =>
    cases f' with
    | nil => rfl
    | cons _ _ _ => simp [map] at hm
  | cons a below after ih1 ih2 =>
    cases f' with
    | nil => simp [map] at hm
    | cons a' below' after' =>
      simp only [map, cons.injEq] at hm
      obtain ⟨ha, hbelow, hafter⟩ := hm
      -- Both rows split at the same place, since the forests below are of one shape.
      have hlen : (below.preorder.map g).length = (below'.preorder.map g).length := by
        have := congrArg (fun f => f.preorder.length) hbelow
        simpa using this
      simp only [preorder_cons, List.map_cons, List.map_append, List.cons.injEq] at hp
      obtain ⟨hga, hrest⟩ := hp
      obtain ⟨h1, h2⟩ := List.append_inj hrest hlen
      rw [hhg a a' ha hga, ih1 hbelow h1, ih2 hafter h2]

/-! ### Which nodes there are -/

theorem preorder_cut_sublist (p : α → Bool) (f : Forest α) :
    (f.cut p).1.preorder.Sublist f.preorder := by
  induction f with
  | nil => exact .slnil
  | cons a below after ih1 ih2 =>
    by_cases hp : p a
    · simp only [cut, hp, if_true, preorder_cons]
      exact (ih2.trans (List.sublist_append_right _ _)).cons a
    · simp only [cut, hp, Bool.false_eq_true, if_false, preorder_cons]
      exact (ih1.append ih2).cons_cons a

theorem preorder_cutBelow_perm (p : α → Bool) (f : Forest α) :
    ((f.cutBelow p).1.preorder ++ (f.cutBelow p).2.preorder).Perm f.preorder := by
  classical
  induction f with
  | nil => simp [cutBelow]
  | cons a below after _ ih =>
    refine List.perm_iff_count.2 fun b => ?_
    have h1 := (preorder_cut_perm p below).count_eq b
    have h2 := ih.count_eq b
    simp only [cutBelow, preorder_cons, preorder_append, List.cons_append, List.count_cons,
      List.count_append] at h1 h2 ⊢
    omega

/-- A tree is put once below each node with a property. -/
theorem preorder_addBelow_perm (p : α → Bool) (x : α) (f : Forest α) :
    (addBelow p (tree x nil) f).preorder.Perm (f.preorder ++ List.replicate (f.preorder.countP p) x) := by
  classical
  induction f with
  | nil => simp [addBelow]
  | cons a below after ih1 ih2 =>
    refine List.perm_iff_count.2 fun b => ?_
    have h1 := ih1.count_eq b
    have h2 := ih2.count_eq b
    by_cases hp : p a
    · simp only [addBelow, hp, if_true, tree, preorder_cons, preorder_append, preorder_nil,
        List.append_nil, List.cons_append, List.count_cons, List.count_append, List.countP_cons,
        List.countP_append, List.count_replicate, List.count_nil] at h1 h2 ⊢
      by_cases hx : x = b <;> simp [hx] at h1 h2 ⊢ <;> omega
    · simp only [addBelow, hp, Bool.false_eq_true, if_false, tree, preorder_cons,
        List.cons_append, List.count_cons, List.count_append, List.countP_cons, List.countP_append,
        List.count_replicate] at h1 h2 ⊢
      by_cases hx : x = b <;> simp [hx] at h1 h2 ⊢ <;> omega

/-! ### Children -/

/-- The labels of the topmost nodes. -/
def tops : Forest α → List α
  | nil => []
  | cons a _ after => a :: after.tops

/-- The labels right below the nodes with a property. -/
def children (p : α → Bool) : Forest α → List α
  | nil => []
  | cons a below after =>
    (if p a then below.tops else []) ++ (below.children p ++ after.children p)

theorem tops_map (h : α → β) (f : Forest α) : (f.map h).tops = f.tops.map h := by
  induction f with
  | nil => rfl
  | cons a below after _ ih => simp [map, tops, ih]

theorem children_map (h : α → β) (p : β → Bool) (f : Forest α) :
    (f.map h).children p = (f.children (p ∘ h)).map h := by
  induction f with
  | nil => rfl
  | cons a below after ih1 ih2 =>
    by_cases hp : p (h a) <;> simp [map, children, hp, ih1, ih2, tops_map]

theorem children_append (p : α → Bool) (f g : Forest α) :
    (f.append g).children p = f.children p ++ g.children p := by
  induction f with
  | nil => rfl
  | cons a below after _ ih => simp [append, children, ih]

theorem children_eq_nil {p : α → Bool} {f : Forest α} (h : ∀ a ∈ f.preorder, p a = false) :
    f.children p = [] := by
  induction f with
  | nil => rfl
  | cons a below after ih1 ih2 =>
    simp only [preorder_cons, List.mem_cons, List.mem_append] at h
    rw [children, h a (.inl rfl), ih1 fun b hb => h b (.inr (.inl hb)),
      ih2 fun b hb => h b (.inr (.inr hb))]
    rfl

/-- What is cut off of the topmost nodes is gone from their row, and nothing else. -/
theorem tops_cut (q : α → Bool) (f : Forest α) : (f.cut q).1.tops.Sublist f.tops := by
  induction f with
  | nil => exact .slnil
  | cons a below after _ ih =>
    by_cases hq : q a
    · simp only [cut, hq, if_true, tops]
      exact ih.cons a
    · simp only [cut, hq, Bool.false_eq_true, if_false, tops]
      exact ih.cons_cons a

theorem tops_append (f g : Forest α) : (f.append g).tops = f.tops ++ g.tops := by
  induction f with
  | nil => rfl
  | cons a below after _ ih => simp [append, tops, ih]

theorem tops_sublist (f : Forest α) : f.tops.Sublist f.preorder := by
  induction f with
  | nil => exact .slnil
  | cons a below after _ ih => exact (ih.trans (List.sublist_append_right _ _)).cons_cons a

/-- What was cut is not among what stays. -/
theorem not_of_mem_cut (q : α → Bool) (f : Forest α) : ∀ a ∈ (f.cut q).1.preorder, q a = false := by
  induction f with
  | nil => simp [cut]
  | cons a below after ih1 ih2 =>
    by_cases hq : q a
    · simpa only [cut, hq, if_true] using ih2
    · intro b hb
      simp only [cut, hq, Bool.false_eq_true, if_false, preorder_cons, List.mem_cons,
        List.mem_append] at hb
      rcases hb with rfl | hb | hb
      · simpa using hq
      · exact ih1 b hb
      · exact ih2 b hb

/-- **The one node that is cut off** is the topmost one of what is off. -/
theorem tops_cut_off (q : α → Bool) (f : Forest α) (hf : f.preorder.countP q ≤ 1) :
    (f.cut q).2.tops = f.preorder.filter q := by
  induction f with
  | nil => rfl
  | cons a below after ih1 ih2 =>
    simp only [preorder_cons, List.countP_cons, List.countP_append] at hf
    by_cases hq : q a
    · -- The node is here, so it is not below.
      rw [if_pos hq] at hf
      have hbelow : below.preorder.filter q = [] :=
        List.filter_eq_nil_iff.2 (List.countP_eq_zero.1 (show below.preorder.countP q = 0 by omega))
      simp [cut, hq, tops, ih2 (by omega), hbelow]
    · simp [cut, hq, tops_append, ih1 (by omega), ih2 (by omega)]

theorem tops_cutBelow (q : α → Bool) (f : Forest α) : (f.cutBelow q).1.tops = f.tops := by
  induction f with
  | nil => rfl
  | cons a below after _ ih => simp [cutBelow, tops, ih]

/-- The same below the topmost trees only, if the node is none of their roots. -/
theorem tops_cutBelow_off (q : α → Bool) (f : Forest α) (hf : f.preorder.countP q ≤ 1)
    (htop : ∀ a ∈ f.tops, q a = false) : (f.cutBelow q).2.tops = f.preorder.filter q := by
  induction f with
  | nil => rfl
  | cons a below after _ ih =>
    simp only [preorder_cons, List.countP_cons, List.countP_append] at hf
    have hq : q a = false := htop a List.mem_cons_self
    have hafter := ih (by omega) fun b hb => htop b (List.mem_cons_of_mem _ hb)
    simp [cutBelow, hq, tops_append, tops_cut_off q below (by omega), hafter]

/-- A node that is not there has no children on either side of a cut. -/
theorem children_cut_eq_nil {p : α → Bool} (q : α → Bool) {f : Forest α} (h : f.preorder.countP p = 0) :
    (f.cut q).1.children p = [] ∧ (f.cut q).2.children p = [] := by
  have hmem : ∀ a ∈ (f.cut q).1.preorder ++ (f.cut q).2.preorder, p a = false := by
    intro a ha
    simpa using List.countP_eq_zero.1 h a ((preorder_cut_perm q f).mem_iff.1 ha)
  exact ⟨children_eq_nil fun a ha => hmem a (List.mem_append_left _ ha),
    children_eq_nil fun a ha => hmem a (List.mem_append_right _ ha)⟩

/-- Rows that are split in two, put together part by part, one of them being empty. -/
theorem append_sublist_of_nil {k₁ o₁ k₂ o₂ l₁ l₂ : List α} (h₁ : (k₁ ++ o₁).Sublist l₁)
    (h₂ : (k₂ ++ o₂).Sublist l₂) (h : l₁ = [] ∨ l₂ = []) :
    ((k₁ ++ k₂) ++ (o₁ ++ o₂)).Sublist (l₁ ++ l₂) := by
  rcases h with rfl | rfl
  · obtain ⟨rfl, rfl⟩ := List.append_eq_nil_iff.1 (List.sublist_nil.1 h₁)
    simpa using h₂
  · obtain ⟨rfl, rfl⟩ := List.append_eq_nil_iff.1 (List.sublist_nil.1 h₂)
    simpa using h₁

/-- **Cutting keeps the children of a node in their order**, on whichever side they are then, if the node is
there but once. -/
theorem children_cut (p q : α → Bool) (f : Forest α) (hf : f.preorder.countP p ≤ 1) :
    ((f.cut q).1.children p ++ (f.cut q).2.children p).Sublist (f.children p) := by
  induction f with
  | nil => exact .slnil
  | cons a below after ih1 ih2 =>
    simp only [preorder_cons, List.countP_cons, List.countP_append] at hf
    have h1 := ih1 (by omega)
    have h2 := ih2 (by omega)
    by_cases hp : p a
    · -- The node is here, so it is nowhere else.
      rw [if_pos hp] at hf
      obtain ⟨k1, o1⟩ := children_cut_eq_nil q (show below.preorder.countP p = 0 by omega)
      obtain ⟨k2, o2⟩ := children_cut_eq_nil q (show after.preorder.countP p = 0 by omega)
      by_cases hq : q a
      · simp [cut, hq, children, hp, k2, o2]
      · simpa [cut, hq, children, hp, k1, k2, o1, o2, children_append] using
          (tops_cut q below).trans (List.sublist_append_left _ _)
    · have hnil : below.children p = [] ∨ after.children p = [] := by
        rcases Nat.eq_zero_or_pos (below.preorder.countP p) with h | h
        · exact .inl (children_eq_nil fun b hb => by simpa using List.countP_eq_zero.1 h b hb)
        · have h0 : after.preorder.countP p = 0 := by omega
          exact .inr (children_eq_nil fun b hb => by simpa using List.countP_eq_zero.1 h0 b hb)
      by_cases hq : q a
      · simp only [cut, hq, if_true, children, hp, Bool.false_eq_true, if_false, List.nil_append]
        have h1' : ([] ++ below.children p).Sublist (below.children p) := .refl _
        exact append_sublist_of_nil h1' h2 hnil
      · simp only [cut, hq, Bool.false_eq_true, if_false, children, hp, List.nil_append, children_append]
        exact append_sublist_of_nil h1 h2 hnil

/-- The same below the topmost trees only. -/
theorem children_cutBelow (p q : α → Bool) (f : Forest α) (hf : f.preorder.countP p ≤ 1) :
    ((f.cutBelow q).1.children p ++ (f.cutBelow q).2.children p).Sublist (f.children p) := by
  induction f with
  | nil => exact .slnil
  | cons a below after _ ih =>
    simp only [preorder_cons, List.countP_cons, List.countP_append] at hf
    have h1 := children_cut p q below (by omega)
    have h2 := ih (by omega)
    simp only [cutBelow, children, children_append]
    by_cases hp : p a
    · rw [if_pos hp] at hf
      have hb : ∀ b ∈ below.preorder, p b = false := fun b hb => by
        simpa using List.countP_eq_zero.1 (show below.preorder.countP p = 0 by omega) b hb
      have ha : ∀ b ∈ after.preorder, p b = false := fun b hb => by
        simpa using List.countP_eq_zero.1 (show after.preorder.countP p = 0 by omega) b hb
      rw [children_eq_nil hb] at h1 ⊢
      rw [children_eq_nil ha] at h2 ⊢
      obtain ⟨k1, o1⟩ := List.append_eq_nil_iff.1 (List.sublist_nil.1 h1)
      obtain ⟨k2, o2⟩ := List.append_eq_nil_iff.1 (List.sublist_nil.1 h2)
      simpa [hp, k1, k2, o1, o2] using tops_cut q below
    · have hnil : below.children p = [] ∨ after.children p = [] := by
        rcases Nat.eq_zero_or_pos (below.preorder.countP p) with h | h
        · exact .inl (children_eq_nil fun b hb => by simpa using List.countP_eq_zero.1 h b hb)
        · have h0 : after.preorder.countP p = 0 := by omega
          exact .inr (children_eq_nil fun b hb => by simpa using List.countP_eq_zero.1 h0 b hb)
      simpa [hp] using append_sublist_of_nil h1 h2 hnil

end PageSweep.Forest
