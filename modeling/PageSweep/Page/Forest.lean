/-!
# Forests

An ordered forest, written as first tree and further trees: a label, the forest below it, and the trees
that come after. No link is stored twice, so there is nothing that could disagree.

* `preorder_cut_perm`: cutting loses no node.
* `preorder_withAncestors`: the nodes with what is above them are the nodes in document order.
-/

namespace PageSweep

inductive Forest (α : Type) where
  | nil
  | cons (label : α) (below after : Forest α)
deriving DecidableEq, Repr, Inhabited

namespace Forest

variable {α β : Type}

/-- The labels in document order: a node before what is below it, that before what comes after. -/
def preorder : Forest α → List α
  | nil => []
  | cons a below after => a :: (below.preorder ++ after.preorder)

def size (f : Forest α) : Nat := f.preorder.length

/-- Puts trees after those of a forest. -/
def append : Forest α → Forest α → Forest α
  | nil, g => g
  | cons a below after, g => cons a below (after.append g)

def map (h : α → β) : Forest α → Forest β
  | nil => nil
  | cons a below after => cons (h a) (below.map h) (after.map h)

/-- One tree. -/
def tree (a : α) (below : Forest α) : Forest α := cons a below nil

/-- Cuts off the topmost nodes with a property, each with what is below it: what stays, and what is off. -/
def cut (p : α → Bool) : Forest α → Forest α × Forest α
  | nil => (nil, nil)
  | cons a below after =>
    let (kept, off) := after.cut p
    if p a then (kept, cons a below off)
    else
      let (keptBelow, offBelow) := below.cut p
      (cons a keptBelow kept, offBelow.append off)

/-- Cuts below the topmost trees only. -/
def cutBelow (p : α → Bool) : Forest α → Forest α × Forest α
  | nil => (nil, nil)
  | cons a below after =>
    let (kept, off) := after.cutBelow p
    let (keptBelow, offBelow) := below.cut p
    (cons a keptBelow kept, offBelow.append off)

/-- Puts trees last below every node with a property. -/
def addBelow (p : α → Bool) (new : Forest α) : Forest α → Forest α
  | nil => nil
  | cons a below after =>
    let new' := addBelow p new below
    cons a (if p a then new'.append new else new') (addBelow p new after)

/-- Each label with the labels above it, the nearest first, in document order. -/
def withAncestors (above : List α) : Forest α → List (α × List α)
  | nil => []
  | cons a below after => (a, above) :: (below.withAncestors (a :: above) ++ after.withAncestors above)

@[simp] theorem preorder_nil : (nil : Forest α).preorder = [] := rfl

@[simp] theorem preorder_cons (a : α) (below after : Forest α) :
    (cons a below after).preorder = a :: (below.preorder ++ after.preorder) := rfl

@[simp] theorem preorder_append (f g : Forest α) : (f.append g).preorder = f.preorder ++ g.preorder := by
  induction f with
  | nil => rfl
  | cons a below after _ ih => simp [append, ih]

@[simp] theorem preorder_map (h : α → β) (f : Forest α) : (f.map h).preorder = f.preorder.map h := by
  induction f with
  | nil => rfl
  | cons a below after ih1 ih2 => simp [map, ih1, ih2]

theorem map_map {γ : Type} (g : β → γ) (h : α → β) (f : Forest α) :
    (f.map h).map g = f.map (g ∘ h) := by
  induction f with
  | nil => rfl
  | cons a below after ih1 ih2 => simp [map, ih1, ih2]

theorem preorder_withAncestors (above : List α) (f : Forest α) :
    (f.withAncestors above).map (·.1) = f.preorder := by
  induction f generalizing above with
  | nil => rfl
  | cons a below after ih1 ih2 => simp [withAncestors, ih1, ih2]

/-- **Cutting loses no node.** -/
theorem preorder_cut_perm (p : α → Bool) (f : Forest α) :
    ((f.cut p).1.preorder ++ (f.cut p).2.preorder).Perm f.preorder := by
  induction f with
  | nil => simp [cut]
  | cons a below after ih1 ih2 =>
    by_cases h : p a
    · simp only [cut, h, if_true, preorder_cons]
      refine List.perm_middle.trans (.cons a ?_)
      rw [← List.append_assoc]
      refine (List.perm_append_comm.append_right _).trans ?_
      rw [List.append_assoc]
      exact .append_left _ ih2
    · simp only [cut, h, Bool.false_eq_true, if_false, preorder_cons, preorder_append, List.cons_append]
      refine .cons a ?_
      refine List.Perm.trans ?_ (ih1.append ih2)
      rw [List.append_assoc, List.append_assoc]
      refine .append_left _ ?_
      rw [← List.append_assoc, ← List.append_assoc]
      exact List.perm_append_comm.append_right _

end Forest

end PageSweep
