import Mathlib.Data.List.Basic
import PageSweep.Page.Snapshot

/-!
# Arenas

A page can also be kept as a row of slots, one for each node, in the order in which they were made. The first slot is
the root. A slot has the number of the node above it and, a second time, the numbers of those right below it, so that
each link is written down at both ends and has to be cut at both ends. Nothing in a row of slots rules out that the two
disagree, nor that one comes round in a circle, so the loops over it are relations here: they hold if the loop ends.

* `slots_append`, `slots_remove`, `slots_update`: what is in a slot after each operation.
* `Climbs.unique`, `Collects.unique`: a loop has one outcome at most.
* `Loosens.climbs`: where links are only cut, what cannot climb to the root never will.
-/

namespace PageSweep

/-- What is kept of a node: the node above it, the nodes right below it, and its element, which only the root is
without. -/
structure Slot where
  parent : Option Nat
  children : List Nat
  element : Option Element
deriving DecidableEq

/-- The nodes of a page, each under its number. -/
structure Arena where
  slots : List Slot
deriving DecidableEq

namespace Arena

/-- The root alone. -/
def new : Arena := ⟨[⟨none, [], none⟩]⟩

def size (a : Arena) : Nat := a.slots.length

def parent? (a : Arena) (n : Nat) : Option Nat := a.slots[n]?.bind (·.parent)

def children (a : Arena) (n : Nat) : List Nat := (a.slots[n]?.map (·.children)).getD []

def element? (a : Arena) (n : Nat) : Option Element := a.slots[n]?.bind (·.element)

/-- Adds an element last below a node. -/
def append (a : Arena) (parent : Nat) (e : Element) : Arena :=
  let new : Slot := ⟨some parent, [], some e⟩
  ⟨(a.slots ++ [new]).modify parent fun s => { s with children := s.children ++ [a.size] }⟩

/-- Takes a node from the one above it. Both ends of the link are cut; the root is left alone. -/
def remove (a : Arena) (n : Nat) : Arena :=
  if n = 0 then a
  else
    match a.parent? n with
    | none => a
    | some m =>
      ⟨(a.slots.modify n fun s => { s with parent := none }).modify m fun s =>
        { s with children := s.children.filter (· ≠ n) }⟩

/-- Changes the element of a node. -/
def update (a : Arena) (n : Nat) (f : Element → Element) : Arena :=
  ⟨a.slots.modify n fun s => { s with element := s.element.map f }⟩

/-- Adds what a snapshot holds below a node: each element, and below it what it holds, before the next one. -/
def appendAll (a : Arena) (parent : Nat) : Forest ElementSpec → Arena
  | .nil => a
  | .cons s below after => ((a.append parent s.toElement).appendAll a.size below).appendAll parent after

/-- **The loop that climbs to the root**, from a node or from nowhere, and whether it gets there. -/
inductive Climbs (a : Arena) : Option Nat → Bool → Prop where
  | lost : Climbs a none false
  | root : Climbs a (some 0) true
  | up {n : Nat} {s : Slot} {b : Bool} (hn : n ≠ 0) (hs : a.slots[n]? = some s) (h : Climbs a s.parent b) :
      Climbs a (some n) b

/-- **The walk over a row of nodes**, and what it passes: a node, what is below it, and the next one. -/
inductive Collects (a : Arena) : List Nat → List Nat → Prop where
  | nil : Collects a [] []
  | cons {n : Nat} {ns below after : List Nat} {s : Slot} (hs : a.slots[n]? = some s)
      (hbelow : Collects a s.children below) (hafter : Collects a ns after) :
      Collects a (n :: ns) (n :: (below ++ after))

variable {a a' : Arena} {m n : Nat}

/-! ### Slots -/

theorem parent?_eq_some : a.parent? n = some m ↔ ∃ s, a.slots[n]? = some s ∧ s.parent = some m :=
  Option.bind_eq_some_iff

theorem lt_size_of_slot {s : Slot} (h : a.slots[n]? = some s) : n < a.size :=
  (List.getElem?_eq_some_iff.1 h).1

theorem slots_append (hn : n < a.size) (m : Nat) (e : Element) : (a.append m e).slots[n]? =
    a.slots[n]?.map fun s => if m = n then { s with children := s.children ++ [a.size] } else s := by
  rw [append, List.getElem?_modify, List.getElem?_append_left hn]
  rfl

/-- The new slot. -/
theorem slots_append_size (hm : m < a.size) (e : Element) :
    (a.append m e).slots[a.size]? = some ⟨some m, [], some e⟩ := by
  have hlast : (a.slots ++ [(⟨some m, [], some e⟩ : Slot)])[a.size]? = some ⟨some m, [], some e⟩ :=
    List.getElem?_concat_length
  have hne : m ≠ a.size := Nat.ne_of_lt hm
  rw [append, List.getElem?_modify, hlast]
  simp [hne]

@[simp] theorem size_append (a : Arena) (m : Nat) (e : Element) : (a.append m e).size = a.size + 1 := by
  simp [size, append]

theorem remove_eq_self (h : a.parent? n = none) : a.remove n = a := by simp [remove, h]

/-- Both ends of a link are cut. -/
theorem remove_of_parent? (hn : n ≠ 0) (h : a.parent? n = some m) :
    a.remove n = ⟨(a.slots.modify n fun s => { s with parent := none }).modify m fun s =>
      { s with children := s.children.filter (· ≠ n) }⟩ := by simp [remove, hn, h]

@[simp] theorem size_remove (a : Arena) (n : Nat) : (a.remove n).size = a.size := by
  unfold remove
  split
  · rfl
  · split
    · rfl
    · simp [size]

/-- A slot when a node was cut off, and its number is struck from all lists. -/
def cutOff (n m : Nat) (s : Slot) : Slot :=
  ⟨if m = n then none else s.parent, s.children.filter (· ≠ n), s.element⟩

/-- **What is in a slot after a node was taken away**: though only one list was looked through, its number is in no
list any more, if at first each node stood in the list of its parent only. -/
theorem slots_remove (hlinks : ∀ m s, a.slots[m]? = some s → n ∈ s.children → a.parent? n = some m)
    (hroot : a.parent? 0 = none) (m : Nat) : (a.remove n).slots[m]? = a.slots[m]?.map (cutOff n m) := by
  have hfilter : ∀ m s, a.slots[m]? = some s → a.parent? n ≠ some m → s.children.filter (· ≠ n) = s.children := by
    intro m s hs hm
    rw [List.filter_eq_self]
    intro c hc
    rw [decide_eq_true_iff]
    rintro rfl
    exact hm (hlinks m s hs hc)
  cases hslot : a.slots[m]? with
  | none =>
    have hlen : a.size ≤ m := List.getElem?_eq_none_iff.1 hslot
    rw [Option.map_none, List.getElem?_eq_none_iff]
    exact Nat.le_trans (Nat.le_of_eq (size_remove a n)) hlen
  | some s =>
    rw [Option.map_some]
    cases hparent : a.parent? n with
    | none =>
      -- There is nothing to cut.
      have hloose : (if m = n then none else s.parent) = s.parent := by
        split
        · rename_i hmn
          rw [← hparent, ← hmn, parent?, hslot]
          rfl
        · rfl
      rw [remove_eq_self hparent, hslot, cutOff, hfilter m s hslot (by simp [hparent]), hloose]
    | some x =>
      have hn : n ≠ 0 := by
        rintro rfl
        rw [hroot] at hparent
        cases hparent
      rw [remove_of_parent? hn hparent, List.getElem?_modify, List.getElem?_modify, hslot, cutOff]
      by_cases hx : x = m
      · by_cases hmn : n = m
        · simp [hx, hmn]
        · simp [hx, hmn, Ne.symm hmn]
      · rw [hfilter m s hslot (by simpa [hparent] using hx)]
        by_cases hmn : n = m
        · simp [hx, hmn]
        · simp [hx, hmn, Ne.symm hmn]

theorem slots_update (a : Arena) (n m : Nat) (f : Element → Element) : (a.update n f).slots[m]? =
    a.slots[m]?.map fun s => if n = m then { s with element := s.element.map f } else s := by
  rw [update, List.getElem?_modify]
  rfl

@[simp] theorem size_update (a : Arena) (n : Nat) (f : Element → Element) : (a.update n f).size = a.size :=
  List.length_modify ..

/-! ### Loops -/

/-- **A climb has one outcome.** -/
theorem Climbs.unique {n? : Option Nat} {b b' : Bool} (h : a.Climbs n? b) (h' : a.Climbs n? b') : b = b' := by
  induction h with
  | lost => cases h'; rfl
  | root =>
    cases h' with
    | root => rfl
    | up hn _ _ => exact absurd rfl hn
  | up hn hs _ ih =>
    cases h' with
    | root => exact absurd rfl hn
    | up _ hs' hup =>
      obtain rfl := Option.some.inj (hs.symm.trans hs')
      exact ih hup

/-- **A walk passes one row of nodes.** -/
theorem Collects.unique {ns out out' : List Nat} (h : a.Collects ns out) (h' : a.Collects ns out') : out = out' := by
  induction h generalizing out' with
  | nil => cases h'; rfl
  | cons hs _ _ ihbelow ihafter =>
    cases h' with
    | cons hs' hbelow hafter =>
      obtain rfl := Option.some.inj (hs.symm.trans hs')
      rw [ihbelow hbelow, ihafter hafter]

/-! ### Cutting links -/

/-- **Links were cut and none was made**, but to new nodes. -/
structure Loosens (a a' : Arena) : Prop where
  size : a.size ≤ a'.size
  parent : ∀ n < a.size, a'.parent? n = a.parent? n ∨ a'.parent? n = none

theorem Loosens.refl (a : Arena) : a.Loosens a := ⟨Nat.le_refl _, fun _ _ => .inl rfl⟩

theorem Loosens.trans {a'' : Arena} (h : a.Loosens a') (h' : a'.Loosens a'') : a.Loosens a'' := by
  refine ⟨Nat.le_trans h.size h'.size, fun n hn => ?_⟩
  rcases h'.parent n (Nat.lt_of_lt_of_le hn h.size) with hsame | hcut
  · rw [hsame]
    exact h.parent n hn
  · exact .inr hcut

theorem loosens_append (a : Arena) (m : Nat) (e : Element) : a.Loosens (a.append m e) := by
  refine ⟨by simp, fun n hn => .inl ?_⟩
  rw [parent?, slots_append hn, parent?]
  cases a.slots[n]? with
  | none => rfl
  | some s =>
    simp only [Option.map_some, Option.bind_some]
    split <;> rfl

theorem loosens_update (a : Arena) (n : Nat) (f : Element → Element) : a.Loosens (a.update n f) := by
  refine ⟨by simp, fun m _ => .inl ?_⟩
  rw [parent?, slots_update, parent?]
  cases a.slots[m]? with
  | none => rfl
  | some s =>
    simp only [Option.map_some, Option.bind_some]
    split <;> rfl

/-- A node that could not climb to the root never will. -/
theorem Loosens.climbs (h : a.Loosens a') {n? : Option Nat} (hclimbs : a.Climbs n? false) :
    a'.Climbs n? false := by
  obtain ⟨b, hb⟩ : ∃ b, b = false := ⟨_, rfl⟩
  rw [← hb] at hclimbs
  induction hclimbs with
  | lost => exact .lost
  | root => cases hb
  | @up n s _ hn hs _ ih =>
    have hlt := lt_size_of_slot hs
    have hs' := List.getElem?_eq_getElem (Nat.lt_of_lt_of_le hlt h.size : n < a'.slots.length)
    refine .up hn hs' ?_
    have hparent : a'.parent? n = _ := congrArg (Option.bind · Slot.parent) hs'
    rcases h.parent n hlt with hsame | hcut
    · have hold : a.parent? n = s.parent := congrArg (Option.bind · Slot.parent) hs
      rw [Option.bind_some, hsame, hold] at hparent
      exact hparent ▸ ih hb
    · rw [Option.bind_some, hcut] at hparent
      exact hparent ▸ .lost

end Arena

end PageSweep
