import Mathlib.Data.List.Basic
import PageSweep.Proofs.Pass.Groups

/-!
# The order of the actions of a schema

A place in a value says of each list on the way down which of its values to go on with. The leaves of a value are what
lies at its places and is no list; there are as many lists around a leaf as its place is long. The actions of a schema
are those of its leaves, in document order, but for the leaves that lie in too many lists.

* `Json.mem_leaves_iff`, `Json.pairwise_leaves`: the leaves are all there, each once and in order.
* `collect_eq_flatMap`: what becomes of a value that lies in some lists already.
* `collectItems_eq_flatMap`: what stands side by side does not touch each other.
* `actions_in_document_order`: the actions of a schema.
-/

namespace PageSweep

namespace Json

/-- What lies at a place. -/
def valueAt? : List Nat → Json → Option Json
  | [], v => some v
  | k :: place, .arr items => items[k]?.bind (valueAt? place)
  | _ :: _, _ => none

/-- A value in lists, with its place. -/
structure Leaf where
  place : List Nat
  value : Json

namespace Leaf

/-- The leaf in the list of which the value that holds it is the `k`-th one. -/
def below (k : Nat) (l : Leaf) : Leaf := { l with place := k :: l.place }

/-- The actions of a leaf: those of the values that a group lists, and else that of the leaf itself. -/
def chains (l : Leaf) : List Chain := (l.value.actions?.getD [l.value]).map Chain.ofJson

end Leaf

mutual
/-- The leaves of a value, in document order. -/
def leaves : Json → List Leaf
  | .arr items => leavesFrom 0 items
  | v => [⟨[], v⟩]

/-- The leaves of a list from its `k`-th value on. -/
def leavesFrom (k : Nat) : List Json → List Leaf
  | [] => []
  | v :: vs => v.leaves.map (Leaf.below k) ++ leavesFrom (k + 1) vs
end

/-- **Induction over lists in lists.** -/
@[elab_as_elim]
theorem listsInduction {P : Json → Prop} (leaf : ∀ v, v.items? = none → P v)
    (list : ∀ items, (∀ v ∈ items, P v) → P (.arr items)) (v : Json) : P v := by
  cases v with
  | arr items => exact list items fun w hw => listsInduction leaf list w
  | _ => exact leaf _ rfl
termination_by sizeOf v
decreasing_by
  have hsize := List.sizeOf_lt_of_mem hw
  rw [arr.sizeOf_spec]
  omega

theorem leaves_of_not_list {v : Json} (h : v.items? = none) : v.leaves = [⟨[], v⟩] := by
  cases v with
  | arr items => cases h
  | _ => simp only [leaves]

theorem valueAt?_of_not_list {v : Json} (h : v.items? = none) {place : List Nat} {w : Json} :
    v.valueAt? place = some w ↔ place = [] ∧ v = w := by
  cases place with
  | nil => simp [valueAt?]
  | cons k place =>
    cases v with
    | arr items => cases h
    | _ => simp [valueAt?]

theorem mem_leavesFrom_iff {k : Nat} {vs : List Json} {l : Leaf} :
    l ∈ leavesFrom k vs ↔ ∃ (j : Nat) (v : Json), vs[j]? = some v ∧ ∃ m ∈ v.leaves, m.below (k + j) = l := by
  induction vs generalizing k with
  | nil => simp [leavesFrom]
  | cons v vs ih =>
    rw [leavesFrom, List.mem_append, List.mem_map, ih]
    constructor
    · rintro (⟨m, hm, hl⟩ | ⟨j, w, hw, m, hm, hl⟩)
      · exact ⟨0, v, rfl, m, hm, hl⟩
      · exact ⟨j + 1, w, hw, m, hm, by rw [← hl, Nat.add_right_comm, Nat.add_assoc]⟩
    · rintro ⟨j, w, hw, m, hm, hl⟩
      cases j with
      | zero => exact .inl ⟨m, Option.some.inj hw ▸ hm, hl⟩
      | succ j => exact .inr ⟨j, w, hw, m, hm, by rw [← hl, Nat.add_right_comm, Nat.add_assoc]⟩

/-- **The leaves are what lies at a place and is no list.** -/
theorem mem_leaves_iff {v : Json} {l : Leaf} :
    l ∈ v.leaves ↔ v.valueAt? l.place = some l.value ∧ l.value.items? = none := by
  induction v using listsInduction generalizing l with
  | leaf v hv =>
    rw [leaves_of_not_list hv, List.mem_singleton, valueAt?_of_not_list hv]
    constructor
    · rintro rfl
      exact ⟨⟨rfl, rfl⟩, hv⟩
    · rintro ⟨⟨hplace, rfl⟩, -⟩
      rw [← hplace]
  | list items ih =>
    rw [leaves, mem_leavesFrom_iff]
    constructor
    · rintro ⟨j, w, hw, m, hm, rfl⟩
      obtain ⟨hat, hleaf⟩ := (ih w (List.mem_of_getElem? hw)).1 hm
      refine ⟨?_, hleaf⟩
      rw [Leaf.below, Nat.zero_add, valueAt?, hw]
      exact hat
    · obtain ⟨place, value⟩ := l
      rintro ⟨hat, hleaf⟩
      cases place with
      | nil =>
        -- The list itself lies there.
        obtain rfl := Option.some.inj hat
        cases hleaf
      | cons k place =>
        obtain ⟨w, hw, hat⟩ := Option.bind_eq_some_iff.1 hat
        have hmem : ⟨place, value⟩ ∈ w.leaves := (ih w (List.mem_of_getElem? hw)).2 ⟨hat, hleaf⟩
        exact ⟨k, w, hw, _, hmem, by rw [Leaf.below, Nat.zero_add]⟩

/-- **The leaves come in the order of their places**, so each of them comes once. -/
theorem pairwise_leaves (v : Json) : v.leaves.Pairwise fun l m => l.place < m.place := by
  induction v using listsInduction with
  | leaf v hv =>
    rw [leaves_of_not_list hv]
    exact List.pairwise_singleton _ _
  | list items ih =>
    rw [leaves]
    generalize 0 = k
    induction items generalizing k with
    | nil => exact .nil
    | cons v vs ihs =>
      rw [leavesFrom, List.pairwise_append, List.pairwise_map]
      refine ⟨?_, ihs (fun w hw => ih w (List.mem_cons_of_mem _ hw)) (k + 1), ?_⟩
      · exact (ih v List.mem_cons_self).imp fun h => List.cons_lt_cons_iff.2 (.inr ⟨rfl, h⟩)
      · intro l hl m hm
        obtain ⟨l, -, rfl⟩ := List.mem_map.1 hl
        obtain ⟨j, w, -, m, -, rfl⟩ := mem_leavesFrom_iff.1 hm
        exact List.cons_lt_cons_iff.2 (.inl (by omega))

end Json

open Json

variable {maxDepth depth : Nat}

/-- **What stands side by side does not touch each other**: each value gives what it gives alone. -/
theorem collectItems_eq_flatMap (vs : List Json) :
    (collectItems maxDepth depth vs).1 = vs.flatMap fun v => (collect maxDepth depth v).1 := by
  induction vs with
  | nil => rfl
  | cons v vs ih => rw [collectItems, Collected.append, ih, List.flatMap_cons]

/-- Nothing comes of a list in which everything lies too deep. -/
theorem collect_list_of_le (h : maxDepth ≤ depth) (items : List Json) : (collect maxDepth depth (.arr items)).1 = [] := by
  rw [collect]
  split
  · rfl
  · rw [collectItems_of_lt (Nat.lt_succ_of_le h)]

/-- The leaves of a list, as far as there is room, are those of its values with room for one list less. -/
theorem flatMap_leavesFrom (k : Nat) (vs : List Json) :
    ((leavesFrom k vs).filter (depth + ·.place.length ≤ maxDepth)).flatMap Leaf.chains =
      vs.flatMap fun v => (v.leaves.filter (depth + 1 + ·.place.length ≤ maxDepth)).flatMap Leaf.chains := by
  induction vs generalizing k with
  | nil => rfl
  | cons v vs ih =>
    have hkept : ((fun l : Leaf => decide (depth + l.place.length ≤ maxDepth)) ∘ Leaf.below k) =
        fun l => decide (depth + 1 + l.place.length ≤ maxDepth) := by
      funext l
      show decide (depth + (l.place.length + 1) ≤ maxDepth) = _
      rw [Nat.add_right_comm, Nat.add_assoc]
    rw [leavesFrom, List.filter_append, List.flatMap_append, ih, List.flatMap_cons, List.filter_map, hkept,
      List.flatMap_map]
    rfl

/-- **The actions of a value that lies in `depth` lists** are those of its leaves, as far as there is room for the lists
around them. -/
theorem collect_eq_flatMap (v : Json) :
    (collect maxDepth depth v).1 = (v.leaves.filter (depth + ·.place.length ≤ maxDepth)).flatMap Leaf.chains := by
  induction v using listsInduction generalizing depth with
  | leaf v hv =>
    rw [Chain.collect_leaf (by rintro items rfl; cases hv), leaves_of_not_list hv]
    by_cases hdeep : maxDepth < depth
    · have hout : ¬depth + ([] : List Nat).length ≤ maxDepth := Nat.not_le.2 hdeep
      rw [if_pos hdeep, List.filter_cons_of_neg (by simpa using hout)]
      rfl
    · have hkept : depth + ([] : List Nat).length ≤ maxDepth := Nat.not_lt.1 hdeep
      rw [if_neg hdeep, List.filter_cons_of_pos (by simpa using hkept)]
      exact (leafActions_eq v).trans (List.append_nil _).symm
  | list items ih =>
    have hitems : (items.flatMap fun v => (v.leaves.filter (depth + 1 + ·.place.length ≤ maxDepth)).flatMap Leaf.chains) =
        (collectItems maxDepth (depth + 1) items).1 := by
      rw [collectItems_eq_flatMap]
      exact List.flatMap_congr fun v hv => (ih v hv).symm
    rw [leaves, flatMap_leavesFrom, hitems, collect]
    split
    · rename_i hdeep
      rw [collectItems_of_lt (Nat.lt_succ_of_lt hdeep)]
      rfl
    · rfl

/-- **The actions of a schema stand in document order.** They are those of its leaves, one leaf after the other, without
the leaves around which there are more lists than the bound allows. A leaf is what lies at a place and is no list: each
is there, and there once, and they come in the order of their places. A leaf that is a group has the actions of the
values that it lists, and any other one its own. What stands side by side does not touch each other: each value of a
list gives what it gives alone, and a list in which everything lies too deep gives nothing. So the actions of a list
that goes on with another one are those of the first and then those of the second. -/
theorem actions_in_document_order (maxDepth : Nat) (v : Json) :
    (collect maxDepth 0 v).1 = (v.leaves.filter (·.place.length ≤ maxDepth)).flatMap
        (fun l => (l.value.actions?.getD [l.value]).map Chain.ofJson) ∧
      (∀ l, l ∈ v.leaves ↔ v.valueAt? l.place = some l.value ∧ l.value.items? = none) ∧
      v.leaves.Pairwise (fun l m => l.place < m.place) ∧
      (∀ depth vs, (collectItems maxDepth depth vs).1 = vs.flatMap fun w => (collect maxDepth depth w).1) ∧
      (∀ depth items, maxDepth ≤ depth → (collect maxDepth depth (.arr items)).1 = []) ∧
      ∀ xs ys, (collect maxDepth 0 (.arr (xs ++ ys))).1 =
        (collect maxDepth 0 (.arr xs)).1 ++ (collect maxDepth 0 (.arr ys)).1 := by
  refine ⟨?_, fun _ => mem_leaves_iff, pairwise_leaves v, fun _ vs => collectItems_eq_flatMap vs,
    fun _ items h => collect_list_of_le h items, fun xs ys => ?_⟩
  · rw [collect_eq_flatMap]
    simp only [Nat.zero_add]
    rfl
  · have hlist (items : List Json) : collect maxDepth 0 (.arr items) = collectItems maxDepth 1 items := by
      rw [collect, if_neg (Nat.not_lt_zero _)]
    rw [hlist, hlist, hlist, collectItems_append]
    rfl

/-- With a bound of one list, a list in the list is left out, and what stands around it is not. -/
example : (collect 1 0 (.arr [.str "a", .arr [.str "b"], .obj [("actions", .arr [.str "c", .bool true])]])).1 =
    [.str "a", .str "c", .bool true].map Chain.ofJson := by rfl

end PageSweep
