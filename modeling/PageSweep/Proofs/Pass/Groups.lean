import PageSweep.Proofs.Pass.Agreement

/-!
# Groups within groups

Lists lie in lists, and an object with a list of `actions` is a group. What lies in a list is opened again, however
deep; what lies in a group is not, so a list or a group there is taken for an action itself. That is where a list
differs from the group of it: the two have the same values exactly if neither a list nor a group is among these.

* `collectItems_of_plain`: a list in which there is nothing to open.
* `collect_of_nesting`: which values of a schema become actions, if there is room for all of its lists.
* `openedItems_eq_self_iff`: opening what lies in a list changes it unless there is nothing to open.
* `groups_open_once`: a list beside the group of it.
-/

namespace PageSweep

namespace Json

/-- The list of a group. -/
def actions? (v : Json) : Option (List Json) := (v.get? "actions").bind Json.items?

/-- Neither a list nor a group. -/
def isPlain (v : Json) : Bool := v.items?.isNone && v.actions?.isNone

mutual
/-- How deep lists and groups lie in each other. -/
def nesting : Json → Nat
  | .arr items => nestingItems items + 1
  | .obj fields => nestingFields fields
  | _ => 0

def nestingItems : List Json → Nat
  | [] => 0
  | v :: vs => max v.nesting (nestingItems vs)

/-- An object is a group by its `actions` alone. -/
def nestingFields : List (String × Json) → Nat
  | [] => 0
  | (k, v) :: fields =>
    if k = "actions" then
      match v with
      | .arr items => nestingItems items + 1
      | _ => 0
    else nestingFields fields
end

mutual
/-- The values that become actions: a list is opened, and what lies in it again; a group is opened once. -/
def opened : Json → List Json
  | .arr items => openedItems items
  | v => v.actions?.getD [v]

def openedItems : List Json → List Json
  | [] => []
  | v :: vs => v.opened ++ openedItems vs
end

theorem openedItems_eq_flatMap (vs : List Json) : openedItems vs = vs.flatMap opened := by
  induction vs with
  | nil => rfl
  | cons v vs ih => rw [openedItems, ih, List.flatMap_cons]

theorem opened_of_not_list {v : Json} (h : ∀ items, v ≠ .arr items) : v.opened = v.actions?.getD [v] := by
  cases v with
  | arr items => exact absurd rfl (h items)
  | _ => simp only [opened]

theorem opened_of_plain {v : Json} (h : v.isPlain = true) : v.opened = [v] := by
  rw [isPlain, Bool.and_eq_true, Option.isNone_iff_eq_none, Option.isNone_iff_eq_none] at h
  rw [opened_of_not_list (by rintro items rfl; cases h.1), h.2, Option.getD_none]

/-! ### What opening does to a list -/

theorem sizeOf_append (vs ws : List Json) : sizeOf (vs ++ ws) + 1 = sizeOf vs + sizeOf ws := by
  induction vs with
  | nil => exact Nat.add_comm _ _
  | cons v vs ih =>
    simp only [List.cons_append, List.cons.sizeOf_spec]
    omega

theorem sizeOf_actions {v : Json} {items : List Json} (h : v.actions? = some items) : sizeOf items < sizeOf v := by
  obtain ⟨w, hw, hitems⟩ := Option.bind_eq_some_iff.1 h
  cases w with
  | arr ws =>
    obtain rfl := Option.some.inj hitems
    cases v with
    | obj fields =>
      have hsize := List.sizeOf_lt_of_mem (Entries.mem_of_get? hw)
      simp only [Prod.mk.sizeOf_spec, arr.sizeOf_spec] at hsize
      rw [obj.sizeOf_spec]
      omega
    | _ => cases hw
  | _ => cases hitems

mutual
/-- What is opened gets smaller. -/
theorem sizeOf_opened : ∀ v : Json, v.isPlain = false → sizeOf v.opened < sizeOf v
  | .arr items, _ => by
    have hitems := sizeOf_openedItems items
    simp only [opened, arr.sizeOf_spec]
    omega
  | .null, h | .bool _, h | .int _, h | .double _, h | .str _, h => by cases h
  | .obj fields, h => by
    obtain ⟨items, hitems⟩ : ∃ items, (Json.obj fields).actions? = some items := by
      simpa [isPlain, items?, Option.isSome_iff_exists] using h
    rw [opened_of_not_list (fun _ h => by cases h), hitems]
    exact sizeOf_actions hitems

theorem sizeOf_openedItems : ∀ vs : List Json, sizeOf (openedItems vs) ≤ sizeOf vs
  | [] => le_rfl
  | v :: vs => by
    have hrest := sizeOf_openedItems vs
    have happend := sizeOf_append v.opened (openedItems vs)
    rw [openedItems, List.cons.sizeOf_spec]
    -- A plain value stays, so the size stays with it; any other one gives less than itself.
    cases hplain : v.isPlain with
    | true =>
      rw [opened_of_plain hplain] at happend ⊢
      simp only [List.cons.sizeOf_spec, List.nil.sizeOf_spec] at happend
      omega
    | false =>
      have hless := sizeOf_opened v hplain
      omega
end

/-- **Opening what lies in a list** leaves the list as it is only if there is nothing to open. -/
theorem openedItems_eq_self_iff {vs : List Json} : openedItems vs = vs ↔ ∀ v ∈ vs, v.isPlain = true := by
  induction vs with
  | nil => simp [openedItems]
  | cons v vs ih =>
    rw [List.forall_mem_cons, ← ih, openedItems]
    cases hplain : v.isPlain with
    | true => simp [opened_of_plain hplain]
    | false =>
      -- The values may be as many as before, but they are smaller taken together.
      refine iff_of_false (fun h => ?_) (by simp)
      have hsize := congrArg sizeOf h
      have hless := sizeOf_opened v hplain
      have hrest := sizeOf_openedItems vs
      have happend := sizeOf_append v.opened (openedItems vs)
      rw [List.cons.sizeOf_spec] at hsize
      omega

end Json

open Json

theorem leafActions_eq (v : Json) : leafActions v = (v.actions?.getD [v]).map Chain.ofJson := by
  rw [leafActions, actions?]
  cases (v.get? "actions").bind items? <;> rfl

/-- What lies too deep is left out. -/
theorem collect_of_lt {maxDepth depth : Nat} (h : maxDepth < depth) (v : Json) :
    collect maxDepth depth v = leftOut maxDepth := by
  cases v with
  | arr items => rw [collect, if_pos h]
  | _ => rw [Chain.collect_leaf (fun _ h => by cases h), if_pos h]

theorem collectItems_of_lt {maxDepth depth : Nat} (h : maxDepth < depth) (vs : List Json) :
    (collectItems maxDepth depth vs).1 = [] := by
  induction vs with
  | nil => rfl
  | cons v vs ih => rw [collectItems, collect_of_lt h, Collected.append, ih]; rfl

theorem collect_of_plain {v : Json} (h : v.isPlain = true) (maxDepth depth : Nat) :
    collect maxDepth depth v = if maxDepth < depth then leftOut maxDepth else ([Chain.ofJson v], []) := by
  rw [isPlain, Bool.and_eq_true, Option.isNone_iff_eq_none, Option.isNone_iff_eq_none] at h
  rw [Chain.collect_leaf (by rintro items rfl; cases h.1), leafActions_eq, h.2]
  rfl

/-- **Plain values in a list** become its actions as they stand, or are all left out. -/
theorem collectItems_of_plain {vs : List Json} (h : ∀ v ∈ vs, v.isPlain = true) (maxDepth depth : Nat) :
    collectItems maxDepth depth vs =
      if maxDepth < depth then ([], vs.map fun _ => .groupSkipped (.chainTooDeep maxDepth))
      else (vs.map Chain.ofJson, []) := by
  induction vs with
  | nil => split <;> rfl
  | cons v vs ih =>
    obtain ⟨hv, hvs⟩ := List.forall_mem_cons.1 h
    rw [collectItems, ih hvs, collect_of_plain hv]
    split <;> rfl

mutual
/-- **The actions of a value** in which lists do not lie too deep, whatever the groups are. -/
theorem collect_of_nesting {maxDepth : Nat} : ∀ (v : Json) (depth : Nat), depth + v.nesting ≤ maxDepth →
    collect maxDepth depth v = (v.opened.map Chain.ofJson, [])
  | .arr items, depth, h => by
    rw [nesting] at h
    rw [collect, if_neg (by omega), collectItems_of_nesting items (depth + 1) (by omega), opened]
  | .null, depth, h | .bool _, depth, h | .int _, depth, h | .double _, depth, h | .str _, depth, h
  | .obj _, depth, h => by
    rw [Chain.collect_leaf (fun _ h => by cases h), if_neg (by omega), leafActions_eq,
      opened_of_not_list (fun _ h => by cases h)]

theorem collectItems_of_nesting {maxDepth : Nat} : ∀ (vs : List Json) (depth : Nat),
    depth + nestingItems vs ≤ maxDepth →
    collectItems maxDepth depth vs = ((openedItems vs).map Chain.ofJson, [])
  | [], _, _ => rfl
  | v :: vs, depth, h => by
    rw [nestingItems] at h
    rw [collectItems, collect_of_nesting v depth (by omega), collectItems_of_nesting vs depth (by omega), openedItems,
      List.map_append]
    rfl
end

/-- **A group opens its list once**, while a list opens all that lies in it. The group of a list has the values of the
list for its actions, as they stand; the list itself has them opened, lists and groups alike. These are the same values
exactly if neither a list nor a group is among them, and then it makes no difference which of the two is run. -/
theorem groups_open_once {fields : List (String × Json)} {xs : List Json} {maxDepth : Nat}
    (hgroup : Entries.get? "actions" fields = some (.arr xs)) (hdepth : nestingItems xs < maxDepth) :
    collect maxDepth 0 (.obj fields) = (xs.map Chain.ofJson, []) ∧
      collect maxDepth 0 (.arr xs) = ((xs.flatMap opened).map Chain.ofJson, []) ∧
      (xs.flatMap opened = xs ↔ ∀ v ∈ xs, v.isPlain = true) ∧
      ((∀ v ∈ xs, v.isPlain = true) → collect maxDepth 0 (.obj fields) = collect maxDepth 0 (.arr xs)) := by
  have hactions : (Json.obj fields).actions? = some xs := by
    rw [actions?, get?, hgroup]
    rfl
  have hobj : collect maxDepth 0 (.obj fields) = (xs.map Chain.ofJson, []) := by
    rw [Chain.collect_leaf (fun _ h => by cases h), if_neg (Nat.not_lt_zero _), leafActions_eq, hactions,
      Option.getD_some]
  have harr : collect maxDepth 0 (.arr xs) = ((xs.flatMap opened).map Chain.ofJson, []) := by
    rw [collect_of_nesting (.arr xs) 0 (by rw [nesting]; omega), opened, openedItems_eq_flatMap]
  have hself : xs.flatMap opened = xs ↔ ∀ v ∈ xs, v.isPlain = true :=
    openedItems_eq_flatMap xs ▸ openedItems_eq_self_iff
  exact ⟨hobj, harr, hself, fun hplain => by rw [hobj, harr, hself.2 hplain]⟩

/-- Two removals, in a group for a host. -/
theorem groups_open_once_noteRemovals :
    let xs : List Json := [.obj [("action", .str "remove"), ("target", .str "#x")],
      .obj [("action", .str "remove"), ("target", .str ".note")]]
    let fields := [("actions", .arr xs), ("domain", .str "a.example")]
    Entries.get? "actions" fields = some (.arr xs) ∧ nestingItems xs < Sweeper.defaultMaxDepth ∧
      collect Sweeper.defaultMaxDepth 0 (.obj fields) = collect Sweeper.defaultMaxDepth 0 (.arr xs) := by
  intro xs fields
  have hgroup : Entries.get? "actions" fields = some (.arr xs) := rfl
  have hdepth : nestingItems xs < Sweeper.defaultMaxDepth := by decide
  exact ⟨hgroup, hdepth, (groups_open_once hgroup hdepth).2.2.2 (by decide)⟩

/-- **A group in a group is not opened**: it is taken for an action, and as such it fails. -/
theorem nested_group_fails :
    let removal : Json := .obj [("action", .str "remove"), ("target", .str "#x")]
    let xs : List Json := [.obj [("actions", .arr [removal])]]
    let fields := [("actions", .arr xs)]
    Entries.get? "actions" fields = some (.arr xs) ∧ nestingItems xs < Sweeper.defaultMaxDepth ∧
      (collect Sweeper.defaultMaxDepth 0 (.arr xs)).1 = [.link (.remove "#x") 0 .done .done] ∧
      (collect Sweeper.defaultMaxDepth 0 (.obj fields)).1 = [.link (.invalid "missing `action` field") 0 .done .done] ∧
      (collect Sweeper.defaultMaxDepth 0 (.obj fields)).1 ≠ (collect Sweeper.defaultMaxDepth 0 (.arr xs)).1 := by
  intro removal xs fields
  have harr : (collect Sweeper.defaultMaxDepth 0 (.arr xs)).1 = [.link (.remove "#x") 0 .done .done] := by rfl
  have hgroup : (collect Sweeper.defaultMaxDepth 0 (.obj fields)).1 =
      [.link (.invalid "missing `action` field") 0 .done .done] := by rfl
  refine ⟨rfl, by decide, harr, hgroup, ?_⟩
  rw [harr, hgroup]
  exact fun h => by cases h

end PageSweep
