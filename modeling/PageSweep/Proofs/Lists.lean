import Mathlib.Algebra.Ring.Nat
import Mathlib.Data.List.Nodup

/-!
# Lists with one element changed or some left out

What becomes of counts, sums and keys when a list loses an element, has one replaced, or is mapped or filtered.

* `countP_eraseP`, `filter_eraseP_of_disjoint`: a list without the first element of a kind.
* `sum_map_set`: a sum with one part replaced.
* `mem_map_filter_iff`: the keys of what is kept.
* `exists_map_eq`: a list as the image of another one.
-/

namespace PageSweep

variable {α : Type}

/-- One less of the kind is left. -/
theorem countP_eraseP (p : α → Bool) (as : List α) : (as.eraseP p).countP p = as.countP p - 1 := by
  induction as with
  | nil => rfl
  | cons a as ih =>
    by_cases ha : p a = true
    · simp [ha]
    · simp [ha, ih]

/-- All that is of another kind is left. -/
theorem filter_eraseP_of_disjoint {p q : α → Bool} (hpq : ∀ a, p a = true → q a = false) (as : List α) :
    (as.eraseP p).filter q = as.filter q := by
  induction as with
  | nil => rfl
  | cons a as ih =>
    by_cases ha : p a = true
    · simp [ha, hpq a ha]
    · simp [ha, ih, List.filter_cons]

/-- A sum changes by as much as the part that is replaced. -/
theorem sum_map_set (f : α → Nat) (l : List α) (i : Nat) (x y : α) (h : l[i]? = some x) :
    ((l.set i y).map f).sum + f x = (l.map f).sum + f y := by
  obtain ⟨hi, rfl⟩ := List.getElem?_eq_some_iff.1 h
  have hset : ∀ z, ((l.set i z).map f).sum = ((l.take i).map f).sum + f z + ((l.drop (i + 1)).map f).sum := by
    intro z
    rw [List.set_eq_take_append_cons_drop, if_pos hi, List.map_append, List.sum_append, List.map_cons,
      List.sum_cons, Nat.add_assoc]
  have hself := hset l[i]
  rw [List.set_getElem_self] at hself
  rw [hset y, hself]
  omega

/-- Of things told apart by a key, those that are kept are those whose key is kept. -/
theorem mem_map_filter_iff {key : α → Nat} (keep : α → Bool) {as : List α}
    (h : (as.map key).Nodup) {a : α} (ha : a ∈ as) : key a ∈ (as.filter keep).map key ↔ keep a = true := by
  constructor
  · intro hmem
    obtain ⟨b, hb, hkey⟩ := List.mem_map.1 hmem
    obtain ⟨hb, hkeep⟩ := List.mem_filter.1 hb
    rw [← List.inj_on_of_nodup_map h hb ha hkey]
    exact hkeep
  · exact fun hkeep => List.mem_map_of_mem (List.mem_filter.2 ⟨ha, hkeep⟩)

/-- Two rows of different things of one length are one row and its image. -/
theorem exists_map_eq {as bs : List Nat} (ha : as.Nodup) (hlen : as.length = bs.length) :
    ∃ f, bs = as.map f := by
  induction as generalizing bs with
  | nil => exact ⟨id, List.length_eq_zero_iff.1 hlen.symm⟩
  | cons a as ih =>
    cases bs with
    | nil => cases hlen
    | cons b bs =>
      obtain ⟨hna, ha⟩ := List.nodup_cons.1 ha
      obtain ⟨f, rfl⟩ := ih ha (Nat.succ.inj hlen)
      refine ⟨fun x => if x = a then b else f x, ?_⟩
      rw [List.map_cons, if_pos rfl]
      congr 1
      refine List.map_congr_left fun x hx => ?_
      have hxa : x ≠ a := fun hxa => hna (hxa ▸ hx)
      rw [if_neg hxa]

end PageSweep
