import Mathlib.Algebra.Ring.Nat
import PageSweep.Proofs.Lists
import PageSweep.Visit.Timeline

/-!
# Everyone comes back

A turn goes on until its visitor rests. It is short, since one request leads to one walk only and nobody else
raises the flag meanwhile. From instant to instant there is less left to do: at each someone arrives or comes
back from a walk. So the instants and the steps that triggers are given are enough.

* `turn_cases`: a turn is a step and then a turn, or nothing.
* `turn_rests`: after a turn its visitor rests.
* `turns_work_lt`: where somebody is due, the turns of an instant leave less to do.
* `triggers_returned`: in the end all calls are back.
-/

namespace PageSweep

/-- The steps that a call takes by itself at the most, until it is back or on a walk that lasts. -/
def Phase.rank (pending : Bool) : Phase → Nat
  | .ask => 9
  | .look => if pending then 8 else 1
  | .enter => if pending then 7 else 4
  | .claim => if pending then 6 else 3
  | .setOut => if pending then 8 else 5
  | .walk => if pending then 7 else 4
  | .leave => if pending then 9 else 2
  | .returned => 0

/-- What a call will still ask for and walk. -/
def Phase.work : Phase → Nat
  | .ask => 2
  | .setOut | .walk => 1
  | _ => 0

def Gate.work (g : Gate) : Nat := if g.pending then 1 else 0

theorem Phase.rank_le (pending : Bool) (p : Phase) : p.rank pending ≤ 9 := by
  cases p <;> cases pending <;> decide

namespace Call

variable {ρ : Type}

/-- A step takes the call nearer to its end. -/
theorem rank_step (me : Nat) (g : Gate) (c : Call ρ) (hs : c.phase ≠ .setOut) (hw : c.phase ≠ .walk)
    (hr : c.phase ≠ .returned) :
    (c.step me g).2.phase.rank (c.step me g).1.pending < c.phase.rank g.pending := by
  obtain ⟨pending, holder, waiting⟩ := g
  obtain ⟨phase, reports⟩ := c
  cases phase <;> cases pending <;> cases holder <;> simp_all [step, Phase.rank, Gate.release]

/-- A step leaves no more to do, and less if it is the first one. -/
theorem work_step (me : Nat) (g : Gate) (c : Call ρ) :
    (c.step me g).2.phase.work + (c.step me g).1.work + (if c.phase = .ask then 1 else 0) ≤
      c.phase.work + g.work := by
  obtain ⟨pending, holder, waiting⟩ := g
  obtain ⟨phase, reports⟩ := c
  cases phase <;> cases pending <;> cases holder <;> simp [step, Phase.work, Gate.work, Gate.release]

end Call

namespace Visitor

/-- There is nothing to do for the visitor at an instant. -/
def Rests (now : Nat) (x : Visitor) : Prop :=
  now < x.arrival ∨ x.call.phase = .returned ∨ x.call.phase = .walk ∧ now < x.back

/-- The visitor arrives at an instant, or has come back from its walk. -/
def Due (now : Nat) (x : Visitor) : Prop :=
  x.arrival ≤ now ∧ (x.call.phase = .ask ∨ x.call.phase = .walk ∧ x.back ≤ now)

theorem Due.not_rests {now : Nat} {x : Visitor} (h : x.Due now) : ¬ x.Rests now := by
  obtain ⟨ha, hp⟩ := h
  rintro (h | h | ⟨h, hb⟩)
  · omega
  · rcases hp with hp | ⟨hp, -⟩ <;> simp [h] at hp
  · rcases hp with hp | ⟨-, hp⟩
    · simp [h] at hp
    · omega

end Visitor

namespace Timeline

variable {answers : String → Answer} {now i j : Nat} {tl tl' : Timeline} {x : Visitor}

/-- One step within a turn. -/
inductive TurnStep (answers : String → Answer) (now i : Nat) (tl : Timeline) : Timeline → Prop where
  | setOut {x : Visitor} (hx : tl.visitors[i]? = some x) (ha : x.arrival ≤ now)
      (hp : x.call.phase = .setOut) : TurnStep answers now i tl (tl.setOut answers now i x)
  | comeBack {x : Visitor} (hx : tl.visitors[i]? = some x) (ha : x.arrival ≤ now)
      (hp : x.call.phase = .walk) (hb : x.back ≤ now) :
      TurnStep answers now i tl (tl.put i { x with call := x.call.comeBack x.found })
  | step {x : Visitor} (hx : tl.visitors[i]? = some x) (ha : x.arrival ≤ now)
      (hs : x.call.phase ≠ .setOut) (hw : x.call.phase ≠ .walk) (hr : x.call.phase ≠ .returned) :
      TurnStep answers now i tl { tl.put i { x with call := (x.call.step i tl.gate).2 } with
        gate := (x.call.step i tl.gate).1 }

/-- **A turn is a step and then a turn, or nothing.** -/
theorem turn_cases (answers : String → Answer) (now i fuel : Nat) (tl : Timeline) :
    (tl.turn answers now i (fuel + 1) = tl ∧ ∀ x, tl.visitors[i]? = some x → x.Rests now) ∨
    ∃ tl', TurnStep answers now i tl tl' ∧
      tl.turn answers now i (fuel + 1) = tl'.turn answers now i fuel := by
  rw [turn]
  split
  · rename_i hn
    exact .inl ⟨rfl, fun x hx => absurd (hn.symm.trans hx) (by simp)⟩
  · rename_i x hx
    have hrest : x.Rests now → ∀ y, some x = some y → y.Rests now :=
      fun h y hy => Option.some.inj hy ▸ h
    rw [hx]
    split
    · rename_i ha
      exact .inl ⟨rfl, hrest (.inl ha)⟩
    · rename_i ha
      split
      · rename_i hp
        exact .inl ⟨rfl, hrest (.inr (.inl hp))⟩
      · rename_i hp
        exact .inr ⟨_, .setOut hx (by omega) hp, rfl⟩
      · rename_i hp
        split
        · rename_i hb
          exact .inl ⟨rfl, hrest (.inr (.inr ⟨hp, hb⟩))⟩
        · rename_i hb
          exact .inr ⟨_, .comeBack hx (by omega) hp (by omega), rfl⟩
      · rename_i hr hs hw
        exact .inr ⟨_, .step hx (by omega) hs hw hr, rfl⟩

/-- What every step keeps, a turn keeps. -/
theorem turn_induct {R : Timeline → Timeline → Prop} (hrefl : ∀ tl, R tl tl)
    (hstep : ∀ tl tl' tl'', TurnStep answers now i tl tl' → R tl' tl'' → R tl tl'') (fuel : Nat)
    (tl : Timeline) : R tl (tl.turn answers now i fuel) := by
  induction fuel generalizing tl with
  | zero => exact hrefl tl
  | succ fuel ih =>
    rcases turn_cases answers now i fuel tl with ⟨h, -⟩ | ⟨tl', hs, h⟩
    · rw [h]
      exact hrefl tl
    · rw [h]
      exact hstep _ _ _ hs (ih tl')

/-! ### What is left to do -/

/-- What all calls together will still ask for and walk. -/
def work (tl : Timeline) : Nat := (tl.visitors.map (·.call.phase.work)).sum + tl.gate.work

/-- Only the visitor of the turn changes. It gets nearer to its rest, and leaves no more to do. -/
theorem TurnStep.visitors (h : TurnStep answers now i tl tl') : ∃ x y, tl.visitors[i]? = some x ∧
    tl'.visitors = tl.visitors.set i y ∧ y.arrival ≤ now ∧
    y.call.phase.rank tl'.gate.pending < x.call.phase.rank tl.gate.pending ∧
    y.call.phase.work + tl'.gate.work ≤ x.call.phase.work + tl.gate.work ∧
    (x.Due now → y.call.phase.work + tl'.gate.work < x.call.phase.work + tl.gate.work) := by
  cases h with
  | @setOut x hx ha hp =>
    refine ⟨x, _, hx, rfl, ha, ?_, ?_, ?_⟩
    · show Phase.rank tl.gate.pending .walk < _
      rw [hp]
      cases tl.gate.pending <;> decide
    · show Phase.work .walk + tl.gate.work ≤ _
      rw [hp]
      exact Nat.le_refl _
    · rintro ⟨-, hd | ⟨hd, -⟩⟩ <;> simp [hp] at hd
  | @comeBack x hx ha hp hb =>
    refine ⟨x, _, hx, rfl, ha, ?_, ?_, fun _ => ?_⟩
    · show Phase.rank tl.gate.pending .claim < _
      rw [hp]
      cases tl.gate.pending <;> decide
    · show Phase.work .claim + tl.gate.work ≤ _
      rw [hp]
      simp [Phase.work]
    · show Phase.work .claim + tl.gate.work < _
      rw [hp]
      simp [Phase.work]
  | @step x hx ha hs hw hr =>
    refine ⟨x, _, hx, rfl, ha, x.call.rank_step i tl.gate hs hw hr, ?_, fun hd => ?_⟩
    · exact Nat.le_of_add_right_le (x.call.work_step i tl.gate)
    · have := x.call.work_step i tl.gate
      have hp : x.call.phase = .ask := hd.2.resolve_right fun h => hw h.1
      rw [if_pos hp] at this
      exact this

theorem TurnStep.work_le (h : TurnStep answers now i tl tl') : tl'.work ≤ tl.work := by
  obtain ⟨x, y, hx, hv, -, -, hle, -⟩ := h.visitors
  have := sum_map_set (·.call.phase.work) tl.visitors i x y hx
  unfold work
  rw [hv]
  omega

theorem turn_work_le (answers : String → Answer) (now i fuel : Nat) (tl : Timeline) :
    (tl.turn answers now i fuel).work ≤ tl.work :=
  turn_induct (R := fun tl tl' => tl'.work ≤ tl.work) (fun _ => Nat.le_refl _)
    (fun _ _ _ h h' => Nat.le_trans h' h.work_le) fuel tl

/-- A turn of a visitor that is due leaves less to do. -/
theorem turn_work_lt (hx : tl.visitors[i]? = some x) (hd : x.Due now) (fuel : Nat) :
    (tl.turn answers now i (fuel + 1)).work < tl.work := by
  rcases turn_cases answers now i fuel tl with ⟨-, h⟩ | ⟨tl', hs, h⟩
  · exact absurd (h x hx) hd.not_rests
  · obtain ⟨x', y, hx', hv, -, -, -, hlt⟩ := hs.visitors
    obtain rfl := Option.some.inj (hx.symm.trans hx')
    have hsum := sum_map_set (·.call.phase.work) tl.visitors i x y hx
    have hle := turn_work_le answers now i fuel tl'
    have := hlt hd
    rw [h]
    unfold work at *
    rw [hv] at hle
    omega

/-! ### Turns and those who rest -/

theorem turn_length (answers : String → Answer) (now i fuel : Nat) (tl : Timeline) :
    (tl.turn answers now i fuel).visitors.length = tl.visitors.length :=
  turn_induct (R := fun tl tl' => tl'.visitors.length = tl.visitors.length) (fun _ => rfl)
    (fun _ _ _ h h' => by
      obtain ⟨x, y, -, hv, -⟩ := h.visitors
      rw [h', hv, List.length_set]) fuel tl

/-- A turn leaves the others where they are. -/
theorem turn_other (hj : j ≠ i) (fuel : Nat) (tl : Timeline) :
    (tl.turn answers now i fuel).visitors[j]? = tl.visitors[j]? :=
  turn_induct (R := fun tl tl' => tl'.visitors[j]? = tl.visitors[j]?) (fun _ => rfl)
    (fun _ _ _ h h' => by
      obtain ⟨x, y, -, hv, -⟩ := h.visitors
      rw [h', hv, List.getElem?_set_ne (Ne.symm hj)]) fuel tl

/-- **After a turn its visitor rests**, if the turn may take as many steps as it needs. -/
theorem turn_rests (fuel : Nat) (tl : Timeline)
    (hf : ∀ x, tl.visitors[i]? = some x → x.call.phase.rank tl.gate.pending ≤ fuel) :
    ∀ x, (tl.turn answers now i fuel).visitors[i]? = some x → x.Rests now := by
  induction fuel generalizing tl with
  | zero =>
    intro x hx
    have hrank : x.call.phase.rank tl.gate.pending = 0 := Nat.le_zero.1 (hf x hx)
    refine .inr (.inl ?_)
    revert hrank
    cases x.call.phase <;> cases tl.gate.pending <;> simp [Phase.rank]
  | succ fuel ih =>
    rcases turn_cases answers now i fuel tl with ⟨h, hr⟩ | ⟨tl', hs, h⟩
    · rw [h]
      exact hr
    · rw [h]
      refine ih tl' fun y' hy' => ?_
      obtain ⟨x, y, hx, hv, -, hlt, -⟩ := hs.visitors
      have hi : i < tl.visitors.length := (List.getElem?_eq_some_iff.1 hx).1
      rw [hv, List.getElem?_set_self hi, Option.some.injEq] at hy'
      have := hf x hx
      rw [← hy']
      omega

/-- Those who have begun have arrived. -/
def Timely (now : Nat) (tl : Timeline) : Prop :=
  ∀ x ∈ tl.visitors, x.call.phase = .ask ∨ x.arrival ≤ now

theorem Timely.turn (ht : tl.Timely now) (fuel : Nat) : (tl.turn answers now i fuel).Timely now :=
  turn_induct (R := fun tl tl' => tl.Timely now → tl'.Timely now) (fun _ h => h)
    (fun _ _ _ h h' ht => h' fun z hz => by
      obtain ⟨x, y, -, hv, ha, -⟩ := h.visitors
      rw [hv] at hz
      rcases List.mem_or_eq_of_mem_set hz with hz | rfl
      · exact ht z hz
      · exact .inr ha) fuel tl ht

/-! ### The turns of an instant -/

/-- The turns of some visitors, one after the other. -/
def turnsOf (answers : String → Answer) (now : Nat) (is : List Nat) (tl : Timeline) : Timeline :=
  is.foldl (fun tl i => tl.turn answers now i tl.turnSteps) tl

theorem turnsOf_work_le (is : List Nat) (tl : Timeline) : (tl.turnsOf answers now is).work ≤ tl.work := by
  induction is generalizing tl with
  | nil => exact Nat.le_refl _
  | cons i is ih => exact Nat.le_trans (ih _) (turn_work_le answers now i _ tl)

theorem turnsOf_work_lt (is : List Nat) (tl : Timeline) (hi : i ∈ is) (hx : tl.visitors[i]? = some x)
    (hd : x.Due now) : (tl.turnsOf answers now is).work < tl.work := by
  induction is generalizing tl with
  | nil => simp at hi
  | cons j is ih =>
    by_cases hij : i = j
    · subst hij
      exact Nat.lt_of_le_of_lt (turnsOf_work_le is _) (turn_work_lt hx hd _)
    · have hi' : i ∈ is := (List.mem_cons.1 hi).resolve_left hij
      refine Nat.lt_of_lt_of_le (ih _ hi' ?_) (turn_work_le answers now j tl.turnSteps tl)
      rw [turn_other hij]
      exact hx

theorem Timely.turnsOf (is : List Nat) (ht : tl.Timely now) : (tl.turnsOf answers now is).Timely now := by
  induction is generalizing tl with
  | nil => exact ht
  | cons i is ih => exact ih (ht.turn _)

theorem turnsOf_rests (is : List Nat) (tl : Timeline)
    (h : ∀ i x, tl.visitors[i]? = some x → i ∈ is ∨ x.Rests now) :
    ∀ x ∈ (tl.turnsOf answers now is).visitors, x.Rests now := by
  induction is generalizing tl with
  | nil =>
    intro x hx
    obtain ⟨i, hi⟩ := List.mem_iff_getElem?.1 hx
    exact (h i x hi).resolve_left (by simp)
  | cons i is ih =>
    refine ih _ fun j x hx => ?_
    by_cases hj : j = i
    · subst hj
      refine .inr (turn_rests tl.turnSteps tl (fun y _ => ?_) x hx)
      have := y.call.phase.rank_le tl.gate.pending
      unfold turnSteps
      -- There is somebody at all, since it is their turn.
      have hlen := (List.getElem?_eq_some_iff.1 hx).1
      rw [turn_length] at hlen
      omega
    · rw [turn_other hj] at hx
      rcases h j x hx with h' | h'
      · exact .inl ((List.mem_cons.1 h').resolve_left hj)
      · exact .inr h'

theorem mem_order (hx : tl.visitors[i]? = some x) : i ∈ tl.order := by
  rw [tl.order_perm.mem_iff, List.mem_range]
  exact (List.getElem?_eq_some_iff.1 hx).1

/-- After its turns everyone rests. -/
theorem turns_rests (answers : String → Answer) (now : Nat) (tl : Timeline) :
    ∀ x ∈ (tl.turns answers now).visitors, x.Rests now :=
  turnsOf_rests tl.order tl fun _ _ hx => .inl (mem_order hx)

theorem turns_work_le (answers : String → Answer) (now : Nat) (tl : Timeline) :
    (tl.turns answers now).work ≤ tl.work := turnsOf_work_le tl.order tl

/-- **Where somebody is due, the turns of an instant leave less to do.** -/
theorem turns_work_lt (hx : x ∈ tl.visitors) (hd : x.Due now) :
    (tl.turns answers now).work < tl.work := by
  obtain ⟨i, hi⟩ := List.mem_iff_getElem?.1 hx
  exact turnsOf_work_lt tl.order tl (mem_order hi) hi hd

/-! ### From instant to instant -/

/-- At the next instant somebody is due. -/
theorem due_of_next (ht : tl.Timely now) {t : Nat} (hn : tl.next? now = some t) :
    ∃ x ∈ tl.visitors, x.Due t := by
  obtain ⟨x, hx, hxt⟩ := List.mem_filterMap.1 (List.min?_mem hn)
  refine ⟨x, hx, ?_⟩
  split at hxt
  · rename_i ha
    obtain rfl := Option.some.inj hxt
    exact ⟨Nat.le_refl _, .inl ((ht x hx).resolve_right (by omega))⟩
  · rename_i ha
    split at hxt
    · rename_i hb
      obtain rfl := Option.some.inj hxt
      exact ⟨by omega, .inr ⟨hb.1, Nat.le_refl _⟩⟩
    · simp at hxt

theorem lt_of_next {t : Nat} (hn : tl.next? now = some t) : now < t := by
  obtain ⟨x, hx, hxt⟩ := List.mem_filterMap.1 (List.min?_mem hn)
  split at hxt
  · rename_i ha
    obtain rfl := Option.some.inj hxt
    exact ha
  · split at hxt
    · rename_i hb
      obtain rfl := Option.some.inj hxt
      exact hb.2
    · simp at hxt

/-- Where nothing happens any more, all who rest are back. -/
theorem returned_of_next (hn : tl.next? now = none) (hx : x ∈ tl.visitors) (hr : x.Rests now) :
    x.call.phase = .returned := by
  have h := List.filterMap_eq_nil_iff.1 (List.min?_eq_none_iff.1 hn) x hx
  rcases hr with ha | hp | hb
  · simp [ha] at h
  · exact hp
  · split at h <;> simp at h

/-- **Everyone comes back**, if there are more instants than there is left to do. -/
theorem run_returned (fuel now : Nat) (tl : Timeline) (ht : tl.Timely now)
    (hf : (tl.turns answers now).work < fuel) :
    ∀ x ∈ (tl.run answers fuel now).visitors, x.call.phase = .returned := by
  induction fuel generalizing now tl with
  | zero => omega
  | succ fuel ih =>
    have ht' : (tl.turns answers now).Timely now := ht.turnsOf tl.order
    unfold run
    simp only
    split
    · rename_i hn
      intro x hx
      exact returned_of_next hn hx (turns_rests answers now tl x hx)
    · rename_i t hn
      obtain ⟨x, hx, hd⟩ := due_of_next ht' hn
      have hlt := lt_of_next hn
      have : ((tl.turns answers now).turns answers t).work < (tl.turns answers now).work :=
        turns_work_lt hx hd
      refine ih t _ (fun y hy => ?_) (by omega)
      rcases ht' y hy with h | h
      · exact .inl h
      · exact .inr (by omega)

/-- **In the end all calls are back.** -/
theorem triggers_returned (v : Visit) (answers : String → Answer) (arrivals : List Nat) :
    ∀ x ∈ (v.triggers answers arrivals).visitors, x.call.phase = .returned := by
  refine run_returned _ _ _ (fun x hx => ?_) ?_
  · obtain ⟨t, -, rfl⟩ := List.mem_map.1 hx
    exact .inl rfl
  · have hwork : (start v arrivals).work = 2 * arrivals.length := by
      simp [work, start, Gate.work, Gate.idle, Call.new, Phase.work, List.map_map, Function.comp_def,
        List.map_const', Nat.mul_comm]
    have := turns_work_le answers v.clock (start v arrivals)
    omega

end Timeline

end PageSweep
