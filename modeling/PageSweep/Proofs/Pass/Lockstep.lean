import PageSweep.Pass.Run
import Mathlib.Tactic.Common

/-!
# Passes in lockstep

If no operation can tell apart two scenes, no pass can: runs on them carry out the same operations at the
same moments and count the same, and they end in scenes that cannot be told apart either.

* `Lockstep.perform`, `Lockstep.chain`, `Lockstep.chains`: what stays beside each other.
* `Lockstep.run_of_actions`, `Lockstep.run`: whole passes.
-/

namespace PageSweep

/-- **A relation of scenes that operations cannot tell apart.** -/
structure Lockstep (S : Scene → Scene → Prop) : Prop where
  apply : ∀ {s s' : Scene}, S s s' → ∀ (op : Op) (now : Instant),
    (op.apply now s').1 = (op.apply now s).1 ∧ S (op.apply now s).2 (op.apply now s').2
  report : ∀ {s s' : Scene}, S s s' → ∀ e, S (s.report e) (s'.report e)
  send : ∀ {s s' : Scene}, S s s' → ∀ m, S (s.send m) (s'.send m)
  counters : ∀ {s s' : Scene}, S s s' → s'.counters = s.counters

/-- A run beside another one: only their scenes differ, and those are related. -/
structure Run.Beside (S : Scene → Scene → Prop) (r r' : Run) : Prop where
  scene : S r.scene r'.scene
  rest : r' = { r with scene := r'.scene }

variable {S : Scene → Scene → Prop} {r r' : Run}

namespace Run.Beside

theorem halted (h : r.Beside S r') : r'.halted = r.halted := by rw [h.rest]

theorem elapsed (h : r.Beside S r') : r'.elapsed = r.elapsed := by rw [h.rest]

theorem withScene (h : r.Beside S r') {s s' : Scene} (hs : S s s') :
    Run.Beside S { r with scene := s } { r' with scene := s' } := by
  refine ⟨hs, ?_⟩
  rw [h.rest]

theorem wait (h : r.Beside S r') (ms : Nat) : (r.wait ms).Beside S (r'.wait ms) := by
  have hrest := h.rest
  unfold Run.wait
  split
  · exact h
  · refine ⟨h.scene, ?_⟩
    rw [hrest]

end Run.Beside

namespace Lockstep

variable (hS : Lockstep S)
include hS

/-- **One operation** ends the same in both runs. -/
theorem perform (h : r.Beside S r') (began : Instant) (op : Op) :
    (r'.perform began op).1 = (r.perform began op).1 ∧
      (r.perform began op).2.Beside S (r'.perform began op).2 := by
  obtain ⟨hresult, hscene⟩ := hS.apply h.scene op (began.later r.elapsed)
  have hrest := h.rest
  unfold Run.perform
  rw [h.elapsed]
  generalize hp : op.apply (began.later r.elapsed) r.scene = o at hresult hscene
  generalize hp' : op.apply (began.later r.elapsed) r'.scene = o' at hresult hscene
  obtain ⟨result, s⟩ := o
  obtain ⟨result', s'⟩ := o'
  simp only at hresult hscene
  subst hresult
  cases result' with
  | ok ok =>
    refine ⟨rfl, hscene, ?_⟩
    rw [hrest]
  | error e =>
    refine ⟨rfl, hS.report hscene _, ?_⟩
    rw [hrest]

theorem chain (c : Chain) (began : Instant) (maxDepth b : Nat) (h : r.Beside S r') :
    (c.run began maxDepth b r).Beside S (c.run began maxDepth b r') := by
  induction c generalizing b r r' with
  | done => exact h
  | link op delay s e ihs ihe =>
    obtain ⟨hok, hb⟩ := hS.perform (h.wait delay) began op
    rw [Chain.run, Chain.run]
    generalize (r.wait delay).perform began op = o at hok hb
    generalize (r'.wait delay).perform began op = o' at hok hb
    obtain ⟨ok₀, r₁⟩ := o
    obtain ⟨ok, r₁'⟩ := o'
    simp only at hok hb ⊢
    subst hok
    rw [hb.halted]
    -- Both runs take the same branch.
    by_cases hhalt : r₁.halted = true
    · rw [if_pos hhalt, if_pos hhalt]
      exact hb
    rw [if_neg hhalt, if_neg hhalt]
    by_cases hdone : (if ok = true then s else e).isDone = true
    · rw [if_pos hdone, if_pos hdone]
      exact hb
    rw [if_neg hdone, if_neg hdone]
    by_cases hzero : b = 0
    · rw [if_pos hzero, if_pos hzero]
      exact hb.withScene (hS.report hb.scene _)
    rw [if_neg hzero, if_neg hzero]
    cases ok with
    | true => exact ihs _ hb
    | false => exact ihe _ hb

theorem chains (cs : List Chain) (began : Instant) (maxDepth : Nat) (h : r.Beside S r') :
    (Chain.runAll began maxDepth cs r).Beside S (Chain.runAll began maxDepth cs r') := by
  induction cs generalizing r r' with
  | nil => exact h
  | cons c cs ih =>
    rw [Chain.runAll, Chain.runAll, h.halted]
    split
    · exact h
    · exact ih (hS.chain c began maxDepth maxDepth h)

theorem summary (h : r.Beside S r') : r'.summary = r.summary := by
  have hc := hS.counters h.scene
  have hrest := h.rest
  unfold Run.summary
  rw [hc, hrest]

theorem close (h : r.Beside S r') : r.close.Beside S r'.close := by
  have hsum := hS.summary h
  unfold Run.close
  rw [hsum]
  simp only
  split
  · exact h
  · exact h.withScene (hS.report (hS.send h.scene _) _)

/-- **Passes of schemas that have the same actions**, on scenes that cannot be told apart, end in such scenes, and
do the same on the way. -/
theorem run_of_actions {i i' : Sweeper} (hd : i'.maxDepth = i.maxDepth) {schema schema' : Json}
    (hactions : (collect i.maxDepth 0 schema').1 = (collect i.maxDepth 0 schema).1) {page page' : Page}
    (h : S (i.start page (collect i.maxDepth 0 schema).2).scene
      (i'.start page' (collect i.maxDepth 0 schema').2).scene) (began : Instant) :
    (i.run began schema page).Beside S (i'.run began schema' page') := by
  unfold Sweeper.run
  rw [hd]
  simp only [hactions]
  exact hS.close (hS.chains _ began i.maxDepth ⟨h, rfl⟩)

/-- **Passes on scenes that cannot be told apart** end in such scenes, and do the same on the way. -/
theorem run {i i' : Sweeper} (hd : i'.maxDepth = i.maxDepth) {page page' : Page}
    (h : ∀ log, S (i.start page log).scene (i'.start page' log).scene) (began : Instant) (schema : Json) :
    (i.run began schema page).Beside S (i'.run began schema page') :=
  hS.run_of_actions hd rfl (h _) began

end Lockstep

end PageSweep
