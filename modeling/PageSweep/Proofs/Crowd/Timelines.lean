import PageSweep.Proofs.Crowd.Runs
import PageSweep.Proofs.Crowd.Turns

/-!
# Timelines are runs of a crowd

A timeline lets its calls take their steps by the clock. Without the clock it is a run of a crowd, so what
holds of all runs holds of it.

* `leads_turn`: a turn is a run of moves of one call.
* `leads_triggers`: triggers at given times are a run from an idle gate.
* `gate_triggers`: in the end the gate is idle again.
-/

namespace PageSweep

namespace Crowd

variable {ρ : Type} {s s' s'' : Crowd ρ}

/-- Callers alone lead from one crowd to another. -/
def Leads (s s' : Crowd ρ) : Prop := ∃ ms, Move.borrow ∉ ms ∧ s.run ms = s'

theorem Leads.refl (s : Crowd ρ) : Leads s s := ⟨[], by simp, rfl⟩

theorem Leads.trans (h : Leads s s') (h' : Leads s' s'') : Leads s s'' := by
  obtain ⟨ms, hm, rfl⟩ := h
  obtain ⟨ms', hm', rfl⟩ := h'
  refine ⟨ms ++ ms', by simp [hm, hm'], ?_⟩
  unfold run
  rw [List.foldl_append]

theorem Leads.of_step {m : Move ρ} (hm : m ≠ .borrow) : Leads s (s.step m) :=
  ⟨[m], by simpa using hm.symm, rfl⟩

theorem Leads.kept {handlers : List Handler} (h : Leads (start handlers) s) :
    s.OnlyCallers ∧ s.Orderly ∧ s.Booked := by
  obtain ⟨ms, hm, rfl⟩ := h
  have := moment_kept handlers hm ms.length
  rwa [moment, List.take_length] at this

/-- Calls that only come and do not begin. -/
theorem leads_calls (handlers : List Handler) (n : Nat) :
    Leads (start handlers) (⟨.idle, handlers, List.replicate n (.caller .new), []⟩ : Crowd ρ) := by
  induction n with
  | zero => exact .refl _
  | succ n ih =>
    refine ih.trans ?_
    rw [List.replicate_succ']
    exact .of_step (m := .call) (by simp)

end Crowd

namespace Timeline

open Crowd

variable {answers : String → Answer} {now i : Nat} {tl : Timeline} {x : Visitor}

/-- The crowd of a timeline, with a record of its walks. -/
def crowd (tl : Timeline) (walks : List (Outing Report)) : Crowd Report :=
  ⟨tl.gate, tl.visit.handlers, tl.visitors.map fun x => .caller x.call, walks⟩

theorem crowd_call? (walks : List (Outing Report)) (hx : tl.visitors[i]? = some x) :
    (tl.crowd walks).call? i = some x.call := by
  rw [call?_eq_some]
  simp [crowd, hx]

theorem step_crowd (walks : List (Outing Report)) (hx : tl.visitors[i]? = some x)
    (hp : x.call.phase ≠ .setOut) : (tl.crowd walks).step (.step i) =
      ({ tl.put i { x with call := (x.call.step i tl.gate).2 } with
        gate := (x.call.step i tl.gate).1 } : Timeline).crowd walks := by
  have h := call?_eq_some.1 (crowd_call? walks hx)
  simp only [Crowd.step, h, stepCall, if_neg hp]
  simp [Crowd.put, crowd, put, List.map_set]

theorem setOut_crowd (walks : List (Outing Report)) (hx : tl.visitors[i]? = some x)
    (hp : x.call.phase = .setOut) : (tl.crowd walks).step (.step i) =
      (tl.setOut answers now i x).crowd (walks ++ [⟨i, tl.visit.handlers, none⟩]) := by
  have h := call?_eq_some.1 (crowd_call? walks hx)
  simp only [Crowd.step, h, stepCall, if_pos hp]
  simp [Crowd.put, begin_, crowd, setOut, put, Visit.after, List.map_set]

theorem comeBack_crowd (walks : List (Outing Report)) (hx : tl.visitors[i]? = some x)
    (hp : x.call.phase = .walk) : (tl.crowd walks).step (.comeBack i x.found) =
      (tl.put i { x with call := x.call.comeBack x.found }).crowd (walks.map (·.close i x.found)) := by
  simp only [Crowd.step, crowd_call? walks hx, if_pos hp]
  simp [finish, Crowd.put, crowd, put, List.map_set]

theorem TurnStep.leads {tl' : Timeline} (h : TurnStep answers now i tl tl')
    (walks : List (Outing Report)) : ∃ walks', Leads (tl.crowd walks) (tl'.crowd walks') := by
  cases h with
  | setOut hx _ hp =>
    refine ⟨walks ++ [⟨i, tl.visit.handlers, none⟩], ?_⟩
    rw [← setOut_crowd walks hx hp]
    exact .of_step (by simp)
  | @comeBack x hx _ hp _ =>
    refine ⟨walks.map (·.close i x.found), ?_⟩
    rw [← comeBack_crowd walks hx hp]
    exact .of_step (by simp)
  | step hx _ hs _ _ =>
    refine ⟨walks, ?_⟩
    rw [← step_crowd walks hx hs]
    exact .of_step (by simp)

/-- **A turn is a run of moves of one call.** -/
theorem leads_turn (answers : String → Answer) (now i fuel : Nat) (tl : Timeline)
    (walks : List (Outing Report)) :
    ∃ walks', Leads (tl.crowd walks) ((tl.turn answers now i fuel).crowd walks') :=
  turn_induct (R := fun tl tl' => ∀ walks, ∃ walks', Leads (tl.crowd walks) (tl'.crowd walks'))
    (fun _ walks => ⟨walks, .refl _⟩)
    (fun _ _ _ h h' walks => by
      obtain ⟨walks', hl⟩ := h.leads walks
      obtain ⟨walks'', hl'⟩ := h' walks'
      exact ⟨walks'', hl.trans hl'⟩) fuel tl walks

theorem leads_turnsOf (answers : String → Answer) (now : Nat) (is : List Nat) (tl : Timeline)
    (walks : List (Outing Report)) :
    ∃ walks', Leads (tl.crowd walks) ((tl.turnsOf answers now is).crowd walks') := by
  induction is generalizing tl walks with
  | nil => exact ⟨walks, .refl _⟩
  | cons i is ih =>
    obtain ⟨walks', h⟩ := leads_turn answers now i tl.turnSteps tl walks
    obtain ⟨walks'', h'⟩ := ih (tl.turn answers now i tl.turnSteps) walks'
    exact ⟨walks'', h.trans h'⟩

theorem leads_run (answers : String → Answer) (fuel now : Nat) (tl : Timeline)
    (walks : List (Outing Report)) :
    ∃ walks', Leads (tl.crowd walks) ((tl.run answers fuel now).crowd walks') := by
  induction fuel generalizing now tl walks with
  | zero => exact ⟨walks, .refl _⟩
  | succ fuel ih =>
    obtain ⟨walks', h⟩ := leads_turnsOf answers now tl.order tl walks
    unfold run
    simp only
    split
    · exact ⟨walks', h⟩
    · rename_i t _
      obtain ⟨walks'', h'⟩ := ih t (tl.turns answers now) walks'
      exact ⟨walks'', h.trans h'⟩

/-- **Triggers at given times are a run from an idle gate.** -/
theorem leads_triggers (v : Visit) (answers : String → Answer) (arrivals : List Nat) :
    ∃ walks, Leads (Crowd.start v.handlers) ((v.triggers answers arrivals).crowd walks) := by
  obtain ⟨walks, h⟩ := leads_run answers (2 * arrivals.length + 1) v.clock (start v arrivals) []
  refine ⟨walks, (leads_calls v.handlers arrivals.length).trans ?_⟩
  have hstart : (start v arrivals).crowd [] =
      ⟨.idle, v.handlers, List.replicate arrivals.length (.caller .new), []⟩ := by
    simp [start, crowd, List.map_map, Function.comp_def, List.map_const']
  rwa [hstart] at h

/-- **In the end the gate is idle again.** -/
theorem gate_triggers (v : Visit) (answers : String → Answer) (arrivals : List Nat) :
    (v.triggers answers arrivals).gate = .idle := by
  obtain ⟨walks, h⟩ := leads_triggers v answers arrivals
  refine h.kept.2.1.idle fun p hp => ?_
  obtain ⟨x, hx, rfl⟩ := List.mem_map.1 hp
  have hback := triggers_returned v answers arrivals x hx
  simp [Party.isActive, hback, Phase.isActive]

end Timeline

end PageSweep
