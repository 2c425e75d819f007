import PageSweep.Proofs.Crowd.Basic

/-!
# The lock of a crowd

In a crowd of callers the lock is held by the one call that is inside, and a request is never left to
nobody: a call that gives up leaves it to the holder, and the holder looks again after it let go.

* `Orderly.step`: the two facts are kept by every move.
* `Orderly.alone`: no two calls are inside at once.
* `Orderly.idle`: where nobody is to come back, the gate is as at the start.
* `Owed.step`: a request stays open until a walk begins.
-/

namespace PageSweep.Crowd

variable {ρ : Type}

/-- **The invariant of a gate that only callers use.** -/
structure Orderly (s : Crowd ρ) : Prop where
  /-- Nobody stands in the row. -/
  row : s.gate.waiting = []
  /-- The lock is held by the one call that is inside. -/
  holder : ∀ i, s.gate.holder = some i ↔ ∃ c, s.call? i = some c ∧ c.phase.isInside = true
  /-- While a walk is asked for, some call is still going to look. -/
  asked : s.gate.pending = true → ∃ i c, s.call? i = some c ∧ c.phase.isActive = true

theorem orderly_start (handlers : List Handler) : (start handlers : Crowd ρ).Orderly :=
  ⟨rfl, fun i => by simp [start, Gate.idle, call?], fun h => by simp [start, Gate.idle] at h⟩

/-- A call inside holds the lock. -/
theorem Orderly.held {s : Crowd ρ} (ho : s.Orderly) {i : Nat} {c : Call ρ} (h : s.call? i = some c)
    (hp : c.phase.isInside = true) : s.gate.holder = some i := (ho.holder i).2 ⟨c, h, hp⟩

/-- A call that changes its phase, but not between inside and outside, keeps the lock where it is. -/
theorem Orderly.put {s : Crowd ρ} (ho : s.Orderly) {i : Nat} {c : Call ρ} (h : s.call? i = some c)
    {g : Gate} {d : Call ρ} (hw : g.waiting = s.gate.waiting) (hh : g.holder = s.gate.holder)
    (hd : d.phase.isInside = c.phase.isInside)
    (hp : g.pending = true → d.phase.isActive = true ∨ ∃ j e, j ≠ i ∧ s.call? j = some e ∧
      e.phase.isActive = true) : (s.put g i d).Orderly := by
  refine ⟨hw.trans ho.row, fun j => ?_, fun hg => ?_⟩
  · rw [show (s.put g i d).gate.holder = s.gate.holder from hh, ho.holder j, call?_put h]
    by_cases hj : j = i
    · subst hj; simp [h, hd]
    · simp [hj]
  · rcases hp hg with h' | ⟨j, e, hj, he, ha⟩
    · exact ⟨i, d, by simp [call?_put h], h'⟩
    · exact ⟨j, e, by simp [call?_put h, hj, he], ha⟩

theorem Orderly.step {s s' : Crowd ρ} (ho : s.Orderly) (h : Change s s') : s'.Orderly := by
  cases h with
  -- What comes from outside: a new call, or new handlers.
  | same => exact ho
  | call =>
    refine ⟨ho.row, fun j => ?_, fun hg => ?_⟩
    · rw [call?_append]
      by_cases hj : j = s.parties.length
      · subst hj
        -- The new number is nobody's yet, and the new call is not inside.
        have hn : s.gate.holder ≠ some s.parties.length := fun h' => by
          obtain ⟨c, hc, -⟩ := (ho.holder _).1 h'
          exact absurd (lt_of_call? hc) (Nat.lt_irrefl _)
        simp [hn, Call.new, Phase.isInside]
      · rw [if_neg hj]; exact ho.holder j
    · obtain ⟨i, c, hi, ha⟩ := ho.asked hg
      have := lt_of_call? hi
      exact ⟨i, c, by rw [call?_append, if_neg (by omega)]; exact hi, ha⟩
  | reset _ => exact ⟨ho.row, ho.holder, ho.asked⟩
  -- Before the lock: a call that asks is one of those that still look, and one that goes has seen no request.
  | ask h hp => exact ho.put h rfl rfl (by simp [hp, Phase.isInside]) fun _ => .inl rfl
  | lookUp h hp _ => exact ho.put h rfl rfl (by simp [hp, Phase.isInside]) fun _ => .inl rfl
  | lookIdle h hp hg =>
    exact ho.put h rfl rfl (by simp [hp, Phase.isInside]) fun hg' => absurd hg' (by simp [hg])
  -- At the lock: if it is free, nobody was inside, and if not, the call leaves its request to the holder.
  | @enter i c h hp hg =>
    refine ⟨ho.row, fun j => ?_, fun _ => ⟨i, _, by rw [call?_put h, if_pos rfl], rfl⟩⟩
    rw [call?_put h]
    by_cases hj : j = i
    · subst hj; simp [Phase.isInside]
    · have hn : ¬ ∃ c, s.call? j = some c ∧ c.phase.isInside = true := by
        rw [← ho.holder j, hg]; simp
      simpa [hj, Ne.symm hj] using hn
  | @giveUp i c h hp hg =>
    -- The holder is another call, and it will look again before it returns.
    obtain ⟨k, hk⟩ := Option.isSome_iff_exists.1 hg
    obtain ⟨e, he, hin⟩ := (ho.holder k).1 hk
    refine ho.put h rfl rfl (by simp [hp, Phase.isInside]) fun _ => .inr ⟨k, e, ?_, he, ?_⟩
    · rintro rfl
      rw [h, Option.some.injEq] at he
      subst he; simp [hp, Phase.isInside] at hin
    · revert hin; cases e.phase <;> simp [Phase.isInside, Phase.isActive]
  -- Inside: the call keeps the lock, and a request that it takes is open no more.
  | claim h hp _ =>
    exact ho.put h rfl rfl (by simp [hp, Phase.isInside]) fun hg' => absurd hg' (by simp)
  | claimNone h hp _ => exact ho.put h rfl rfl (by simp [hp, Phase.isInside]) fun _ => .inl rfl
  | @setOut i c h hp =>
    have hb : (s.begin_ i).Orderly := ⟨ho.row, ho.holder, ho.asked⟩
    exact hb.put h rfl rfl (by simp [hp, Phase.isInside]) fun _ => .inl rfl
  | @comeBack i c h hp found =>
    have hb := ho.put (d := c.comeBack found) h (g := s.gate) rfl rfl
      (by simp [hp, Phase.isInside, Call.comeBack]) fun _ => .inl rfl
    exact ⟨hb.row, hb.holder, hb.asked⟩
  -- Behind the lock: it is free again, and the call that left looks once more.
  | @leave i c h hp =>
    have hr : s.gate.release.holder = none := (Gate.holder_release s.gate).2 ho.row
    refine ⟨by simp [Gate.release, ho.row], fun j => ?_,
      fun _ => ⟨i, _, by rw [call?_put h, if_pos rfl], rfl⟩⟩
    rw [call?_put h, show (s.put s.gate.release i { c with phase := .look }).gate.holder = none from hr]
    by_cases hj : j = i
    · subst hj; simp [Phase.isInside]
    · -- Nobody else was inside, since the lock was held by the one that leaves.
      have hi : s.gate.holder = some i := ho.held h (by simp [hp, Phase.isInside])
      have hn : ¬ ∃ c, s.call? j = some c ∧ c.phase.isInside = true := by
        rw [← ho.holder j, hi]; simpa using Ne.symm hj
      simpa [hj] using hn

/-- **No two calls are inside at once.** -/
theorem Orderly.alone {s : Crowd ρ} (ho : s.Orderly) {i j : Nat} {c d : Call ρ} (hi : s.call? i = some c)
    (hj : s.call? j = some d) (hc : c.phase.isInside = true) (hd : d.phase.isInside = true) : i = j :=
  Option.some.inj ((ho.held hi hc).symm.trans (ho.held hj hd))

/-- **Where nobody is to come back, the gate is as at the start.** -/
theorem Orderly.idle {s : Crowd ρ} (ho : s.Orderly) (hq : s.Quiet) : s.gate = .idle := by
  have hp : s.gate.pending = false := by
    by_contra hp
    obtain ⟨i, c, hi, ha⟩ := ho.asked (by simpa using hp)
    simp [hq.call hi] at ha
  have hh : s.gate.holder = none := by
    rw [Option.eq_none_iff_forall_ne_some]
    intro i hi
    obtain ⟨c, hc, hin⟩ := (ho.holder i).1 hi
    have := hq.call hc
    revert hin this; cases c.phase <;> simp [Phase.isInside, Phase.isActive]
  have hr := ho.row
  cases hg : s.gate with
  | mk pending holder waiting => simp_all [Gate.idle]

/-! ### Requests -/

/-- A walk is still to begin: it is asked for, or a call is about to set out. -/
def Owed (s : Crowd ρ) : Prop := s.gate.pending = true ∨ ∃ i c, s.call? i = some c ∧ c.phase = .setOut

/-- A walk begins, through the handlers as they are. -/
def Begins (s s' : Crowd ρ) : Prop := ∃ i, s'.walks = s.walks ++ [⟨i, s.handlers, none⟩]

/-- A call that is not about to set out leaves those alone that are. -/
theorem Owed.put {s : Crowd ρ} (hw : s.Owed) {i : Nat} {c : Call ρ} (h : s.call? i = some c)
    (hc : c.phase ≠ .setOut) {g : Gate} (hg : g.pending = s.gate.pending) (d : Call ρ) :
    (s.put g i d).Owed := by
  rcases hw with hw | ⟨j, e, hj, he⟩
  · exact .inl (hg.trans hw)
  · refine .inr ⟨j, e, ?_, he⟩
    rw [call?_put h, if_neg ?_, hj]
    rintro rfl
    rw [h, Option.some.injEq] at hj
    exact hc (hj ▸ he)

/-- **A request stays open until a walk begins.** -/
theorem Owed.step {s s' : Crowd ρ} (hw : s.Owed) (h : Change s s') : s'.Owed ∨ Begins s s' := by
  cases h with
  | same => exact .inl hw
  | call =>
    rcases hw with hw | ⟨i, c, hi, hc⟩
    · exact .inl (.inl hw)
    · have := lt_of_call? hi
      exact .inl (.inr ⟨i, c, by rw [call?_append, if_neg (by omega)]; exact hi, hc⟩)
  | reset _ => exact .inl hw
  | ask _ _ => exact .inl (.inl rfl)
  | lookUp h hp _ => exact .inl (hw.put h (by simp [hp]) rfl _)
  | lookIdle h hp _ => exact .inl (hw.put h (by simp [hp]) rfl _)
  | enter h hp _ => exact .inl (hw.put h (by simp [hp]) rfl _)
  | giveUp h hp _ => exact .inl (hw.put h (by simp [hp]) rfl _)
  | claim h _ _ => exact .inl (.inr ⟨_, _, by rw [call?_put h, if_pos rfl], rfl⟩)
  | claimNone h hp _ => exact .inl (hw.put h (by simp [hp]) rfl _)
  | setOut _ _ => exact .inr ⟨_, rfl⟩
  | @comeBack i c h hp found => exact .inl (hw.put (d := c.comeBack found) h (by simp [hp]) (g := s.gate) rfl)
  | leave h hp => exact .inl (hw.put h (by simp [hp]) rfl _)

theorem Orderly.not_owed {s : Crowd ρ} (ho : s.Orderly) (hq : s.Quiet) : ¬ s.Owed := by
  rintro (h | ⟨i, c, hi, hc⟩)
  · simp [ho.idle hq, Gate.idle] at h
  · have := hq.call hi
    simp [hc, Phase.isActive] at this

end PageSweep.Crowd
