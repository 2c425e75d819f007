import PageSweep.Proofs.Crowd.Runs

/-!
# Borrowers at the gate

Others than callers may hold the lock, to look at the page. A call that finds the lock held gives up and leaves
its request to the holder; a call that holds it will look at the flag again, but a borrower will not. So a
request can be lost, and only in this way: some call gave up to a borrower. Then the flag is still up when all
are back.

* `Borrow.step_gate`, `Turn.of_borrower`: what a borrower does.
* `Change.of_step_or_turn`: what one move can do to a crowd with borrowers.
* `shared_moment`: who can hold the lock.
* `open_or_begins`: an open request is served, or has a call to look after it, or was given up to a borrower.
* `served_or_deserted`: all requests of a run.
-/

namespace PageSweep

/-- **At the gate a borrower leaves the flag alone**, and lets in itself or the first of the row at most. -/
theorem Borrow.step_gate (b : Borrow) (i : Nat) (g : Gate) :
    (b.step i g).1.pending = g.pending ∧
    (∀ j, (b.step i g).1.holder = some j → g.holder = some j ∨ j ∈ g.waiting ∨ j = i) ∧
    ∀ j ∈ (b.step i g).1.waiting, j ∈ g.waiting ∨ j = i := by
  cases b with
  | request =>
    simp only [Borrow.step, Gate.request]
    split
    · refine ⟨rfl, fun j hj => .inr (.inr ?_), fun j hj => .inl hj⟩
      exact (Option.some.inj hj).symm
    · refine ⟨rfl, fun j hj => .inl hj, fun j hj => ?_⟩
      rcases List.mem_append.1 hj with hj | hj
      · exact .inl hj
      · exact .inr (List.mem_singleton.1 hj)
  | wait =>
    simp only [Borrow.step]
    split
    · exact ⟨rfl, fun j hj => .inr (.inl (List.mem_of_mem_head? hj)), fun j hj => .inl (List.mem_of_mem_tail hj)⟩
    · exact ⟨rfl, fun j hj => .inl hj, fun j hj => .inl hj⟩
  | returned => exact ⟨rfl, fun j hj => .inl hj, fun j hj => .inl hj⟩

namespace Crowd

variable {ρ : Type} {s s' : Crowd ρ} {handlers : List Handler} {ms : List (Move ρ)}

/-- The party of a number is a borrower. -/
def IsBorrower (s : Crowd ρ) (i : Nat) : Prop := ∃ b, s.parties[i]? = some (.borrower b)

/-- What a borrower does: it comes, or takes its turn at the gate. The gate is the same afterwards but for the
lock, and so are all calls. -/
structure Turn (s s' : Crowd ρ) : Prop where
  pending : s'.gate.pending = s.gate.pending
  calls : ∀ i, s'.call? i = s.call? i
  borrowers : ∀ i, s.IsBorrower i → s'.IsBorrower i
  /-- Who has the lock or stands in the row did so before, or is a borrower. -/
  holder : ∀ i, s'.gate.holder = some i → s.gate.holder = some i ∨ i ∈ s.gate.waiting ∨ s'.IsBorrower i
  waiting : ∀ i ∈ s'.gate.waiting, i ∈ s.gate.waiting ∨ s'.IsBorrower i

theorem IsBorrower.append {i : Nat} (h : s.IsBorrower i) (party : Party ρ) :
    ∃ b, (s.parties ++ [party])[i]? = some (.borrower b) := by
  obtain ⟨b, hb⟩ := h
  exact ⟨b, (List.getElem?_append_left (List.getElem?_eq_some_iff.1 hb).1).trans hb⟩

/-- A borrower takes its turn. -/
theorem Turn.of_borrower {i : Nat} {b : Borrow} (h : s.parties[i]? = some (.borrower b)) :
    Turn s { s with gate := (b.step i s.gate).1, parties := s.parties.set i (.borrower (b.step i s.gate).2) } := by
  have hi : i < s.parties.length := (List.getElem?_eq_some_iff.1 h).1
  obtain ⟨hpending, hholder, hwaiting⟩ := b.step_gate i s.gate
  have hself : (s.parties.set i (.borrower (b.step i s.gate).2))[i]? =
      some (.borrower (b.step i s.gate).2) := List.getElem?_set_self hi
  refine ⟨hpending, fun j => ?_, fun j hj => ?_, fun j hj => ?_, fun j hj => ?_⟩
  · simp only [call?]
    by_cases hj : j = i
    · subst hj
      rw [hself, h]
    · rw [List.getElem?_set_ne (Ne.symm hj)]
  · obtain ⟨b', hb'⟩ := hj
    by_cases hji : j = i
    · subst hji
      exact ⟨_, hself⟩
    · exact ⟨b', (List.getElem?_set_ne (Ne.symm hji)).trans hb'⟩
  · rcases hholder j hj with hj | hj | rfl
    · exact .inl hj
    · exact .inr (.inl hj)
    · exact .inr (.inr ⟨_, hself⟩)
  · rcases hwaiting j hj with hj | rfl
    · exact .inl hj
    · exact .inr ⟨_, hself⟩

/-- **What one move can do to a crowd**: what it does to callers, or what a borrower does. -/
theorem Change.of_step_or_turn (s : Crowd ρ) (m : Move ρ) : Change s (s.step m) ∨ Turn s (s.step m) := by
  cases m with
  | call => exact .inl .call
  | borrow =>
    refine .inr ⟨rfl, fun i => ?_, fun i hi => hi.append _, fun i hi => .inl hi, fun i hi => .inl hi⟩
    rcases Nat.lt_or_ge i s.parties.length with hi | hi
    · simp only [step, call?, List.getElem?_append_left hi]
    · simp only [step, call?, List.getElem?_append_right hi, List.getElem?_eq_none hi]
      cases i - s.parties.length <;> rfl
  | reset handlers => exact .inl (.reset handlers)
  | step i =>
    simp only [step]
    split
    · exact .inl .same
    · rename_i c hc
      exact .inl (.of_stepCall (call?_eq_some.2 hc))
    · rename_i b hb
      exact .inr (.of_borrower hb)
  | comeBack i found =>
    simp only [step]
    split
    · exact .inl .same
    · rename_i c hc
      split
      · rename_i hp
        exact .inl (.comeBack hc hp found)
      · exact .inl .same

/-! ### Who holds the lock -/

/-- **The lock is held by a call that is inside or by a borrower**, and only borrowers stand in the row. -/
structure Shared (s : Crowd ρ) : Prop where
  holder : ∀ i, s.gate.holder = some i →
    (∃ c, s.call? i = some c ∧ c.phase.isInside = true) ∨ s.IsBorrower i
  row : ∀ i ∈ s.gate.waiting, s.IsBorrower i

theorem shared_start (handlers : List Handler) : (start handlers : Crowd ρ).Shared :=
  ⟨fun _ h => by simp [start, Gate.idle] at h, fun _ h => absurd h List.not_mem_nil⟩

theorem Shared.turn (h : s.Shared) (ht : Turn s s') : s'.Shared := by
  have hholder : ∀ i, s.gate.holder = some i →
      (∃ c, s'.call? i = some c ∧ c.phase.isInside = true) ∨ s'.IsBorrower i := by
    intro i hi
    rw [ht.calls]
    exact (h.holder i hi).imp_right (ht.borrowers i)
  refine ⟨fun i hi => ?_, fun i hi => ?_⟩
  · rcases ht.holder i hi with hi | hi | hi
    · exact hholder i hi
    · exact .inr (ht.borrowers i (h.row i hi))
    · exact .inr hi
  · rcases ht.waiting i hi with hi | hi
    · exact ht.borrowers i (h.row i hi)
    · exact hi

/-- A call that changes leaves borrowers alone. -/
theorem isBorrower_put {i j : Nat} {c : Call ρ} (h : s.call? i = some c) (g : Gate) (d : Call ρ)
    (hj : s.IsBorrower j) : (s.put g i d).IsBorrower j := by
  obtain ⟨b, hb⟩ := hj
  refine ⟨b, ?_⟩
  have hne : i ≠ j := by
    rintro rfl
    rw [call?_eq_some, hb] at h
    cases h
  show (s.parties.set i (.caller d))[j]? = _
  rw [List.getElem?_set_ne hne]
  exact hb

/-- A call that changes its phase, but not between inside and outside, keeps the lock where it is. -/
theorem Shared.put (h : s.Shared) {i : Nat} {c : Call ρ} (hc : s.call? i = some c) {g : Gate} {d : Call ρ}
    (hholder : g.holder = s.gate.holder) (hrow : g.waiting = s.gate.waiting)
    (hd : d.phase.isInside = c.phase.isInside) : (s.put g i d).Shared := by
  refine ⟨fun j hj => ?_, fun j hj => isBorrower_put hc g d (h.row j (hrow ▸ hj))⟩
  rw [call?_put hc]
  rcases h.holder j (hholder ▸ hj) with ⟨e, he, hin⟩ | hb
  · by_cases hji : j = i
    · subst hji
      rw [hc, Option.some.injEq] at he
      exact .inl ⟨d, if_pos rfl, by rw [hd, he]; exact hin⟩
    · exact .inl ⟨e, (if_neg hji).trans he, hin⟩
  · exact .inr (isBorrower_put hc g d hb)

theorem Shared.change (h : s.Shared) (hc : Change s s') : s'.Shared := by
  cases hc with
  | same => exact h
  | call =>
    refine ⟨fun i hi => ?_, fun i hi => (h.row i hi).append _⟩
    rcases h.holder i hi with ⟨c, hci, hin⟩ | hb
    · have := lt_of_call? hci
      exact .inl ⟨c, by rw [call?_append, if_neg (by omega)]; exact hci, hin⟩
    · exact .inr (hb.append _)
  | reset _ => exact ⟨h.holder, h.row⟩
  | ask hc hp => exact h.put hc rfl rfl (by simp [hp, Phase.isInside])
  | lookUp hc hp _ => exact h.put hc rfl rfl (by simp [hp, Phase.isInside])
  | lookIdle hc hp _ => exact h.put hc rfl rfl (by simp [hp, Phase.isInside])
  | @enter i c hc hp hg =>
    refine ⟨fun j hj => ?_, fun j hj => isBorrower_put hc _ _ (h.row j hj)⟩
    have hij : i = j := by simpa using hj
    subst hij
    exact .inl ⟨_, by rw [call?_put hc, if_pos rfl], rfl⟩
  | giveUp hc hp _ => exact h.put hc rfl rfl (by simp [hp, Phase.isInside])
  | claim hc hp _ => exact h.put hc rfl rfl (by simp [hp, Phase.isInside])
  | claimNone hc hp _ => exact h.put hc rfl rfl (by simp [hp, Phase.isInside])
  | @setOut i c hc hp =>
    have hb : (s.begin_ i).Shared := ⟨h.holder, h.row⟩
    exact hb.put hc rfl rfl (by simp [hp, Phase.isInside])
  | @comeBack i c hc hp found =>
    have hb := h.put (d := c.comeBack found) hc (g := s.gate) rfl rfl
      (by simp [hp, Phase.isInside, Call.comeBack])
    exact ⟨hb.holder, hb.row⟩
  | @leave i c hc hp =>
    -- The lock goes to the first of the row, who is a borrower.
    have hrow : ∀ j ∈ s.gate.waiting, (s.put s.gate.release i { c with phase := .look }).IsBorrower j :=
      fun j hj => isBorrower_put hc _ _ (h.row j hj)
    exact ⟨fun j hj => .inr (hrow j (List.mem_of_mem_head? hj)), fun j hj => hrow j (List.mem_of_mem_tail hj)⟩

theorem shared_moment (handlers : List Handler) (ms : List (Move ρ)) (n : Nat) :
    (moment handlers ms n).Shared := by
  refine List.foldlRecOn (ms.take n) step (shared_start handlers) fun s hs m _ => ?_
  rcases Change.of_step_or_turn s m with hc | ht
  · exact hs.change hc
  · exact hs.turn ht

/-! ### Requests -/

/-- Some call is still going to look whether a walk is asked for. -/
def Tended (s : Crowd ρ) : Prop := ∃ i c, s.call? i = some c ∧ c.phase.isActive = true

/-- **A call gives up to a borrower.** -/
def Deserts (s s' : Crowd ρ) : Prop := ∃ i c, s.call? i = some c ∧ c.phase = .enter ∧
  (∃ k, s.gate.holder = some k ∧ s.IsBorrower k) ∧ s' = s.put s.gate i { c with phase := .returned }

theorem tended_put {i : Nat} {c : Call ρ} (hc : s.call? i = some c) (g : Gate) {d : Call ρ}
    (hd : d.phase.isActive = true) : (s.put g i d).Tended :=
  ⟨i, d, by rw [call?_put hc, if_pos rfl], hd⟩

/-- **An open request with a call to look after it** keeps one, unless the call gives up to a borrower. -/
theorem Owed.tended (hw : s.Owed) (hs : s.Shared) (ht : s.Tended) (hc : Change s s') :
    Begins s s' ∨ s'.Tended ∨ Deserts s s' := by
  cases hc with
  | same => exact .inr (.inl ht)
  | call =>
    obtain ⟨i, c, hi, ha⟩ := ht
    have := lt_of_call? hi
    exact .inr (.inl ⟨i, c, by rw [call?_append, if_neg (by omega)]; exact hi, ha⟩)
  | reset _ => exact .inr (.inl ht)
  | ask hc _ => exact .inr (.inl (tended_put hc _ rfl))
  | lookUp hc _ _ => exact .inr (.inl (tended_put hc _ rfl))
  | @lookIdle i c hc hp hg =>
    -- The flag is down, so another call is about to set out.
    rcases hw with hw | ⟨j, e, hj, he⟩
    · rw [hg] at hw
      cases hw
    · have hji : j ≠ i := by
        rintro rfl
        rw [hj, Option.some.injEq] at hc
        rw [← hc, he] at hp
        cases hp
      exact .inr (.inl ⟨j, e, by rw [call?_put hc, if_neg hji]; exact hj, by rw [he]; rfl⟩)
  | enter hc _ _ => exact .inr (.inl (tended_put hc _ rfl))
  | @giveUp i c hc hp hg =>
    obtain ⟨k, hk⟩ := Option.isSome_iff_exists.1 hg
    rcases hs.holder k hk with ⟨e, he, hin⟩ | hb
    · have hki : k ≠ i := by
        rintro rfl
        rw [hc, Option.some.injEq] at he
        rw [← he, hp] at hin
        cases hin
      refine .inr (.inl ⟨k, e, by rw [call?_put hc, if_neg hki]; exact he, ?_⟩)
      revert hin
      cases e.phase <;> simp [Phase.isInside, Phase.isActive]
    · exact .inr (.inr ⟨i, c, hc, hp, ⟨k, hk, hb⟩, rfl⟩)
  | claim hc _ _ => exact .inr (.inl (tended_put hc _ rfl))
  | claimNone hc _ _ => exact .inr (.inl (tended_put hc _ rfl))
  | setOut _ _ => exact .inl ⟨_, rfl⟩
  | @comeBack i c hc hp found => exact .inr (.inl (tended_put hc s.gate (d := c.comeBack found) rfl))
  | leave hc _ => exact .inr (.inl (tended_put hc _ rfl))

theorem Turn.owed (h : Turn s s') (hw : s.Owed) : s'.Owed := by
  rcases hw with hw | ⟨i, c, hi, hc⟩
  · exact .inl (h.pending.trans hw)
  · exact .inr ⟨i, c, (h.calls i).trans hi, hc⟩

theorem Turn.tended (h : Turn s s') (ht : s.Tended) : s'.Tended := by
  obtain ⟨i, c, hi, hc⟩ := ht
  exact ⟨i, c, (h.calls i).trans hi, hc⟩

theorem moment_change_or_turn (handlers : List Handler) (ms : List (Move ρ)) (n : Nat) :
    Change (moment handlers ms n) (moment handlers ms (n + 1)) ∨
      Turn (moment handlers ms n) (moment handlers ms (n + 1)) := by
  cases h : ms[n]? with
  | none =>
    rw [moment_over h]
    exact .inl .same
  | some m =>
    rw [moment_step h]
    exact Change.of_step_or_turn _ m

/-- **Between a request and a later moment** a walk begins, or the request is still open; and then a call is
still going to look, or one has given up to a borrower. -/
theorem open_or_begins {m : Nat} (hw : (moment handlers ms m).Owed) (ht : (moment handlers ms m).Tended) :
    ∀ n, m ≤ n →
      (∃ k, m ≤ k ∧ k < n ∧ Begins (moment handlers ms k) (moment handlers ms (k + 1))) ∨
      ((moment handlers ms n).Owed ∧ ((moment handlers ms n).Tended ∨
        ∃ k, m ≤ k ∧ k < n ∧ Deserts (moment handlers ms k) (moment handlers ms (k + 1)))) := by
  intro n
  induction n with
  | zero =>
    intro hmn
    rw [show m = 0 by omega] at hw ht
    exact .inr ⟨hw, .inl ht⟩
  | succ n ih =>
    intro hmn
    rcases Nat.eq_or_lt_of_le hmn with h | h
    · exact .inr ⟨h ▸ hw, .inl (h ▸ ht)⟩
    have hmn' : m ≤ n := by omega
    rcases ih hmn' with ⟨k, h1, h2, h3⟩ | ⟨hopen, hlook⟩
    · exact .inl ⟨k, h1, by omega, h3⟩
    rcases moment_change_or_turn handlers ms n with hc | hturn
    · rcases hopen.step hc with hopen' | hbegins
      · rcases hlook with hlook | ⟨k, h1, h2, h3⟩
        · rcases hopen.tended (shared_moment handlers ms n) hlook hc with hb | hlook' | hd
          · exact .inl ⟨n, hmn', by omega, hb⟩
          · exact .inr ⟨hopen', .inl hlook'⟩
          · exact .inr ⟨hopen', .inr ⟨n, hmn', by omega, hd⟩⟩
        · exact .inr ⟨hopen', .inr ⟨k, h1, by omega, h3⟩⟩
      · exact .inl ⟨n, hmn', by omega, hbegins⟩
    · refine .inr ⟨hturn.owed hopen, ?_⟩
      rcases hlook with hlook | ⟨k, h1, h2, h3⟩
      · exact .inl (hturn.tended hlook)
      · exact .inr ⟨k, h1, by omega, h3⟩

theorem tended_of_asks {n i : Nat} (h : Asks (moment handlers ms n) ms[n]? i) :
    (moment handlers ms (n + 1)).Tended := by
  obtain ⟨hn, c, hc, hp⟩ := h
  rw [moment_step hn]
  simp only [step, call?_eq_some.1 hc]
  refine ⟨i, (c.step i (moment handlers ms n).gate).2, ?_, by simp [Call.step, hp, Phase.isActive]⟩
  rw [stepCall, if_neg (by simp [hp]), call?_put hc, if_pos rfl]

/-- **A request is served, or was given up to a borrower.** Whoever comes to the gate, callers and borrowers in
any order: when all are back, a walk has begun after each request, or the flag is still up and after the
request some call gave up while a borrower had the lock. -/
theorem served_or_deserted (handlers : List Handler) (ms : List (Move ρ)) {i m n : Nat} (hmn : m < n)
    (hask : Asks (moment handlers ms m) ms[m]? i) (hq : (moment handlers ms n).Quiet) :
    (∃ k, m < k ∧ k < n ∧ Begins (moment handlers ms k) (moment handlers ms (k + 1))) ∨
    ((moment handlers ms n).gate.pending = true ∧
      ∃ k, m < k ∧ k < n ∧ Deserts (moment handlers ms k) (moment handlers ms (k + 1))) := by
  have hnobody : ¬ (moment handlers ms n).Tended := by
    rintro ⟨j, c, hj, ha⟩
    rw [hq.call hj] at ha
    cases ha
  rcases open_or_begins (owed_of_asks hask) (tended_of_asks hask) n hmn with
    ⟨k, h1, h2, h3⟩ | ⟨hopen, hlook⟩
  · exact .inl ⟨k, h1, h2, h3⟩
  · refine .inr ⟨?_, ?_⟩
    · rcases hopen with hpending | ⟨j, c, hj, hp⟩
      · exact hpending
      · exact absurd ⟨j, c, hj, by rw [hp]; rfl⟩ hnobody
    · rcases hlook with hlook | ⟨k, h1, h2, h3⟩
      · exact absurd hlook hnobody
      · exact ⟨k, h1, h2, h3⟩

/-- A borrower takes the lock, and a call asks for a walk and gives up before the borrower is done. -/
def desertedRun : List (Move Nat) :=
  [.call, .borrow, .step 1, .step 0, .step 0, .step 0, .step 1]

theorem served_or_deserted_desertedRun :
    Asks (moment [] desertedRun 3) desertedRun[3]? 0 ∧ (moment [] desertedRun 7).Quiet ∧
      ((∃ k, 3 < k ∧ k < 7 ∧ Begins (moment [] desertedRun k) (moment [] desertedRun (k + 1))) ∨
      ((moment [] desertedRun 7).gate.pending = true ∧
        ∃ k, 3 < k ∧ k < 7 ∧ Deserts (moment [] desertedRun k) (moment [] desertedRun (k + 1)))) := by
  have hask : Asks (moment [] desertedRun 3) desertedRun[3]? 0 := ⟨rfl, _, rfl, rfl⟩
  have hq : (moment [] desertedRun 7).Quiet := by decide
  exact ⟨hask, hq, served_or_deserted [] desertedRun (by omega) hask hq⟩

/-- The call comes back with nothing, and no walk ever begins: neither for a call that gives up to a borrower
at once, nor for one that gives up to a walker who then gives the lock to a borrower. -/
def handedOverRun : List (Move Nat) :=
  [.call, .call, .borrow, .step 0, .step 0, .step 0, .step 0, .step 0, .step 2, .comeBack 0 [7], .step 0, .step 1,
    .step 1, .step 1, .step 0, .step 0, .step 0, .step 2]

theorem requests_lost_to_borrowers :
    ((moment [] desertedRun 7).Quiet ∧ (moment [] desertedRun 7).call? 0 = some ⟨.returned, none⟩ ∧
      (moment [] desertedRun 7).walks = [] ∧ (moment [] desertedRun 7).gate = ⟨true, none, []⟩) ∧
    Asks (moment [] handedOverRun 11) handedOverRun[11]? 1 ∧ (moment [] handedOverRun 18).Quiet ∧
      (moment [] handedOverRun 18).call? 1 = some ⟨.returned, none⟩ ∧
      (moment [] handedOverRun 18).walks = (moment [] handedOverRun 11).walks ∧
      (moment [] handedOverRun 18).gate = ⟨true, none, []⟩ :=
  ⟨⟨by decide, rfl, rfl, rfl⟩, ⟨rfl, _, rfl, rfl⟩, by decide, rfl, rfl, rfl⟩

end Crowd

end PageSweep
