import PageSweep.Proofs.Crowd.Walks

/-!
# Runs of a crowd

A run is a list of moves from an idle gate, and `moment n` is the crowd after the first `n` of them. What
every move keeps holds at every moment; what one move does to the record of walks and to the lock adds up
over the moments in between.

* `owed_or_begins`: between a request and a later moment a walk begins, or the request is still open.
* `held_iff`: the calls with a list to report are those that have held the lock.
* `callers_served_apart`: walks never overlap, no request is lost, and every call reports its own walks.
-/

namespace PageSweep.Crowd

variable {ρ : Type} {handlers : List Handler} {ms : List (Move ρ)}

/-- The crowd after the first `n` moves of a run. -/
def moment (handlers : List Handler) (ms : List (Move ρ)) (n : Nat) : Crowd ρ :=
  (start handlers).run (ms.take n)

theorem moment_step {n : Nat} {m : Move ρ} (h : ms[n]? = some m) :
    moment handlers ms (n + 1) = (moment handlers ms n).step m := by
  simp only [moment, run, List.take_add_one, List.foldl_append, h, Option.toList_some, List.foldl_cons,
    List.foldl_nil]

/-- After the last move nothing changes. -/
theorem moment_over {n : Nat} (h : ms[n]? = none) : moment handlers ms (n + 1) = moment handlers ms n := by
  have hlen := List.getElem?_eq_none_iff.1 h
  unfold moment
  rw [List.take_of_length_le hlen, List.take_of_length_le (by omega)]

theorem moment_change (hm : Move.borrow ∉ ms) {n : Nat} (hs : (moment handlers ms n).OnlyCallers) :
    Change (moment handlers ms n) (moment handlers ms (n + 1)) := by
  cases h : ms[n]? with
  | none =>
    rw [moment_over h]
    exact .same
  | some m =>
    rw [moment_step h]
    refine .of_step hs ?_
    rintro rfl
    exact hm (List.mem_of_getElem? h)

/-- **What holds at every moment.** -/
theorem moment_kept (handlers : List Handler) (hm : Move.borrow ∉ ms) (n : Nat) :
    (moment handlers ms n).OnlyCallers ∧ (moment handlers ms n).Orderly ∧ (moment handlers ms n).Booked := by
  induction n with
  | zero => exact ⟨fun p hp => absurd hp (by simp [moment, run, start]), orderly_start _, booked_start _⟩
  | succ n ih =>
    obtain ⟨hs, ho, hb⟩ := ih
    have hc := moment_change hm hs
    exact ⟨hc.onlyCallers hs, ho.step hc, hb.step hc⟩

/-- **Between a request and a later moment a walk begins, or the request is still open.** -/
theorem owed_or_begins (hm : Move.borrow ∉ ms) {m : Nat} (hw : (moment handlers ms m).Owed) :
    ∀ n, m ≤ n → (moment handlers ms n).Owed ∨
      ∃ k, m ≤ k ∧ k < n ∧ Begins (moment handlers ms k) (moment handlers ms (k + 1)) := by
  intro n
  induction n with
  | zero => intro hmn; exact .inl (by rwa [show m = 0 by omega] at hw)
  | succ n ih =>
    intro hmn
    rcases Nat.eq_or_lt_of_le hmn with h | h
    · exact .inl (h ▸ hw)
    · rcases ih (by omega) with h' | ⟨k, h1, h2, h3⟩
      · rcases h'.step (moment_change hm (moment_kept handlers hm n).1) with h'' | h''
        · exact .inl h''
        · exact .inr ⟨n, by omega, by omega, h''⟩
      · exact .inr ⟨k, h1, by omega, h3⟩

/-- The call of a number takes its first step: it stores its request. -/
def Asks (s : Crowd ρ) (m : Option (Move ρ)) (i : Nat) : Prop :=
  m = some (.step i) ∧ ∃ c, s.call? i = some c ∧ c.phase = .ask

theorem owed_of_asks {n i : Nat} (h : Asks (moment handlers ms n) ms[n]? i) :
    (moment handlers ms (n + 1)).Owed := by
  obtain ⟨hn, c, hc, hp⟩ := h
  rw [moment_step hn]
  simp only [step, call?_eq_some.1 hc]
  exact .inl (by simp [stepCall, Call.step, hp])

/-- A call with a list to report. -/
def HasList (s : Crowd ρ) (i : Nat) : Prop := ∃ c, s.call? i = some c ∧ c.reports.isSome

theorem hasList_put {s : Crowd ρ} {i : Nat} {c : Call ρ} (h : s.call? i = some c) (g : Gate) {d : Call ρ}
    (hd : d.reports.isSome = c.reports.isSome) (j : Nat) : (s.put g i d).HasList j ↔ s.HasList j := by
  unfold HasList
  rw [call?_put h]
  by_cases hj : j = i
  · subst hj; simp [h, hd]
  · simp [hj]

theorem hasList_phase {s : Crowd ρ} {i : Nat} {c : Call ρ} (h : s.call? i = some c) (g : Gate) (p : Phase)
    (j : Nat) : (s.put g i { c with phase := p }).HasList j ↔ s.HasList j :=
  hasList_put h g (d := { c with phase := p }) rfl j

/-- A call gets a list when it takes the lock, and keeps it. -/
theorem Change.hasList {s s' : Crowd ρ} (h : Change s s') (hb : s.Booked) (ho : s'.Orderly)
    (hb' : s'.Booked) (i : Nat) : s'.HasList i ↔ s.HasList i ∨ s'.gate.holder = some i := by
  have hheld : s'.gate.holder = some i → s'.HasList i := fun hi => by
    obtain ⟨c, hc, hp⟩ := (ho.holder i).1 hi
    exact ⟨c, hc, hb'.opened i c hc hp⟩
  -- All but one of the steps keep who has a list.
  suffices (s'.HasList i ↔ s.HasList i) ∨ (s'.HasList i ↔ s.HasList i ∨ s'.gate.holder = some i) by
    rcases this with h' | h'
    · exact ⟨fun h1 => .inl (h'.1 h1), fun h1 => h1.elim h'.2 hheld⟩
    · exact h'
  cases h with
  | same => exact .inl Iff.rfl
  | call =>
    refine .inl ?_
    unfold HasList
    rw [call?_append]
    by_cases hi : i = s.parties.length
    · have hn : s.call? s.parties.length = none := by simp [call?]
      simp [hi, hn, Call.new]
    · simp [hi]
  | reset _ => exact .inl Iff.rfl
  | @enter j c h hp hg =>
    refine .inr ?_
    unfold HasList
    rw [call?_put h]
    by_cases hi : i = j
    · subst hi; simp
    · simp [hi, Ne.symm hi]
  | ask h _ => exact .inl (hasList_phase h _ _ i)
  | lookUp h _ _ => exact .inl (hasList_phase h _ _ i)
  | lookIdle h _ _ => exact .inl (hasList_phase h _ _ i)
  | giveUp h _ _ => exact .inl (hasList_phase h _ _ i)
  | claim h _ _ => exact .inl (hasList_phase h _ _ i)
  | claimNone h _ _ => exact .inl (hasList_phase h _ _ i)
  | leave h _ => exact .inl (hasList_phase h _ _ i)
  | @setOut j c h _ => exact .inl (hasList_phase (s := s.begin_ j) h s.gate _ i)
  | @comeBack j c h hp found =>
    have hc : c.reports.isSome := hb.opened j c h (by simp [hp, Phase.isInside])
    exact .inl (hasList_put h s.gate (d := c.comeBack found) (by simp [Call.comeBack, hc]) i)

/-- **The calls with a list to report are those that have held the lock.** -/
theorem held_iff (hm : Move.borrow ∉ ms) (i n : Nat) :
    (moment handlers ms n).HasList i ↔ ∃ k ≤ n, (moment handlers ms k).gate.holder = some i := by
  induction n with
  | zero =>
    constructor
    · rintro ⟨c, hc, -⟩; simp [moment, run, start, call?] at hc
    · rintro ⟨k, hk, h⟩
      rw [show k = 0 by omega] at h
      simp [moment, run, start, Gate.idle] at h
  | succ n ih =>
    obtain ⟨hs, ho, hb⟩ := moment_kept handlers hm n
    obtain ⟨-, ho', hb'⟩ := moment_kept handlers hm (n + 1)
    rw [(moment_change hm hs).hasList hb ho' hb' i, ih]
    constructor
    · rintro (⟨k, hk, h⟩ | h)
      · exact ⟨k, by omega, h⟩
      · exact ⟨n + 1, Nat.le_refl _, h⟩
    · rintro ⟨k, hk, h⟩
      rcases Nat.eq_or_lt_of_le hk with h' | h'
      · exact .inr (h' ▸ h)
      · exact .inl ⟨k, by omega, h⟩

/-- **Walks apart, requests served, reports kept.** In a run of callers that come, step and are overtaken in
any order while the handlers change: no two walks are under way at once, and a walk lasts under the lock of
its walker; a request is served by a walk that begins after it, through handlers read after it, before all
calls are back; then the gate is idle; a call returns a list just if it has held the lock, namely what its
walks found, in order; and all lists together are what all walks found. -/
theorem callers_served_apart (handlers : List Handler) (ms : List (Move ρ)) (hm : Move.borrow ∉ ms)
    (n : Nat) :
    ((moment handlers ms n).walks.filter (·.found.isNone)).length ≤ 1 ∧
    (∀ w ∈ (moment handlers ms n).walks, w.found = none →
      (moment handlers ms n).gate.holder = some w.walker) ∧
    ((moment handlers ms n).Quiet → ∀ i m, m < n → Asks (moment handlers ms m) ms[m]? i →
      ∃ k, m < k ∧ k < n ∧ Begins (moment handlers ms k) (moment handlers ms (k + 1))) ∧
    ((moment handlers ms n).Quiet → (moment handlers ms n).gate = .idle) ∧
    (∀ i c, (moment handlers ms n).call? i = some c → c.phase = .returned →
      (c.reports.isSome ↔ ∃ k ≤ n, (moment handlers ms k).gate.holder = some i) ∧
      c.reports.getD [] = ((moment handlers ms n).walksOf i).flatMap Outing.reports) ∧
    ((moment handlers ms n).Quiet →
      (∀ w ∈ (moment handlers ms n).walks, w.found.isSome) ∧
      ((moment handlers ms n).parties.flatMap Party.reports).Perm
        ((moment handlers ms n).walks.flatMap Outing.reports)) := by
  obtain ⟨hs, ho, hb⟩ := moment_kept handlers hm n
  refine ⟨hb.apart ho, fun w hw hn => hb.holder ho hw hn, ?_, ho.idle, ?_, ?_⟩
  · intro hq i m hmn hask
    rcases owed_or_begins hm (owed_of_asks hask) n hmn with h | ⟨k, h1, h2, h3⟩
    · exact absurd h (ho.not_owed hq)
    · exact ⟨k, h1, h2, h3⟩
  · intro i c hc _
    refine ⟨?_, hb.sum i c hc⟩
    rw [← held_iff hm]
    exact ⟨fun h => ⟨c, hc, h⟩, fun ⟨d, hd, h⟩ => by rw [hc, Option.some.injEq] at hd; exact hd ▸ h⟩
  · intro hq
    exact ⟨fun w hw => hb.allOver hq hw, hb.perm hs⟩

/-- Two calls: the second asks while the first is on its walk, and finds the lock held. The handlers are
replaced before the first call goes round again. -/
def sharedRun : List (Move Nat) :=
  [.call, .call, .step 0, .step 0, .step 0, .step 0, .step 0, .step 1, .step 1, .step 1,
    .reset [⟨"example.com", "[]"⟩], .comeBack 0 [7], .step 0, .step 0, .step 0, .comeBack 0 [8, 9], .step 0,
    .step 0, .step 0]

theorem callers_served_apart_sharedRun :
    Move.borrow ∉ sharedRun ∧ (moment [] sharedRun 19).Quiet ∧
      Asks (moment [] sharedRun 7) sharedRun[7]? 1 ∧
      (moment [] sharedRun 19).call? 0 = some ⟨.returned, some [7, 8, 9]⟩ ∧
      (moment [] sharedRun 19).call? 1 = some ⟨.returned, none⟩ ∧
      (∃ k, 7 < k ∧ k < 19 ∧ Begins (moment [] sharedRun k) (moment [] sharedRun (k + 1))) ∧
      (moment [] sharedRun 19).gate = .idle ∧
      (∃ k ≤ 19, (moment [] sharedRun k).gate.holder = some 0) ∧
      ¬ ∃ k ≤ 19, (moment [] sharedRun k).gate.holder = some 1 := by
  have hq : (moment [] sharedRun 19).Quiet := by decide
  have h0 : (moment [] sharedRun 19).call? 0 = some ⟨.returned, some [7, 8, 9]⟩ := rfl
  have h1 : (moment [] sharedRun 19).call? 1 = some ⟨.returned, none⟩ := rfl
  have hask : Asks (moment [] sharedRun 7) sharedRun[7]? 1 := ⟨rfl, _, rfl, rfl⟩
  obtain ⟨-, -, hserved, hidle, hlists, -⟩ := callers_served_apart [] sharedRun (by decide) 19
  refine ⟨by decide, hq, hask, h0, h1, hserved hq 1 7 (by omega) hask, hidle hq, ?_, ?_⟩
  · exact (hlists 0 _ h0 rfl).1.1 rfl
  · intro h
    exact absurd ((hlists 1 _ h1 rfl).1.2 h) (by simp)

end PageSweep.Crowd
