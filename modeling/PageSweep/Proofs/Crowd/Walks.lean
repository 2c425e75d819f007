import Mathlib.Data.List.Induction
import PageSweep.Proofs.Crowd.Lock

/-!
# The walks of a crowd

The record of walks against what the calls have to report.

* `Booked.step`: what a call has to report is what its walks found, in their order.
* `Booked.apart`: at most one walk is under way.
-/

namespace PageSweep.Crowd

variable {ρ : Type}

theorem walksOf_begin (s : Crowd ρ) (i j : Nat) :
    (s.begin_ i).walksOf j = s.walksOf j ++ if j = i then [⟨i, s.handlers, none⟩] else [] := by
  unfold walksOf begin_
  rw [List.filter_append]
  by_cases hj : j = i
  · subst hj; simp
  · simp [hj, Ne.symm hj]

theorem walksOf_finish (s : Crowd ρ) (i j : Nat) (c : Call ρ) (found : List ρ) :
    (s.finish i c found).walksOf j = (s.walksOf j).map (·.close i found) := by
  unfold walksOf finish
  rw [List.filter_map]
  congr 1
  exact List.filter_congr fun w _ => by simp

/-- Walks of others, and walks that are over, are not closed again. -/
theorem map_close_eq_self {l : List (Outing ρ)} {i : Nat} (found : List ρ)
    (h : ∀ w ∈ l, w.walker ≠ i ∨ w.found.isSome) : l.map (·.close i found) = l := by
  rw [List.map_congr_left (g := id) fun w hw => ?_, List.map_id]
  rcases h w hw with h | h
  · exact Outing.close_of_ne h
  · exact Outing.close_of_over h

theorem walker_of_mem {s : Crowd ρ} {i : Nat} {w : Outing ρ} (h : w ∈ s.walksOf i) : w.walker = i := by
  simpa using (List.mem_filter.1 h).2

/-- **What a call has to report, and the walks it had.** -/
structure Booked (s : Crowd ρ) : Prop where
  /-- Every walk is one of a call. -/
  known : ∀ w ∈ s.walks, ∃ c, s.call? w.walker = some c
  /-- The walks of a call that is on none are over. -/
  ended : ∀ i c, s.call? i = some c → c.phase ≠ .walk → ∀ w ∈ s.walksOf i, w.found.isSome
  /-- A call on a walk is on its last one. -/
  under : ∀ i c, s.call? i = some c → c.phase = .walk →
    ∃ done handlers, s.walksOf i = done ++ [⟨i, handlers, none⟩] ∧ ∀ w ∈ done, w.found.isSome
  sum : ∀ i c, s.call? i = some c → c.reports.getD [] = (s.walksOf i).flatMap Outing.reports
  /-- A call inside has a list to report. -/
  opened : ∀ i c, s.call? i = some c → c.phase.isInside = true → c.reports.isSome

theorem booked_start (handlers : List Handler) : (start handlers : Crowd ρ).Booked := by
  refine ⟨fun w h => ?_, ?_, ?_, ?_, ?_⟩
  · simp [start] at h
  all_goals intro i c h; simp [start, call?] at h

/-- A move that changes one call and its walks, and leaves the others and theirs as they are. -/
theorem Booked.update {s s' : Crowd ρ} (hb : s.Booked) {i : Nat} {d : Call ρ}
    (hcall : ∀ j, s'.call? j = if j = i then some d else s.call? j)
    (hothers : ∀ j, j ≠ i → s'.walksOf j = s.walksOf j)
    (hended : d.phase ≠ .walk → ∀ w ∈ s'.walksOf i, w.found.isSome)
    (hunder : d.phase = .walk →
      ∃ done handlers, s'.walksOf i = done ++ [⟨i, handlers, none⟩] ∧ ∀ w ∈ done, w.found.isSome)
    (hsum : d.reports.getD [] = (s'.walksOf i).flatMap Outing.reports)
    (hopened : d.phase.isInside = true → d.reports.isSome) : s'.Booked := by
  have hcase : ∀ {j e}, s'.call? j = some e → j = i ∧ e = d ∨ j ≠ i ∧ s.call? j = some e := by
    intro j e hj
    rw [hcall] at hj
    split at hj
    · rename_i hji
      exact .inl ⟨hji, (Option.some.inj hj).symm⟩
    · rename_i hji
      exact .inr ⟨hji, hj⟩
  refine ⟨fun w hw => ?_, fun j e hj he => ?_, fun j e hj he => ?_, fun j e hj => ?_, fun j e hj he => ?_⟩
  · by_cases hi : w.walker = i
    · exact ⟨d, by rw [hcall, if_pos hi]⟩
    · have hw' : w ∈ s'.walksOf w.walker := List.mem_filter.2 ⟨hw, by simp⟩
      rw [hothers _ hi] at hw'
      rw [hcall, if_neg hi]
      exact hb.known w (List.mem_filter.1 hw').1
  · rcases hcase hj with ⟨rfl, rfl⟩ | ⟨hji, hj⟩
    · exact hended he
    · rw [hothers j hji]
      exact hb.ended j e hj he
  · rcases hcase hj with ⟨rfl, rfl⟩ | ⟨hji, hj⟩
    · exact hunder he
    · rw [hothers j hji]
      exact hb.under j e hj he
  · rcases hcase hj with ⟨rfl, rfl⟩ | ⟨hji, hj⟩
    · exact hsum
    · rw [hothers j hji]
      exact hb.sum j e hj
  · rcases hcase hj with ⟨rfl, rfl⟩ | ⟨-, hj⟩
    · exact hopened he
    · exact hb.opened j e hj he

/-- A step that begins or ends no walk, and keeps what was found. -/
theorem Booked.put {s : Crowd ρ} (hb : s.Booked) {i : Nat} {c : Call ρ} (h : s.call? i = some c)
    (hc : c.phase ≠ .walk) (g : Gate) {d : Call ρ} (hd : d.phase ≠ .walk)
    (hr : d.reports.getD [] = c.reports.getD []) (hi : d.phase.isInside = true → d.reports.isSome) :
    (s.put g i d).Booked :=
  hb.update (call?_put h g d) (fun _ _ => rfl) (fun _ => hb.ended i c h hc) (fun he => absurd he hd)
    (hr.trans (hb.sum i c h)) hi

theorem Booked.setOut {s : Crowd ρ} (hb : s.Booked) {i : Nat} {c : Call ρ} (h : s.call? i = some c)
    (hp : c.phase = .setOut) : ((s.begin_ i).put s.gate i { c with phase := .walk }).Booked := by
  have hwalks : ∀ j, ((s.begin_ i).put s.gate i { c with phase := .walk }).walksOf j =
      s.walksOf j ++ if j = i then [⟨i, s.handlers, none⟩] else [] := walksOf_begin s i
  have hmine := hwalks i
  rw [if_pos rfl] at hmine
  refine hb.update (call?_put (s := s.begin_ i) h s.gate _) (fun j hj => ?_) (fun he => absurd rfl he)
    (fun _ => ⟨_, _, hmine, hb.ended i c h (by simp [hp])⟩) ?_
    (fun _ => hb.opened i c h (by simp [hp, Phase.isInside]))
  · rw [hwalks, if_neg hj, List.append_nil]
  · rw [hmine, List.flatMap_append, ← hb.sum i c h]
    simp [Outing.reports]

theorem Booked.comeBack {s : Crowd ρ} (hb : s.Booked) {i : Nat} {c : Call ρ} (h : s.call? i = some c)
    (hp : c.phase = .walk) (found : List ρ) : (s.finish i c found).Booked := by
  obtain ⟨done, handlers, hlast, hdone⟩ := hb.under i c h hp
  -- The last walk of the call is closed, and all others stay as they are.
  have hmine : (s.finish i c found).walksOf i = done ++ [⟨i, handlers, some found⟩] := by
    rw [walksOf_finish, hlast, List.map_append, map_close_eq_self found fun w hw => .inr (hdone w hw)]
    simp [Outing.close]
  have hothers : ∀ j, j ≠ i → (s.finish i c found).walksOf j = s.walksOf j := by
    intro j hj
    rw [walksOf_finish]
    exact map_close_eq_self found fun w hw => .inl (by rw [walker_of_mem hw]; exact hj)
  refine hb.update (call?_put h s.gate (c.comeBack found)) hothers (fun _ w hw => ?_)
    (fun he => absurd he (by simp [Call.comeBack])) ?_ (fun _ => rfl)
  · rw [hmine] at hw
    rcases List.mem_append.1 hw with hw | hw
    · exact hdone w hw
    · rw [List.mem_singleton.1 hw]
      rfl
  · have hsum := hb.sum i c h
    rw [hlast] at hsum
    rw [hmine]
    simpa [Call.comeBack, Outing.reports] using hsum

theorem Booked.call {s : Crowd ρ} (hb : s.Booked) :
    ({ s with parties := s.parties ++ [.caller .new] } : Crowd ρ).Booked := by
  -- A new number has no walks yet.
  have hnone : s.walksOf s.parties.length = [] := by
    rw [walksOf, List.filter_eq_nil_iff]
    intro w hw hn
    obtain ⟨c, hc⟩ := hb.known w hw
    have := lt_of_call? hc
    simp at hn
    omega
  have hmine : ({ s with parties := s.parties ++ [.caller .new] } : Crowd ρ).walksOf s.parties.length = [] :=
    hnone
  refine hb.update (call?_append s) (fun _ _ => rfl) (fun _ w hw => ?_)
    (fun he => absurd he (by simp [Call.new])) ?_ (fun he => absurd he (by simp [Call.new, Phase.isInside]))
  · rw [hmine] at hw
    exact absurd hw List.not_mem_nil
  · rw [hmine]
    rfl

theorem Booked.step {s s' : Crowd ρ} (hb : s.Booked) (h : Change s s') : s'.Booked := by
  cases h with
  | same => exact hb
  | call => exact hb.call
  | reset _ => exact ⟨hb.known, hb.ended, hb.under, hb.sum, hb.opened⟩
  | ask h hp => exact hb.put h (by simp [hp]) _ (by simp) rfl (by simp [Phase.isInside])
  | lookUp h hp _ => exact hb.put h (by simp [hp]) _ (by simp) rfl (by simp [Phase.isInside])
  | lookIdle h hp _ => exact hb.put h (by simp [hp]) _ (by simp) rfl (by simp [Phase.isInside])
  | enter h hp _ => exact hb.put h (by simp [hp]) _ (by simp) rfl fun _ => rfl
  | giveUp h hp _ => exact hb.put h (by simp [hp]) _ (by simp) rfl (by simp [Phase.isInside])
  | @claim i c h hp _ =>
    have hr : c.reports.isSome := hb.opened i c h (by simp [hp, Phase.isInside])
    exact hb.put h (by simp [hp]) _ (by simp) rfl fun _ => hr
  | @claimNone i c h hp _ =>
    have hr : c.reports.isSome := hb.opened i c h (by simp [hp, Phase.isInside])
    exact hb.put h (by simp [hp]) _ (by simp) rfl fun _ => hr
  | setOut h hp => exact hb.setOut h hp
  | comeBack h hp found => exact hb.comeBack h hp found
  | leave h hp => exact hb.put h (by simp [hp]) _ (by simp) rfl (by simp [Phase.isInside])

/-- The walker of a walk under way is on it. -/
theorem Booked.onWalk {s : Crowd ρ} (hb : s.Booked) {w : Outing ρ} (hw : w ∈ s.walks)
    (hn : w.found = none) : ∃ c, s.call? w.walker = some c ∧ c.phase = .walk := by
  obtain ⟨c, hc⟩ := hb.known w hw
  refine ⟨c, hc, ?_⟩
  by_contra hp
  have := hb.ended _ c hc hp w (List.mem_filter.2 ⟨hw, by simp⟩)
  simp [hn] at this

/-- A walk lasts only while its walker holds the lock. -/
theorem Booked.holder {s : Crowd ρ} (hb : s.Booked) (ho : s.Orderly) {w : Outing ρ} (hw : w ∈ s.walks)
    (hn : w.found = none) : s.gate.holder = some w.walker := by
  obtain ⟨c, hc, hp⟩ := hb.onWalk hw hn
  exact ho.held hc (by simp [hp, Phase.isInside])

/-- **Walks do not overlap.** -/
theorem Booked.apart {s : Crowd ρ} (hb : s.Booked) (ho : s.Orderly) :
    (s.walks.filter (·.found.isNone)).length ≤ 1 := by
  by_contra hlen
  obtain ⟨w, hw⟩ : ∃ w, w ∈ s.walks.filter (·.found.isNone) :=
    List.exists_mem_of_length_pos (by omega)
  obtain ⟨hw, hn⟩ := List.mem_filter.1 hw
  rw [Option.isNone_iff_eq_none] at hn
  -- Every walk under way is one of the holder, and only the last of those is.
  have hsame : s.walks.filter (·.found.isNone) =
      (s.walksOf w.walker).filter (·.found.isNone) := by
    rw [walksOf, List.filter_filter]
    refine List.filter_congr fun v hv => ?_
    by_cases hvn : v.found = none
    · have := (hb.holder ho hw hn).symm.trans (hb.holder ho hv hvn)
      rw [Option.some.injEq] at this
      simp [hvn, this]
    · simp [hvn]
  obtain ⟨c, hc, hp⟩ := hb.onWalk hw hn
  obtain ⟨done, handlers, hlast, hdone⟩ := hb.under _ c hc hp
  have hnone : done.filter (·.found.isNone) = [] := by
    rw [List.filter_eq_nil_iff]
    intro v hv
    have := hdone v hv
    simpa using Option.isSome_iff_ne_none.1 this
  rw [hsame, hlast, List.filter_append, hnone] at hlen
  simp at hlen

/-- Where nobody is to come back, no walk is under way. -/
theorem Booked.allOver {s : Crowd ρ} (hb : s.Booked) (hq : s.Quiet) {w : Outing ρ} (hw : w ∈ s.walks) :
    w.found.isSome := by
  rw [Option.isSome_iff_ne_none]
  intro hn
  obtain ⟨c, hc, hp⟩ := hb.onWalk hw hn
  have := hq.call hc
  simp [hp, Phase.isActive] at this

/-- Lists that fit the walks of each number are, put together, what all walks found. -/
theorem perm_flatMap_walks {α : Type} (f : α → List ρ) (ps : List α) (ws : List (Outing ρ))
    (hf : ∀ i p, ps[i]? = some p → f p = (ws.filter (·.walker = i)).flatMap Outing.reports)
    (hw : ∀ w ∈ ws, w.walker < ps.length) : (ps.flatMap f).Perm (ws.flatMap Outing.reports) := by
  induction ps using List.reverseRecOn generalizing ws with
  | nil =>
    cases ws with
    | nil => exact .refl _
    | cons w ws => exact absurd (hw w List.mem_cons_self) (by simp)
  | append_singleton ps p ih =>
    -- The walks of the last number, and those of the numbers before it.
    have hlast := hf ps.length p (by simp)
    have hrest := ih (ws.filter fun w => !(decide (w.walker = ps.length))) ?_ ?_
    · rw [List.flatMap_append, List.flatMap_singleton, hlast]
      refine (List.perm_append_comm.trans (List.Perm.append_left _ hrest)).trans ?_
      rw [← List.flatMap_append]
      exact (List.filter_append_perm _ ws).flatMap_right _
    · intro i q hq
      have hi : i < ps.length := (List.getElem?_eq_some_iff.1 hq).1
      rw [hf i q (by rw [List.getElem?_append_left hi]; exact hq), List.filter_filter]
      congr 1
      refine List.filter_congr fun w _ => ?_
      by_cases hwi : w.walker = i
      · simp [hwi]; omega
      · simp [hwi]
    · intro w hwf
      obtain ⟨hws, hne⟩ := List.mem_filter.1 hwf
      have := hw w hws
      simp at this hne
      omega

/-- **What all calls have to report is what all walks found**, nothing lost and nothing twice. -/
theorem Booked.perm {s : Crowd ρ} (hb : s.Booked) (hs : s.OnlyCallers) :
    (s.parties.flatMap Party.reports).Perm (s.walks.flatMap Outing.reports) := by
  refine perm_flatMap_walks _ _ _ (fun i p hp => ?_) fun w hw => ?_
  · obtain ⟨c, rfl⟩ := hs p (List.mem_of_getElem? hp)
    exact hb.sum i c (call?_eq_some.2 hp)
  · obtain ⟨c, hc⟩ := hb.known w hw
    exact lt_of_call? hc

end PageSweep.Crowd
