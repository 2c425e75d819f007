import PageSweep.Proofs.Crowd.Runs
import PageSweep.Proofs.Visit.Passages

/-!
# Open pages

A page that is open, with callers who come when they like and take their steps in any order. A walk goes on
from handler to handler, at any times and with any answers, while others take their steps and handlers are
replaced. Since walks do not overlap, their passes are one row, and what was told and what calls report are
the accounts of that row.

* `OpenPage.run_walk`: the moves of a walk that is not disturbed.
* `Accounted.step`: the accounts are kept by every move.
* `effects_told_once`: all runs of an open page.
-/

namespace PageSweep

/-! ### Open pages -/

/-- A page that is open: its callers, and the walk that is under way with the handlers still ahead of it.
Between two walks, the last one stands for what all of them share. -/
structure OpenPage where
  crowd : Crowd Report
  walk : Walk
  ahead : List Handler
  opened : Instant

namespace OpenPage

/-- What can happen next. -/
inductive Move where
  /-- A call comes. -/
  | call
  | reset (handlers : List Handler)
  /-- The call of a number takes its next step at the gate. -/
  | step (i : Nat)
  /-- The call of a number goes on to the next handler of its walk, at a time. -/
  | goOn (i : Nat) (answers : String → Answer) (clock : Nat)
  /-- The call of a number comes back from its walk. -/
  | comeBack (i : Nat)

def start (page : Page) (maxDepth ttl : Nat) (handlers : List Handler) (opened : Instant) : OpenPage :=
  ⟨.start handlers, ⟨page, .new maxDepth, .new ttl, [], [], [], [], 0, 0, false⟩, [], opened⟩

/-- Whether the call of a number is there and in a phase. -/
def IsAt (s : OpenPage) (i : Nat) (phase : Phase) : Prop := (s.crowd.call? i).map Call.phase = some phase

instance (s : OpenPage) (i : Nat) (phase : Phase) : Decidable (s.IsAt i phase) :=
  inferInstanceAs (Decidable ((s.crowd.call? i).map Call.phase = some phase))

/-- One move. A move that is not possible changes nothing. -/
def step (s : OpenPage) : Move → OpenPage
  | .call => { s with crowd := s.crowd.step .call }
  | .reset handlers =>
    { s with crowd := s.crowd.step (.reset handlers), walk := { s.walk with cache := s.walk.cache.clear } }
  | .step i =>
    if s.IsAt i .setOut then
      { s with
        crowd := s.crowd.step (.step i)
        walk := { s.walk with halted := false }
        ahead := s.crowd.handlers }
    else { s with crowd := s.crowd.step (.step i) }
  | .goOn i answers clock =>
    if s.IsAt i .walk ∧ s.walk.halted = false then
      match s.ahead with
      | [] => s
      | h :: hs => { s with walk := { s.walk with clock := clock }.visit answers s.opened h, ahead := hs }
    else s
  | .comeBack i =>
    if s.IsAt i .walk ∧ (s.ahead = [] ∨ s.walk.halted = true) then
      { s with crowd := s.crowd.step (.comeBack i s.walk.reports), walk := { s.walk with reports := [] } }
    else s

def run (s : OpenPage) (ms : List Move) : OpenPage := ms.foldl step s

theorem isAt_iff {s : OpenPage} {i : Nat} {phase : Phase} :
    s.IsAt i phase ↔ ∃ c, s.crowd.call? i = some c ∧ c.phase = phase := Option.map_eq_some_iff

/-- **A walk that is not disturbed goes through all that is ahead**, up to a reload, as walks do. -/
theorem run_walk (answers : String → Answer) {s : OpenPage} {i : Nat} (hi : s.IsAt i .walk) :
    ∃ ms, (s.run ms).walk = s.walk.run answers s.opened s.ahead ∧ (s.run ms).crowd = s.crowd ∧
      ((s.run ms).ahead = [] ∨ (s.run ms).walk.halted = true) := by
  generalize hs : s.ahead = handlers
  induction handlers generalizing s with
  | nil => exact ⟨[], rfl, rfl, .inl hs⟩
  | cons h handlers ih =>
    by_cases hhalted : s.walk.halted = true
    · refine ⟨[], ?_, rfl, .inr hhalted⟩
      rw [Walk.run_of_halted answers s.opened _ hhalted]
      rfl
    · rw [Bool.not_eq_true] at hhalted
      have hstep : s.step (.goOn i answers s.walk.clock) =
          { s with walk := s.walk.visit answers s.opened h, ahead := handlers } := by
        simp only [step]
        rw [if_pos ⟨hi, hhalted⟩, hs]
      generalize hvisit : s.walk.visit answers s.opened h = w at hstep
      obtain ⟨ms, hwalk, hcrowd, hend⟩ := ih (s := { s with walk := w, ahead := handlers }) hi rfl
      refine ⟨.goOn i answers s.walk.clock :: ms, ?_, ?_, ?_⟩
      · rw [run, List.foldl_cons, hstep, Walk.run, hhalted, hvisit]
        exact hwalk
      · rw [run, List.foldl_cons, hstep]
        exact hcrowd
      · rw [run, List.foldl_cons, hstep]
        exact hend

/-! ### Accounts -/

/-- **The accounts of an open page**: all that was told, and all that walks found, is that of one row of
passes. -/
structure Accounted (p : Page) (i : Sweeper) (s : OpenPage) (xs : List Passage) : Prop where
  callers : s.crowd.OnlyCallers
  orderly : s.crowd.Orderly
  booked : s.crowd.Booked
  /-- Only the last walk can be under way. -/
  earlier : ∀ w ∈ s.crowd.walks.dropLast, w.found.isSome
  /-- Between walks there is nothing to report. -/
  between : s.walk.reports = [] ∨ ∃ w ∈ s.crowd.walks, w.found = none
  passages : Passages p i xs s.walk.page s.walk.sweeper
  told : s.walk.sent = xs.flatMap Passage.messages
  reported : s.crowd.walks.flatMap Outing.reports ++ s.walk.reports = xs.map Passage.report

variable {p : Page} {i : Sweeper} {s : OpenPage} {xs : List Passage}

theorem accounted_start (page : Page) (maxDepth ttl : Nat) (handlers : List Handler) (opened : Instant) :
    Accounted page (.new maxDepth) (start page maxDepth ttl handlers opened) [] :=
  ⟨fun _ hq => absurd hq List.not_mem_nil, Crowd.orderly_start handlers, Crowd.booked_start handlers,
    fun _ hw => absurd hw List.not_mem_nil, .inl rfl, .nil, rfl, rfl⟩

/-- The step of a call that is about to set out begins a walk. -/
theorem walks_step_setOut {k : Nat} (hk : s.IsAt k .setOut) :
    (s.crowd.step (.step k)).walks = s.crowd.walks ++ [⟨k, s.crowd.handlers, none⟩] := by
  obtain ⟨c, hc, hp⟩ := isAt_iff.1 hk
  simp [Crowd.step, Crowd.call?_eq_some.1 hc, Crowd.stepCall, hp, Crowd.begin_, Crowd.put]

/-- No other step at the gate does. -/
theorem walks_step_other {k : Nat} (hk : ¬ s.IsAt k .setOut) :
    (s.crowd.step (.step k)).walks = s.crowd.walks ++ [] := by
  rw [List.append_nil]
  cases hparty : s.crowd.parties[k]? with
  | none => simp [Crowd.step, hparty]
  | some party =>
    cases party with
    | borrower b => simp [Crowd.step, hparty]
    | caller c =>
      have hp : c.phase ≠ .setOut := fun hp => hk (isAt_iff.2 ⟨c, Crowd.call?_eq_some.2 hparty, hp⟩)
      simp [Crowd.step, hparty, Crowd.stepCall, hp, Crowd.put]

/-- Who is about to set out is alone, so all walks are over. -/
theorem Accounted.over_of_setOut (h : Accounted p i s xs) {k : Nat} (hk : s.IsAt k .setOut) :
    ∀ w ∈ s.crowd.walks, w.found.isSome := by
  obtain ⟨c, hc, hp⟩ := isAt_iff.1 hk
  intro w hw
  rw [Option.isSome_iff_ne_none]
  intro hn
  obtain ⟨d, hd, hd'⟩ := h.booked.onWalk hw hn
  have hsame := h.orderly.alone hc hd (by simp [hp, Phase.isInside]) (by simp [hd', Phase.isInside])
  rw [hsame, hd, Option.some.injEq] at hc
  rw [hc, hp] at hd'
  cases hd'

/-- The walk of a call that is on one is the last one, and all others are over. -/
theorem Accounted.last_walk (h : Accounted p i s xs) {k : Nat} {c : Call Report}
    (hc : s.crowd.call? k = some c) (hp : c.phase = .walk) :
    ∃ done handlers, s.crowd.walks = done ++ [⟨k, handlers, none⟩] ∧ ∀ w ∈ done, w.found.isSome := by
  obtain ⟨done, handlers, hlast, -⟩ := h.booked.under k c hc hp
  have hmem : (⟨k, handlers, none⟩ : Outing Report) ∈ s.crowd.walks := by
    have : (⟨k, handlers, none⟩ : Outing Report) ∈ s.crowd.walksOf k := by simp [hlast]
    exact (List.mem_filter.1 this).1
  have hne : s.crowd.walks ≠ [] := List.ne_nil_of_mem hmem
  have hsplit := List.dropLast_append_getLast hne
  refine ⟨s.crowd.walks.dropLast, handlers, ?_, h.earlier⟩
  rw [← hsplit] at hmem
  rcases List.mem_append.1 hmem with hmem | hmem
  · exact absurd (h.earlier _ hmem) (by simp)
  · rw [List.mem_singleton.1 hmem]
    exact hsplit.symm

/-- A move of the crowd by which no walk ends. -/
theorem Accounted.move (h : Accounted p i s xs) {m : PageSweep.Move Report} (hm : m ≠ .borrow)
    {begun : List (Outing Report)}
    (hwalks : (s.crowd.step m).walks = s.crowd.walks ++ begun)
    (hbegun : begun = [] ∨ (∃ o, begun = [o] ∧ o.found = none) ∧ ∀ w ∈ s.crowd.walks, w.found.isSome)
    {t : OpenPage} (hcrowd : t.crowd = s.crowd.step m) (hpage : t.walk.page = s.walk.page)
    (hsweeper : t.walk.sweeper = s.walk.sweeper) (hreports : t.walk.reports = s.walk.reports)
    (hsent : t.walk.sent = s.walk.sent) : Accounted p i t xs := by
  have hchange := Crowd.Change.of_step h.callers hm
  have hnone : begun.flatMap Outing.reports = [] := by
    rcases hbegun with rfl | ⟨⟨o, rfl, ho⟩, -⟩
    · rfl
    · simp [Outing.reports, ho]
  refine ⟨hcrowd ▸ hchange.onlyCallers h.callers, hcrowd ▸ h.orderly.step hchange,
    hcrowd ▸ h.booked.step hchange, ?_, ?_, ?_, hsent.trans h.told, ?_⟩
  · rw [hcrowd, hwalks]
    rcases hbegun with rfl | ⟨⟨o, rfl, -⟩, hover⟩
    · rw [List.append_nil]
      exact h.earlier
    · rw [List.dropLast_concat]
      exact hover
  · rw [hreports, hcrowd, hwalks]
    rcases h.between with hb | ⟨w, hw, hn⟩
    · exact .inl hb
    · exact .inr ⟨w, List.mem_append_left _ hw, hn⟩
  · rw [hpage, hsweeper]
    exact h.passages
  · rw [hcrowd, hwalks, List.flatMap_append, hnone, List.append_nil, hreports]
    exact h.reported

/-- Going on to a handler. -/
theorem Accounted.goOn (h : Accounted p i s xs) (hp : p.Numbered) {k : Nat} (hk : s.IsAt k .walk)
    (answers : String → Answer) (clock : Nat) (hd : Handler) (hs : List Handler) :
    ∃ ys, Accounted p i
      { s with walk := { s.walk with clock := clock }.visit answers s.opened hd, ahead := hs } ys := by
  obtain ⟨c, hc, hphase⟩ := isAt_iff.1 hk
  obtain ⟨done, handlers, hlast, -⟩ := h.last_walk hc hphase
  have hunder : ∃ w ∈ s.crowd.walks, w.found = none := ⟨⟨k, handlers, none⟩, by simp [hlast], rfl⟩
  obtain ⟨w, ⟨hpage, hsweeper, hreports, hsent⟩, hvisit⟩ :=
    Walk.visit_cases { s.walk with clock := clock } answers s.opened hd
  have hpassages : Passages p i xs w.page w.sweeper := by
    rw [hpage, hsweeper]
    exact h.passages
  rcases hvisit with hvisit | ⟨shape, schema, hvisit⟩
  · refine ⟨xs, h.callers, h.orderly, h.booked, h.earlier, .inr hunder, ?_, ?_, ?_⟩
    · rw [hvisit]
      exact hpassages
    · rw [hvisit]
      exact hsent.trans h.told
    · rw [hvisit, hreports]
      exact h.reported
  · obtain ⟨ds, hds, -, htold, -⟩ :=
      w.sweeper.run_accounts (s.opened.later w.clock) schema (hpassages.account hp).1
    let x : Passage := ⟨hd.name, shape, w.sweeper, s.opened.later w.clock, schema, w.page, ds⟩
    have hnext : Passages p i (xs ++ [x]) x.run.scene.page (x.sweeper.after x.run) := .concat hpassages hds
    refine ⟨xs ++ [x], h.callers, h.orderly, h.booked, h.earlier, .inr hunder, ?_, ?_, ?_⟩
    · rw [hvisit]
      exact hnext
    · have hsent' : w.sent = xs.flatMap Passage.messages := hsent.trans h.told
      rw [hvisit, List.flatMap_append, List.flatMap_singleton, ← hsent']
      exact congrArg (w.sent ++ ·) htold
    · have hreported := h.reported
      rw [show s.walk.reports = w.reports from hreports.symm] at hreported
      rw [hvisit, List.map_append, List.map_singleton, ← hreported, List.append_assoc]
      rfl

/-- Coming back from a walk: what its passes reported is what it found. -/
theorem Accounted.comeBack (h : Accounted p i s xs) {k : Nat} (hk : s.IsAt k .walk) :
    Accounted p i { s with
      crowd := s.crowd.step (.comeBack k s.walk.reports)
      walk := { s.walk with reports := [] } } xs := by
  obtain ⟨c, hc, hphase⟩ := isAt_iff.1 hk
  obtain ⟨done, handlers, hlast, hdone⟩ := h.last_walk hc hphase
  have hchange := Crowd.Change.of_step h.callers (m := .comeBack k s.walk.reports) (by simp)
  have hwalks : (s.crowd.step (.comeBack k s.walk.reports)).walks =
      done ++ [⟨k, handlers, some s.walk.reports⟩] := by
    simp only [Crowd.step, hc, hphase, if_true, Crowd.finish]
    rw [hlast, List.map_append, Crowd.map_close_eq_self _ fun w hw => .inr (hdone w hw)]
    simp [Outing.close]
  have hreported := h.reported
  rw [hlast] at hreported
  refine ⟨hchange.onlyCallers h.callers, h.orderly.step hchange, h.booked.step hchange, ?_, .inl rfl,
    h.passages, h.told, ?_⟩
  · rw [hwalks, List.dropLast_concat]
    exact hdone
  · rw [hwalks, ← hreported]
    simp [Outing.reports]

/-- **The accounts are kept by every move**, and more passes may come in. -/
theorem Accounted.step (h : Accounted p i s xs) (hp : p.Numbered) (m : Move) :
    ∃ ys, Accounted p i (s.step m) ys := by
  have hsame : s.crowd.walks = s.crowd.walks ++ [] := (List.append_nil _).symm
  cases m with
  | call =>
    have hm : (.call : PageSweep.Move Report) ≠ .borrow := by simp
    exact ⟨xs, h.move hm hsame (.inl rfl) rfl rfl rfl rfl rfl⟩
  | reset handlers =>
    have hm : (.reset handlers : PageSweep.Move Report) ≠ .borrow := by simp
    exact ⟨xs, h.move hm hsame (.inl rfl) rfl rfl rfl rfl rfl⟩
  | step k =>
    have hm : (.step k : PageSweep.Move Report) ≠ .borrow := by simp
    simp only [OpenPage.step]
    split
    · rename_i hk
      have hover := h.over_of_setOut hk
      exact ⟨xs, h.move hm (walks_step_setOut hk) (.inr ⟨⟨_, rfl, rfl⟩, hover⟩) rfl rfl rfl rfl rfl⟩
    · rename_i hk
      exact ⟨xs, h.move hm (walks_step_other hk) (.inl rfl) rfl rfl rfl rfl rfl⟩
  | goOn k answers clock =>
    simp only [OpenPage.step]
    split
    · rename_i hk
      cases s.ahead with
      | nil => exact ⟨xs, h⟩
      | cons hd hs => exact h.goOn hp hk.1 answers clock hd hs
    · exact ⟨xs, h⟩
  | comeBack k =>
    simp only [OpenPage.step]
    split
    · rename_i hk
      exact ⟨xs, h.comeBack hk.1⟩
    · exact ⟨xs, h⟩

/-- **There are accounts at every moment of a run.** -/
theorem Accounted.run (h : Accounted p i s xs) (hp : p.Numbered) (ms : List Move) :
    ∃ ys, Accounted p i (s.run ms) ys := by
  induction ms generalizing s xs with
  | nil => exact ⟨xs, h⟩
  | cons m ms ih =>
    obtain ⟨ys, hys⟩ := h.step hp m
    exact ih hys

end OpenPage

open OpenPage in
/-- **Effects are told once, and counted once.** Whatever callers come to an open page, step and are overtaken
while the handlers change, its passes are one row. What was told is what each of them has to tell, in their
order; what walks found and what the walk under way has found so far is what each of them reports, in their
order. When all calls are back, their lists together are these reports, and the counts that were told sum up to
the totals reported. The elements that were taken from their places, each of them once and for good, are as
many as all passes count, and no more than the page had. Elements are told apart by their numbers on every page
that can be reached (`Page.Reachable.numbered`). -/
theorem effects_told_once {p : Page} (hp : p.Numbered) (maxDepth ttl : Nat) (handlers : List Handler)
    (opened : Instant) (ms : List OpenPage.Move) :
    let s := (start p maxDepth ttl handlers opened).run ms
    ∃ xs, Passages p (.new maxDepth) xs s.walk.page s.walk.sweeper ∧
      s.walk.sent = xs.flatMap Passage.messages ∧
      s.crowd.walks.flatMap Outing.reports ++ s.walk.reports = xs.map Passage.report ∧
      (s.crowd.Quiet →
        (s.crowd.parties.flatMap Party.reports).Perm (xs.map Passage.report) ∧
        (s.walk.sent.map Message.count).sum =
          ((s.crowd.parties.flatMap Party.reports).map (·.summary.total)).sum) ∧
      ∃ ns, p.Uproots ns s.walk.page ∧ (xs.map (·.report.summary.elements)).sum = ns.length ∧
        ns.length ≤ p.elementCount := by
  intro s
  obtain ⟨xs, h⟩ := (accounted_start p maxDepth ttl handlers opened).run hp ms
  obtain ⟨-, ns, hns, hsum⟩ := h.passages.account hp
  have htotal : (s.walk.sent.map Message.count).sum = (xs.map (·.report.summary.total)).sum := by
    rw [h.told]
    exact Passage.sum_flatMap_messages xs
  refine ⟨xs, h.passages, h.told, h.reported, fun hq => ?_, ns, hns, hsum, hns.length_le⟩
  have hnone : s.walk.reports = [] := by
    rcases h.between with hb | ⟨w, hw, hn⟩
    · exact hb
    · have hover := h.booked.allOver hq hw
      rw [hn] at hover
      cases hover
  have hreported := h.reported
  rw [show (OpenPage.run _ ms).walk.reports = [] from hnone, List.append_nil] at hreported
  have hperm := hreported ▸ h.booked.perm h.callers
  refine ⟨hperm, ?_⟩
  rw [htotal, (hperm.map (·.summary.total)).sum_nat, List.map_map]
  rfl

/-- A page with a banner that has a note in it. -/
def bannerPage : Page :=
  (((Page.new "shop.example").add none "div" [("id", "banner")]).1.add (some 1) "p" []).1

/-- A call that comes alone to the page and walks once. -/
def loneCall : List OpenPage.Move :=
  [.call, .step 0, .step 0, .step 0, .step 0, .step 0, .goOn 0 (fun _ => .unreachable) 5, .comeBack 0, .step 0,
    .step 0, .step 0]

/-- The page when the call is back, under a handler that removes everything. -/
def sweptPage : OpenPage :=
  (OpenPage.start bannerPage 32 60 [⟨"*", "[\x7b\"action\": \"remove\", \"target\": \"*\"\x7d]"⟩]
    .epoch).run loneCall

theorem effects_told_once_loneCall :
    bannerPage.Numbered ∧ sweptPage.crowd.Quiet ∧
      (sweptPage.walk.sent.map Message.count).sum =
        ((sweptPage.crowd.parties.flatMap Party.reports).map (·.summary.total)).sum ∧
      ∃ xs ns, Passages bannerPage (.new 32) xs sweptPage.walk.page sweptPage.walk.sweeper ∧
        bannerPage.Uproots ns sweptPage.walk.page ∧
        (xs.map (·.report.summary.elements)).sum = ns.length := by
  have hnum : bannerPage.Numbered :=
    ((Page.numbered_new "shop.example").append none _).append (some 1) _
  have hquiet : sweptPage.crowd.Quiet := by decide
  obtain ⟨xs, hpasses, -, -, hback, ns, hns, hsum, -⟩ := effects_told_once hnum 32 60 _ .epoch loneCall
  exact ⟨hnum, hquiet, (hback hquiet).2, xs, ns, hpasses, hns, hsum⟩

end PageSweep
