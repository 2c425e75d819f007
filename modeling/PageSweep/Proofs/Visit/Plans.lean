import PageSweep.Proofs.Remote.Faithful
import PageSweep.Proofs.Visit.Passages

/-!
# What a walk is to do

With all addresses answered in the same way, what a walk is to do at a handler does not depend on how far it has
come: a handler has something for the host of the page, or the walk passes over it. What a walk asked for and
what it kept of the answers makes no difference to what comes later, so a walk is its plans, carried out one
after the other up to a reload.

* `Handler.plan?_eq_none`: the handlers that a walk passes over.
* `Walk.schemaOf_faithful`, `OnCourse.visit`: one handler of a walk.
* `OnCourse.run`: a walk is its plans.
* `Walk.pass_passage`, `Walk.follow_passages`: the row of passes that plans make.
* `skipped_as_absent`: walks with and without a handler that they pass over.
-/

namespace PageSweep

/-- What a walk is to do at a handler. -/
structure Plan where
  handler : Handler
  shape : String
  schema : Json

/-- What a pass is of: the name of a handler, the shape of its schema, and what is selected. -/
def Plan.subject (x : Plan) : String × String × Json := (x.handler.name, x.shape, x.schema)

def Passage.subject (x : Passage) : String × String × Json := (x.handler, x.shape, x.schema)

namespace Handler

variable {answers : String → Answer} {host : String} {h : Handler}

/-- The text of a handler's schema, if it can be had. -/
def text? (answers : String → Answer) (h : Handler) : Option String :=
  if h.isRemote then (answers (Gist.rawAddress (Text.trim h.schema)).1).content? else some h.schema

/-- What a walk is to do at a handler on a page of a host, if anything. -/
def plan? (answers : String → Answer) (host : String) (h : Handler) : Option Plan :=
  (h.text? answers).bind fun text =>
    let group := (ActionGroup.detectText text).1
    (group.select? h host).map fun schema => ⟨h, group.shapeName, schema⟩

/-- **A handler that walks pass over**: its schema is remote and no answer carries it, or it has nothing for the
host. -/
def IsSkipped (answers : String → Answer) (host : String) (h : Handler) : Prop :=
  (h.isRemote = true ∧ (answers (Gist.rawAddress (Text.trim h.schema)).1).content? = none) ∨
    ∃ text, h.text? answers = some text ∧ (ActionGroup.detectText text).1.select? h host = none

theorem text?_eq_none : h.text? answers = none ↔
    h.isRemote = true ∧ (answers (Gist.rawAddress (Text.trim h.schema)).1).content? = none := by
  unfold text?
  split <;> simp [*]

/-- **There is nothing to do at the handlers that walks pass over**, and at no others. -/
theorem plan?_eq_none : h.plan? answers host = none ↔ h.IsSkipped answers host := by
  rw [IsSkipped, ← text?_eq_none, plan?]
  cases h.text? answers with
  | none => simp
  | some text => simp

end Handler

namespace Walk

variable {answers : String → Answer} {opened : Instant} {w w' w'' : Walk}

/-- **A walk beside another one**: it differs in its cache, in what it logged and in what it asked for, and all
that it keeps is what the answers carry. -/
structure OnCourse (answers : String → Answer) (w w' : Walk) : Prop where
  rest : w' = { w with cache := w'.cache, log := w'.log, asked := w'.asked }
  faithful : w'.cache.Faithful answers

theorem OnCourse.refl (h : w.cache.Faithful answers) : OnCourse answers w w := ⟨rfl, h⟩

theorem OnCourse.trans (h : OnCourse answers w w') (h' : OnCourse answers w' w'') : OnCourse answers w w'' := by
  refine ⟨?_, h'.faithful⟩
  rw [h'.rest, h.rest]

theorem OnCourse.page (h : OnCourse answers w w') : w'.page = w.page := by rw [h.rest]

theorem OnCourse.halted (h : OnCourse answers w w') : w'.halted = w.halted := by rw [h.rest]

/-- Passes neither read nor change what may differ. -/
theorem OnCourse.pass (hw : OnCourse answers w w') (h : Handler) (shape : String) (schema : Json) :
    OnCourse answers (w.pass opened h shape schema) (w'.pass opened h shape schema) := by
  refine ⟨?_, hw.faithful⟩
  rw [hw.rest]
  rfl

/-- **The text of a handler's schema is what is answered**, and to have it leaves a walk on its course. -/
theorem schemaOf_faithful (hw : w.cache.Faithful answers) (h : Handler) :
    (w.schemaOf answers h).1 = h.text? answers ∧ OnCourse answers w (w.schemaOf answers h).2 := by
  obtain ⟨hfaithful, hresult⟩ := hw.resolve w.clock (Text.trim h.schema)
  have htext : (w.schemaOf answers h).1 = h.text? answers ∧ (w.schemaOf answers h).2.cache.Faithful answers := by
    unfold schemaOf Handler.text?
    rw [← hresult]
    generalize w.cache.resolve answers w.clock (Text.trim h.schema) = r at hfaithful
    obtain ⟨result, cache, asked, log⟩ := r
    cases h.isRemote with
    | false => exact ⟨rfl, hw⟩
    | true =>
      cases result with
      | ok text => exact ⟨rfl, hfaithful⟩
      | error e => exact ⟨rfl, hfaithful⟩
  exact ⟨htext.1, w.schemaOf_rest answers h, htext.2⟩

/-- **At a handler that it passes over, a walk stays on its course.** -/
theorem visit_of_none (hw : w.cache.Faithful answers) {h : Handler}
    (hplan : h.plan? answers w.page.hostname = none) : OnCourse answers w (w.visit answers opened h) := by
  obtain ⟨htext, hcourse⟩ := schemaOf_faithful hw h
  rw [Handler.plan?, ← htext] at hplan
  unfold visit
  generalize w.schemaOf answers h = o at hplan hcourse
  obtain ⟨text?, w'⟩ := o
  cases text? with
  | none => exact hcourse
  | some text =>
    rw [Option.bind_some, Option.map_eq_none_iff, ← hcourse.page] at hplan
    simp only at hplan hcourse ⊢
    rw [hplan]
    exact hcourse.trans ⟨rfl, hcourse.faithful⟩

/-- **At any other handler it runs the pass that is planned.** -/
theorem visit_of_some (hw : w.cache.Faithful answers) {h : Handler} {x : Plan}
    (hplan : h.plan? answers w.page.hostname = some x) :
    OnCourse answers (w.pass opened x.handler x.shape x.schema) (w.visit answers opened h) := by
  obtain ⟨htext, hcourse⟩ := schemaOf_faithful hw h
  rw [Handler.plan?, ← htext] at hplan
  unfold visit
  generalize w.schemaOf answers h = o at hplan hcourse
  obtain ⟨text?, w'⟩ := o
  cases text? with
  | none => cases hplan
  | some text =>
    rw [Option.bind_some, Option.map_eq_some_iff, ← hcourse.page] at hplan
    obtain ⟨schema, hselect, rfl⟩ := hplan
    simp only at hselect hcourse ⊢
    rw [hselect]
    have hlogged : OnCourse answers w { w' with log := w'.log ++ (ActionGroup.detectText text).2 } :=
      hcourse.trans ⟨rfl, hcourse.faithful⟩
    exact hlogged.pass h _ schema

theorem hostname_pass (w : Walk) (opened : Instant) (h : Handler) (shape : String) (schema : Json) :
    (w.pass opened h shape schema).page.hostname = w.page.hostname := by
  obtain ⟨ops, htrail, -, -⟩ := w.sweeper.run_trail (opened.later w.clock) schema w.page
  exact htrail.hostname

/-! ### Plans carried out -/

/-- Carries out plans one after the other, up to a reload. -/
def follow (opened : Instant) : List Plan → Walk → Walk
  | [], w => w
  | x :: xs, w => if w.halted then w else follow opened xs (w.pass opened x.handler x.shape x.schema)

theorem follow_of_halted (opened : Instant) (xs : List Plan) (h : w.halted = true) : w.follow opened xs = w := by
  cases xs with
  | nil => rfl
  | cons x xs => rw [follow, if_pos h]

/-- **A walk is its plans**: it goes through the handlers as if it carried out what there is to do at them. -/
theorem OnCourse.run (hw : OnCourse answers w w') {host : String} (hhost : w.page.hostname = host)
    (hs : List Handler) :
    OnCourse answers (w.follow opened (hs.filterMap (·.plan? answers host))) (w'.run answers opened hs) := by
  induction hs generalizing w w' with
  | nil => exact hw
  | cons h hs ih =>
    by_cases hhalted : w.halted = true
    · rw [run_of_halted answers opened _ (hw.halted.trans hhalted), follow_of_halted opened _ hhalted]
      exact hw
    have hhalted' : ¬ w'.halted = true := fun ht => hhalted (hw.halted.symm.trans ht)
    have hhost' : w'.page.hostname = host := by rw [hw.page, hhost]
    rw [Walk.run, if_neg hhalted']
    cases hplan : h.plan? answers host with
    | none =>
      rw [List.filterMap_cons_none hplan]
      exact ih (hw.trans (visit_of_none hw.faithful (hhost'.symm ▸ hplan))) hhost
    | some x =>
      rw [List.filterMap_cons_some hplan, follow, if_neg hhalted]
      exact ih ((hw.pass x.handler x.shape x.schema).trans (visit_of_some hw.faithful (hhost'.symm ▸ hplan)))
        ((hostname_pass ..).trans hhost)

end Walk

/-! ### Passes that were planned -/

/-- **Passes that carry out plans** from a time on: one for each plan in its place, up to and including the first
that halts, each begun when the ones before it are over. -/
structure Passage.Planned (opened : Instant) (clock : Nat) (plans : List Plan) (xs : List Passage) : Prop where
  subjects : xs.map Passage.subject = (plans.take xs.length).map Plan.subject
  running : ∀ x ∈ xs.dropLast, x.run.summary.halted = false
  ends : xs.length = plans.length ∨ ∃ x ∈ xs.getLast?, x.run.summary.halted = true
  times : ∀ k x, xs[k]? = some x → x.began = opened.later (clock + ((xs.take k).map (·.run.elapsed)).sum)

namespace Passage

variable {opened : Instant} {clock : Nat} {plans : List Plan} {plan : Plan} {x : Passage} {xs : List Passage}

theorem planned_nil (opened : Instant) (clock : Nat) : Planned opened clock [] [] :=
  ⟨rfl, fun _ h => absurd h List.not_mem_nil, .inl rfl, fun _ _ h => by cases h⟩

/-- A pass that halts is the last one. -/
theorem planned_halted (hsubject : x.subject = plan.subject) (hbegan : x.began = opened.later clock)
    (hhalted : x.run.summary.halted = true) : Planned opened clock (plan :: plans) [x] := by
  refine ⟨?_, fun _ h => absurd h List.not_mem_nil, .inr ⟨x, rfl, hhalted⟩, fun k y hy => ?_⟩
  · simp [hsubject]
  · cases k with
    | zero => rw [← Option.some.inj hy, hbegan]; rfl
    | succ k => cases hy

/-- After a pass that does not halt, the other plans are carried out when it is over. -/
theorem Planned.cons (h : Planned opened (clock + x.run.elapsed) plans xs) (hsubject : x.subject = plan.subject)
    (hbegan : x.began = opened.later clock) (hhalted : x.run.summary.halted = false) :
    Planned opened clock (plan :: plans) (x :: xs) := by
  refine ⟨?_, ?_, ?_, fun k y hy => ?_⟩
  · rw [List.length_cons, List.take_succ_cons, List.map_cons, List.map_cons, hsubject, h.subjects]
  · cases xs with
    | nil => exact fun _ h => absurd h List.not_mem_nil
    | cons x' xs =>
      rw [List.dropLast_cons_of_ne_nil (List.cons_ne_nil _ _)]
      exact List.forall_mem_cons.2 ⟨hhalted, h.running⟩
  · rcases h.ends with hall | ⟨y, hy, hlast⟩
    · exact .inl (by rw [List.length_cons, List.length_cons, hall])
    · refine .inr ⟨y, ?_, hlast⟩
      rw [List.getLast?_cons, hy]
      rfl
  · cases k with
    | zero => rw [← Option.some.inj hy, hbegan]; rfl
    | succ k =>
      rw [h.times k y hy, List.take_succ_cons, List.map_cons, List.sum_cons, Nat.add_assoc]

end Passage

namespace Walk

/-- **One plan is one pass**, of what is planned and on the page as it is. -/
theorem pass_passage (opened : Instant) (w : Walk) (plan : Plan) :
    let w' := w.pass opened plan.handler plan.shape plan.schema
    ∃ x : Passage, Passages w.page w.sweeper [x] w'.page w'.sweeper ∧ x.subject = plan.subject ∧
      x.began = opened.later w.clock ∧ w'.halted = x.run.summary.halted ∧ w'.clock = w.clock + x.run.elapsed ∧
      w'.reports = w.reports ++ [x.report] ∧ w'.sent = w.sent ++ x.run.scene.sent := by
  intro w'
  obtain ⟨dss, r, hgoes, -, -⟩ := w.sweeper.run_goes (opened.later w.clock) plan.schema w.page
  let x : Passage :=
    ⟨plan.handler.name, plan.shape, w.sweeper, opened.later w.clock, plan.schema, w.page, dss.flatten⟩
  have hx : x.CarriedOut := ⟨dss, _, hgoes, rfl⟩
  have hone : Passages w.page w.sweeper ([] ++ [x]) x.run.scene.page (x.sweeper.after x.run) := .concat .nil hx
  exact ⟨x, hone, rfl, rfl, rfl, rfl, rfl, rfl⟩

/-- **Plans are carried out as a row of passes**, and what there is to report and to tell of them comes after
what there was. -/
theorem follow_passages (opened : Instant) (plans : List Plan) {w : Walk} (hw : w.halted = false) :
    ∃ xs, Passages w.page w.sweeper xs (w.follow opened plans).page (w.follow opened plans).sweeper ∧
      Passage.Planned opened w.clock plans xs ∧
      (w.follow opened plans).reports = w.reports ++ xs.map Passage.report ∧
      (w.follow opened plans).sent = w.sent ++ xs.flatMap (·.run.scene.sent) := by
  induction plans generalizing w with
  | nil => exact ⟨[], .nil, Passage.planned_nil _ _, (List.append_nil _).symm, (List.append_nil _).symm⟩
  | cons plan plans ih =>
    rw [follow, if_neg (by simp [hw])]
    obtain ⟨x, hone, hsubject, hbegan, hhalted, hclock, hreport, hsend⟩ := pass_passage opened w plan
    generalize w.pass opened plan.handler plan.shape plan.schema = w' at *
    cases hend : w'.halted with
    | true =>
      rw [follow_of_halted opened plans hend]
      refine ⟨[x], hone, Passage.planned_halted hsubject hbegan (hhalted.symm.trans hend), hreport, ?_⟩
      rw [hsend, List.flatMap_singleton]
    | false =>
      obtain ⟨xs, hpassages, hplanned, hreports, hsent⟩ := ih hend
      rw [hclock] at hplanned
      refine ⟨x :: xs, hone.trans hpassages, hplanned.cons hsubject hbegan (hhalted.symm.trans hend), ?_, ?_⟩
      · rw [hreports, hreport, List.append_assoc, List.map_cons, List.singleton_append]
      · rw [hsent, hsend, List.append_assoc, List.flatMap_cons]

end Walk

namespace Visit

variable {answers : String → Answer} {v : Visit}

/-- The plans of a visit: one for each handler with something for the host of the page. -/
def plans (answers : String → Answer) (v : Visit) : List Plan :=
  v.handlers.filterMap (·.plan? answers v.page.hostname)

/-- A walk that begins at a time. -/
def setOut (v : Visit) (begun : Nat) : Walk :=
  ⟨v.page, v.sweeper, v.cache, [], [], [], [], begun, begun, false⟩

/-- **The walk of a visit is its plans.** -/
theorem walk_onCourse (hcache : v.cache.Reached answers) (begun : Nat) :
    Walk.OnCourse answers ((v.setOut begun).follow v.opened (v.plans answers)) (v.walk answers begun) := by
  have hstart : Walk.OnCourse answers _ _ := .refl (w := v.setOut begun) hcache.faithful
  have hhost : (v.setOut begun).page.hostname = v.page.hostname := rfl
  exact hstart.run hhost v.handlers

end Visit

/-- **A handler that a walk passes over is as good as absent.** As long as addresses are answered as they were
when the cache came about, a walk with a handler whose schema cannot be had, or has nothing for the host of the
page, reports and tells the same as one without it, leaves the same page and the same sweeper, and takes as long.
In general a walk reports one pass for each handler with something for the host, in the order of the handlers, up
to and including the first that a reload ended, each on the page that the one before it left. -/
theorem skipped_as_absent {answers : String → Answer} {v : Visit} (hcache : v.cache.Reached answers)
    (begun : Nat) :
    (∀ hs₁ h hs₂, h.IsSkipped answers v.page.hostname →
      let w := { v with handlers := hs₁ ++ h :: hs₂ }.walk answers begun
      let w' := { v with handlers := hs₁ ++ hs₂ }.walk answers begun
      w.reports = w'.reports ∧ w.page = w'.page ∧ w.sweeper = w'.sweeper ∧ w.sent = w'.sent ∧
        w.clock = w'.clock) ∧
      ∃ xs, Passages v.page v.sweeper xs (v.walk answers begun).page (v.walk answers begun).sweeper ∧
        Passage.Planned v.opened begun (v.plans answers) xs ∧
        (v.walk answers begun).reports = xs.map Passage.report ∧
        (v.walk answers begun).sent = xs.flatMap (·.run.scene.sent) := by
  constructor
  · intro hs₁ h hs₂ hskip w w'
    have hplans : { v with handlers := hs₁ ++ h :: hs₂ }.plans answers =
        { v with handlers := hs₁ ++ hs₂ }.plans answers := by
      simp only [Visit.plans]
      rw [List.filterMap_append, List.filterMap_append, List.filterMap_cons_none (Handler.plan?_eq_none.2 hskip)]
    have hw := Visit.walk_onCourse (v := { v with handlers := hs₁ ++ h :: hs₂ }) hcache begun
    have hw' := Visit.walk_onCourse (v := { v with handlers := hs₁ ++ hs₂ }) hcache begun
    rw [hplans] at hw
    rw [show w = _ from hw.rest, show w' = _ from hw'.rest]
    exact ⟨rfl, rfl, rfl, rfl, rfl⟩
  · have hw := Visit.walk_onCourse hcache begun
    obtain ⟨xs, hpassages, hplanned, hreports, hsent⟩ := Walk.follow_passages v.opened (v.plans answers)
      (w := v.setOut begun) rfl
    rw [hw.rest]
    exact ⟨xs, hpassages, hplanned, hreports, hsent⟩

/-- Rules at one address, and none at all others. -/
def oneRulesAnswer (address : String) : Answer :=
  if address = "https://rules.example/shop.json" then .reply 200 "[\x7b\"action\":\"reload\"\x7d]" else .reply 404 ""

/-- A visit for which the rules were fetched before. -/
def rulesVisit : Visit where
  page := Page.new "shop.example"
  sweeper := .new 32
  cache := ((SchemaCache.new 60).resolve oneRulesAnswer 0 "https://rules.example/shop.json").cache
  handlers := [⟨"shop.example", "https://rules.example/shop.json"⟩]
  opened := .epoch
  clock := 0

theorem skipped_as_absent_rulesVisit :
    let lost : Handler := ⟨"*", "https://rules.example/lost.json"⟩
    let w := { rulesVisit with handlers := [lost] ++ lost :: rulesVisit.handlers }.walk oneRulesAnswer 70000
    let w' := { rulesVisit with handlers := [lost] ++ rulesVisit.handlers }.walk oneRulesAnswer 70000
    rulesVisit.cache.Reached oneRulesAnswer ∧ lost.IsSkipped oneRulesAnswer rulesVisit.page.hostname ∧
      w.reports = w'.reports ∧ w.page = w'.page ∧ w.sweeper = w'.sweeper ∧ w.sent = w'.sent ∧
        w.clock = w'.clock := by
  intro lost w w'
  have hcache : rulesVisit.cache.Reached oneRulesAnswer :=
    .resolve (.new 60) 0 "https://rules.example/shop.json"
  have hskip : lost.IsSkipped oneRulesAnswer rulesVisit.page.hostname := .inl ⟨by decide, by decide⟩
  exact ⟨hcache, hskip, (skipped_as_absent hcache 70000).1 [lost] lost rulesVisit.handlers hskip⟩

end PageSweep
