import PageSweep.Proofs.Pass.Account
import PageSweep.Visit.Basic

/-!
# Rows of passes

A walk runs one pass after the other, each with the sweeper and on the page that the one before it left. What
such a row took from the page and what it told is what its passes count.

* `Passages.trans`: rows one after the other.
* `Passages.account`: what a row of passes took from the page.
* `Walk.visit_cases`: at each handler there is one pass, or none.
-/

namespace PageSweep

/-- A pass of a walk: for which handler and of what, by which sweeper, on which page and when, and the
operations that were carried out. -/
structure Passage where
  handler : String
  shape : String
  sweeper : Sweeper
  began : Instant
  schema : Json
  page : Page
  deeds : List Deed

namespace Passage

def run (x : Passage) : Run := x.sweeper.run x.began x.schema x.page

def report (x : Passage) : Report := ⟨x.handler, x.shape, x.run.summary⟩

/-- What the pass has to tell: each clearing of all cookies, and its total at the end, if it is not nothing. -/
def messages (x : Passage) : List Message := Sweeper.told x.deeds x.run.summary

/-- The operations are those that the pass carried out. -/
def CarriedOut (x : Passage) : Prop := x.sweeper.CarriesOut x.began x.schema x.page x.deeds

/-- The counts that are told sum up to the total. -/
theorem sum_messages (x : Passage) : (x.messages.map Message.count).sum = x.report.summary.total := by
  have hdeeds : ((x.deeds.flatMap Deed.told).map Message.count).sum = 0 := by
    induction x.deeds with
    | nil => rfl
    | cons d ds ih =>
      have hone : (d.told.map Message.count).sum = 0 := by
        unfold Deed.told
        cases d.op <;> rfl
      rw [List.flatMap_cons, List.map_append, List.sum_append, hone, ih]
  rw [messages, Sweeper.told, List.map_append, List.sum_append, hdeeds, Nat.zero_add]
  show _ = x.run.summary.total
  split
  · rename_i h
    rw [h]
    rfl
  · exact Nat.add_zero _

theorem sum_flatMap_messages (xs : List Passage) :
    ((xs.flatMap messages).map Message.count).sum = (xs.map (·.report.summary.total)).sum := by
  induction xs with
  | nil => rfl
  | cons x xs ih =>
    rw [List.flatMap_cons, List.map_append, List.sum_append, ih, sum_messages, List.map_cons, List.sum_cons]

end Passage

/-- **Passes one after the other**, each with the sweeper and on the page that the one before it left. -/
inductive Passages (p : Page) (i : Sweeper) : List Passage → Page → Sweeper → Prop where
  | nil : Passages p i [] p i
  | concat {xs : List Passage} {x : Passage} (h : Passages p i xs x.page x.sweeper) (hx : x.CarriedOut) :
      Passages p i (xs ++ [x]) x.run.scene.page (x.sweeper.after x.run)

theorem Passages.trans {p q r : Page} {i j k : Sweeper} {xs ys : List Passage} (h : Passages p i xs q j)
    (h' : Passages q j ys r k) : Passages p i (xs ++ ys) r k := by
  induction h' with
  | nil =>
    rw [List.append_nil]
    exact h
  | concat _ hx ih =>
    rw [← List.append_assoc]
    exact .concat ih hx

/-- **What a row of passes took from the page** is what they count in all. -/
theorem Passages.account {p q : Page} {i j : Sweeper} {xs : List Passage} (h : Passages p i xs q j)
    (hp : p.Numbered) : q.Numbered ∧
      ∃ ns, p.Uproots ns q ∧ (xs.map (·.report.summary.elements)).sum = ns.length := by
  induction h with
  | nil => exact ⟨hp, [], .refl p, rfl⟩
  | @concat xs x _ _ ih =>
    obtain ⟨hnum, ns, hns, hsum⟩ := ih
    obtain ⟨_, _, _, _, ns', hns', hcount⟩ := x.sweeper.run_accounts x.began x.schema hnum
    obtain ⟨ops, htrail, -, -⟩ := x.sweeper.run_trail x.began x.schema x.page
    refine ⟨hnum.trail htrail, ns ++ ns', hns.trans hns', ?_⟩
    rw [List.map_append, List.sum_append, hsum, List.length_append, List.map_singleton, List.sum_singleton]
    exact congrArg _ hcount

/-- To have the schema of a handler changes nothing but what a walk keeps, logs and asks for. -/
theorem Walk.schemaOf_rest (w : Walk) (answers : String → Answer) (h : Handler) :
    let w' := (w.schemaOf answers h).2
    w' = { w with cache := w'.cache, log := w'.log, asked := w'.asked } := by
  unfold schemaOf
  generalize w.cache.resolve answers w.clock (Text.trim h.schema) = r
  obtain ⟨result, cache, asked, log⟩ := r
  cases h.isRemote with
  | false => rfl
  | true =>
    cases result with
    | ok text => rfl
    | error e => rfl

/-- **At each handler of a walk there is one pass, or none.** -/
theorem Walk.visit_cases (w : Walk) (answers : String → Answer) (opened : Instant) (h : Handler) :
    ∃ w' : Walk, (w'.page = w.page ∧ w'.sweeper = w.sweeper ∧ w'.reports = w.reports ∧ w'.sent = w.sent) ∧
      (w.visit answers opened h = w' ∨
        ∃ shape schema, w.visit answers opened h = w'.pass opened h shape schema) := by
  have hrest := w.schemaOf_rest answers h
  unfold visit
  cases hw : w.schemaOf answers h with
  | mk text? w' =>
    have hw' : w'.page = w.page ∧ w'.sweeper = w.sweeper ∧ w'.reports = w.reports ∧ w'.sent = w.sent := by
      rw [hw] at hrest
      rw [show w' = _ from hrest]
      exact ⟨rfl, rfl, rfl, rfl⟩
    cases text? with
    | none => exact ⟨w', hw', .inl rfl⟩
    | some text =>
      simp only
      refine ⟨{ w' with log := w'.log ++ (ActionGroup.detectText text).2 }, hw', ?_⟩
      split
      · exact .inl rfl
      · exact .inr ⟨_, _, rfl⟩

end PageSweep
