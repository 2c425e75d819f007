import PageSweep.Pass.Run
import PageSweep.Remote.Cache
import PageSweep.Schema.Group

/-!
# Walks

A walk goes through the handlers of a page in their order and runs one pass for each whose schema has
something for the host. A handler whose schema cannot be had is passed over. A reload ends the walk.

* `Walk.run_append`: a walk over two lists is a walk over one and then the other, unless a reload ended it.
-/

namespace PageSweep

/-- What the pass of a handler did. -/
structure Report where
  handler : String
  shape : String
  summary : Summary
deriving DecidableEq, Repr

def Report.toJson (r : Report) : Json :=
  .obj [("handler", .str r.handler), ("shape", .str r.shape), ("summary", r.summary.toJson)]

structure Walk where
  page : Page
  sweeper : Sweeper
  cache : SchemaCache
  reports : List Report
  sent : List Message
  log : List Event
  /-- The addresses that were asked for schemas. -/
  asked : List String
  /-- In milliseconds from when the page was opened. -/
  clock : Nat
  /-- When its last wait began. -/
  waitBegan : Nat
  /-- Whether a reload ended the walk. -/
  halted : Bool

namespace Walk

/-- The walk after its answer to a schema reference. -/
def take (w : Walk) (r : Resolved) : Walk :=
  { w with cache := r.cache, asked := w.asked ++ r.asked, log := w.log ++ r.log }

/-- The text of a handler's schema, if it can be had. -/
def schemaOf (answers : String → Answer) (h : Handler) (w : Walk) : Option String × Walk :=
  if h.isRemote then
    let r := w.cache.resolve answers w.clock (Text.trim h.schema)
    let w := w.take r
    match r.result with
    | .ok text => (some text, w)
    | .error e => (none, { w with log := w.log ++ [.handlerSkipped h.name e] })
  else (some h.schema, w)

/-- Runs one pass; the page was opened at a moment. -/
def pass (opened : Instant) (h : Handler) (shape : String) (schema : Json) (w : Walk) : Walk :=
  let r := w.sweeper.run (opened.later w.clock) schema w.page
  { w with
    page := r.scene.page
    sweeper := w.sweeper.after r
    reports := w.reports ++ [⟨h.name, shape, r.summary⟩]
    sent := w.sent ++ r.scene.sent
    log := w.log ++ r.scene.log
    clock := w.clock + r.elapsed
    waitBegan := if r.elapsed = 0 then w.waitBegan else w.clock + r.beforeLast
    halted := r.halted }

/-- Goes to a handler. -/
def visit (answers : String → Answer) (opened : Instant) (h : Handler) (w : Walk) : Walk :=
  match w.schemaOf answers h with
  | (none, w) => w
  | (some text, w) =>
    let (group, log) := ActionGroup.detectText text
    let w := { w with log := w.log ++ log }
    match group.select? h w.page.hostname with
    | none => w
    | some schema => w.pass opened h group.shapeName schema

/-- Goes through handlers, up to a reload. -/
def run (answers : String → Answer) (opened : Instant) : List Handler → Walk → Walk
  | [], w => w
  | h :: hs, w => if w.halted then w else run answers opened hs (w.visit answers opened h)

theorem run_of_halted (answers : String → Answer) (opened : Instant) (hs : List Handler) {w : Walk}
    (h : w.halted) : w.run answers opened hs = w := by
  cases hs with
  | nil => rfl
  | cons _ _ => simp [run, h]

theorem run_append (answers : String → Answer) (opened : Instant) (hs ks : List Handler) (w : Walk) :
    w.run answers opened (hs ++ ks) = (w.run answers opened hs).run answers opened ks := by
  induction hs generalizing w with
  | nil => rfl
  | cons h hs ih =>
    by_cases hw : w.halted
    · simp [run, hw, run_of_halted]
    · simp only [List.cons_append, run, hw]
      exact ih _

end Walk

end PageSweep
