import PageSweep.Pass.Actions
import PageSweep.Pass.Effect

/-!
# Passes

One pass runs the actions of a schema on a page, each with the actions that follow it, up to a reload. It
ends with at most one message of how much was taken off.

Waiting takes no effort: the clock of a run goes forward by each delay, and the run records for how long it
waited in all.

A count that would run over ends the program. What the rest of the run would have done is described all the same,
on a page that is marked (`Page.overran`), but nobody sees it.

* `Run.perform_executed`, `Run.perform_failed`: what an operation adds to the counts of a run.
-/

namespace PageSweep

structure Run where
  scene : Scene
  /-- Operations carried out. -/
  executed : Nat
  /-- Those of them that did not end well. -/
  failed : Nat
  /-- Whether a reload ended the run. -/
  halted : Bool
  /-- The milliseconds waited so far. -/
  elapsed : Nat
  /-- How many of them lay before the last wait. -/
  beforeLast : Nat

namespace Run

/-- Waits; no time at all is no wait. -/
def wait (r : Run) (ms : Nat) : Run :=
  if ms = 0 then r else { r with elapsed := r.elapsed + ms, beforeLast := r.elapsed }

def report (r : Run) (e : Event) : Run := { r with scene := r.scene.report e }

/-- Carries out an operation in a run that began at a moment: whether it ended well, and the run after it.
An error is logged. -/
def perform (began : Instant) (op : Op) (r : Run) : Bool × Run :=
  let (result, scene) := op.apply (began.later r.elapsed) r.scene
  let (ok, scene) := match result with
    | .ok ok => (ok, scene)
    | .error e => (false, scene.report (.actionFailed op.name e))
  (ok, { r with
    scene := scene
    executed := r.executed + 1
    failed := if ok then r.failed else r.failed + 1
    halted := op.halts })

theorem perform_executed (began : Instant) (op : Op) (r : Run) :
    (r.perform began op).2.executed = r.executed + 1 := rfl

theorem perform_failed (began : Instant) (op : Op) (r : Run) :
    (r.perform began op).2.failed =
      if (r.perform began op).1 then r.failed else r.failed + 1 := rfl

end Run

/-- Runs a chain; after its first action at most `budget` of at most `maxDepth` more are run. -/
def Chain.run (began : Instant) (maxDepth : Nat) : Chain → Nat → Run → Run
  | .done, _, r => r
  | .link op delay onSuccess onError, budget, r =>
    let (ok, r) := (r.wait delay).perform began op
    if r.halted then r
    else if (if ok then onSuccess else onError).isDone then r
    -- There is an action to follow, but no room for it.
    else if budget = 0 then r.report (.chainDropped (.chainTooDeep maxDepth))
    else if ok then onSuccess.run began maxDepth (budget - 1) r
    else onError.run began maxDepth (budget - 1) r

/-- Runs chains one after the other, until one of them halts. -/
def Chain.runAll (began : Instant) (maxDepth : Nat) : List Chain → Run → Run
  | [], r => r
  | c :: cs, r => if r.halted then r else runAll began maxDepth cs (c.run began maxDepth maxDepth r)

/-- What a pass did. -/
structure Summary where
  elements : Nat
  cookies : Nat
  executed : Nat
  failed : Nat
  halted : Bool
deriving DecidableEq, Repr

namespace Summary

def total (s : Summary) : Nat := s.elements + s.cookies

/-- The written form, fields in their order. -/
def toJson (s : Summary) : Json :=
  .obj [("elements", .ofNat s.elements), ("cookies", .ofNat s.cookies),
    ("executed", .ofNat s.executed), ("failed", .ofNat s.failed), ("halted", .bool s.halted)]

end Summary

def Run.summary (r : Run) : Summary :=
  ⟨r.scene.counters.elements, r.scene.counters.cookies, r.executed, r.failed, r.halted⟩

/-- The end of a pass: what was taken off is told and logged, if it was anything. -/
def Run.close (r : Run) : Run :=
  let s := r.summary
  if s.total = 0 then r
  else { r with scene := (r.scene.send (.updateCounter s.total)).report (.swept s.elements s.cookies) }

/-- What stays from one pass to the next. -/
structure Sweeper where
  /-- How many actions may follow the first one of a chain, and how deep lists may lie in each other. -/
  maxDepth : Nat
  styles : Table String
  counters : Counters

namespace Sweeper

def defaultMaxDepth : Nat := 32

def new (maxDepth : Nat) : Sweeper := ⟨maxDepth, .empty, .zero⟩

/-- Forgets styles and counters; what is on the page stays there. -/
def reset (i : Sweeper) : Sweeper := new i.maxDepth

/-- The run at the start of a pass. -/
def start (i : Sweeper) (page : Page) (log : List Event) : Run :=
  ⟨⟨page, i.styles, .zero, [], log⟩, 0, 0, false, 0, 0⟩

/-- One pass of a schema on a page, begun at a moment. -/
def run (i : Sweeper) (began : Instant) (schema : Json) (page : Page) : Run :=
  let (actions, log) := collect i.maxDepth 0 schema
  (Chain.runAll began i.maxDepth actions (i.start page log)).close

/-- The sweeper after a run. -/
def after (i : Sweeper) (r : Run) : Sweeper := ⟨i.maxDepth, r.scene.styles, r.scene.counters⟩

end Sweeper

end PageSweep
