import PageSweep.Visit.Basic
import PageSweep.Visit.Trigger

/-!
# Timelines

Triggers at given times on a clock of milliseconds, on which only the delays of actions take time. At each
instant those whose waiting is over take their turns, who began to wait first going first, and in the order
of the list who began together. A turn lasts until the call returns or is on a walk that still lasts.

All begin to wait for their own times at once, so a call that comes back from a walk has to let those go
first that arrive at that instant, unless its walk too was one wait from the start.

* `Timeline.order_perm`: everyone has one turn at each instant.
-/

namespace PageSweep

/-- A call with its time, and the walk it is on: what that found, and when it ends. -/
structure Visitor where
  arrival : Nat
  call : Call Report
  found : List Report
  back : Nat
  /-- When it began the wait that it is in. -/
  waitBegan : Nat

structure Timeline where
  visit : Visit
  gate : Gate
  visitors : List Visitor
  sent : List Message
  log : List Event
  asked : List String

namespace Timeline

def start (v : Visit) (arrivals : List Nat) : Timeline :=
  ⟨v, .idle, arrivals.map fun t => ⟨v.clock + t, .new, [], 0, v.clock⟩, [], [], []⟩

/-- The timeline with the visitor of a number changed. -/
def put (tl : Timeline) (i : Nat) (x : Visitor) : Timeline :=
  { tl with visitors := tl.visitors.set i x }

/-- A visitor sets out on a walk. Its effects show at once, since nobody looks before it ends. -/
def setOut (answers : String → Answer) (now i : Nat) (x : Visitor) (tl : Timeline) : Timeline :=
  let w := tl.visit.walk answers now
  let x := { x with call := x.call.setOut, found := w.reports, back := w.clock, waitBegan := w.waitBegan }
  { tl.put i x with
    visit := tl.visit.after w
    sent := tl.sent ++ w.sent
    log := tl.log ++ w.log
    asked := tl.asked ++ w.asked }

/-- The turn of a visitor at an instant, of at most `fuel` steps. -/
def turn (answers : String → Answer) (now i : Nat) : Nat → Timeline → Timeline
  | 0, tl => tl
  | fuel + 1, tl =>
    match tl.visitors[i]? with
    | none => tl
    | some x =>
      -- A call that is not there yet, is back, or is still on its walk has no turn.
      if now < x.arrival then tl
      else match x.call.phase with
        | .returned => tl
        | .setOut => turn answers now i fuel (tl.setOut answers now i x)
        | .walk =>
          if now < x.back then tl
          else turn answers now i fuel (tl.put i { x with call := x.call.comeBack x.found })
        | _ =>
          let (gate, call) := x.call.step i tl.gate
          turn answers now i fuel { tl.put i { x with call := call } with gate := gate }

/-- The steps that a turn may take: a walk for each request, and the way in and out. -/
def turnSteps (tl : Timeline) : Nat := 4 * tl.visitors.length + 8

/-- The numbers of the visitors, who began to wait first standing first. -/
def order (tl : Timeline) : List Nat :=
  (tl.visitors.zipIdx.mergeSort fun a b => a.1.waitBegan ≤ b.1.waitBegan).map (·.2)

/-- Everyone has one turn at each instant. -/
theorem order_perm (tl : Timeline) : tl.order.Perm (List.range tl.visitors.length) := by
  have h := (List.mergeSort_perm tl.visitors.zipIdx fun a b => a.1.waitBegan ≤ b.1.waitBegan).map (·.2)
  rw [List.zipIdx_map_snd, ← List.range_eq_range'] at h
  exact h

/-- The turns of all visitors at an instant. -/
def turns (answers : String → Answer) (now : Nat) (tl : Timeline) : Timeline :=
  tl.order.foldl (fun tl i => tl.turn answers now i tl.turnSteps) tl

/-- The next instant at which something happens. -/
def next? (now : Nat) (tl : Timeline) : Option Nat :=
  (tl.visitors.filterMap fun x =>
    if now < x.arrival then some x.arrival
    else if x.call.phase = .walk ∧ now < x.back then some x.back
    else none).min?

/-- Goes on from an instant, over at most `fuel` instants. -/
def run (answers : String → Answer) : Nat → Nat → Timeline → Timeline
  | 0, _, tl => tl
  | fuel + 1, now, tl =>
    let tl := tl.turns answers now
    match tl.next? now with
    | none => { tl with visit := { tl.visit with clock := max now tl.visit.clock } }
    | some t => run answers fuel t tl

/-- What the calls returned. -/
def reports (tl : Timeline) : List (Option (List Report)) := tl.visitors.map (·.call.reports)

end Timeline

/-- Triggers at times from now on. -/
def Visit.triggers (v : Visit) (answers : String → Answer) (arrivals : List Nat) : Timeline :=
  (Timeline.start v arrivals).run answers (2 * arrivals.length + 1) v.clock

end PageSweep
