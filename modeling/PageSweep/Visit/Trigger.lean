/-!
# Triggers

A trigger asks for a walk. Calls of it share a flag, which says that a walk is asked for, and a lock, which
is held during walks. A call raises the flag and then, as long as the flag is up, tries to take the lock. If
another call holds it, the call returns with nothing: the holder will see the flag, since it looks again
after each walk and once more after it gave the lock back. The holder takes the flag down before each walk.

Each step of a call reads or changes one thing that is shared, so calls may be interleaved step by step.

Others may hold the lock to look at the page. They stand in a row for it, and who gives the lock back hands
it to the first of the row; a trigger does not stand in the row.

* `Gate.holder_release`: a lock that is given back is free only if nobody waits.
-/

namespace PageSweep

/-- What calls share. -/
structure Gate where
  /-- Whether a walk is asked for. -/
  pending : Bool
  /-- Who holds the lock. -/
  holder : Option Nat
  /-- Those who stand in the row for the lock. -/
  waiting : List Nat
deriving DecidableEq, Repr

namespace Gate

def idle : Gate := ⟨false, none, []⟩

/-- Gives the lock back. -/
def release (g : Gate) : Gate := { g with holder := g.waiting.head?, waiting := g.waiting.tail }

/-- Takes the lock if it is free, or stands in the row. -/
def request (me : Nat) (g : Gate) : Gate :=
  if g.holder.isNone then { g with holder := some me } else { g with waiting := g.waiting ++ [me] }

theorem holder_release (g : Gate) : g.release.holder = none ↔ g.waiting = [] := by
  simp [release]

end Gate

/-- What a call does next. -/
inductive Phase where
  | ask
  /-- Look whether a walk is asked for. -/
  | look
  /-- Take the lock, or give up. -/
  | enter
  /-- With the lock: take the request, or go. -/
  | claim
  /-- With the lock: read the handlers and set out. -/
  | setOut
  /-- With the lock: on a walk. -/
  | walk
  /-- Give the lock back. -/
  | leave
  | returned
deriving DecidableEq, Repr

/-- A call, with the reports of its walks once it has had the lock. -/
structure Call (ρ : Type) where
  phase : Phase
  reports : Option (List ρ)
deriving DecidableEq, Repr

namespace Call

variable {ρ : Type}

def new : Call ρ := ⟨.ask, none⟩

/-- A step of the call with a number that concerns the gate alone. -/
def step (me : Nat) (g : Gate) (c : Call ρ) : Gate × Call ρ :=
  match c.phase with
  | .ask => ({ g with pending := true }, { c with phase := .look })
  | .look => (g, { c with phase := if g.pending then .enter else .returned })
  | .enter =>
    if g.holder.isNone then
      ({ g with holder := some me }, ⟨.claim, some (c.reports.getD [])⟩)
    else (g, { c with phase := .returned })
  | .claim =>
    if g.pending then ({ g with pending := false }, { c with phase := .setOut })
    else (g, { c with phase := .leave })
  | .leave => (g.release, { c with phase := .look })
  | .setOut => (g, c)
  | .walk => (g, c)
  | .returned => (g, c)

/-- The call sets out on a walk. -/
def setOut (c : Call ρ) : Call ρ := { c with phase := .walk }

/-- The call comes back from a walk. -/
def comeBack (c : Call ρ) (found : List ρ) : Call ρ := ⟨.claim, some (c.reports.getD [] ++ found)⟩

end Call

/-- What someone does who wants to look at the page. -/
inductive Borrow where
  | request
  | wait
  | returned
deriving DecidableEq, Repr

/-- A step of someone with a number who wants to look at the page; waiting goes on without the lock. -/
def Borrow.step (me : Nat) (g : Gate) (b : Borrow) : Gate × Borrow :=
  match b with
  | .request => (g.request me, .wait)
  | .wait => if g.holder = some me then (g.release, .returned) else (g, .wait)
  | .returned => (g, .returned)

end PageSweep
