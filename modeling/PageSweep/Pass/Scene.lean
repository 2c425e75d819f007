import PageSweep.Message.Basic
import PageSweep.Page.Basic

/-!
# Scenes

What the operations of a pass read and change: the page, the styles that passes have put on it, how much the
pass took off so far, the messages it sent and the log.
-/

namespace PageSweep

/-- How much a pass took off the page. -/
structure Counters where
  elements : Nat
  cookies : Nat
deriving DecidableEq, Repr

namespace Counters

def zero : Counters := ⟨0, 0⟩

def total (c : Counters) : Nat := c.elements + c.cookies

end Counters

structure Scene where
  page : Page
  /-- The rule last put on the page for each selector. -/
  styles : Table String
  counters : Counters
  sent : List Message
  log : List Event

namespace Scene

def report (s : Scene) (e : Event) : Scene := { s with log := s.log ++ [e] }

def send (s : Scene) (m : Message) : Scene := { s with sent := s.sent ++ [m] }

def withPage (s : Scene) (p : Page) : Scene := { s with page := p }

def countElements (s : Scene) (n : Nat) : Scene :=
  { s with counters := { s.counters with elements := s.counters.elements + n } }

def countCookies (s : Scene) (n : Nat) : Scene :=
  { s with counters := { s.counters with cookies := s.counters.cookies + n } }

end Scene

end PageSweep
