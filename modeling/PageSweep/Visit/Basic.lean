import PageSweep.Visit.Walk

/-!
# Visits

The time that a page is open: the page, what sweeps it, the handlers to walk through and the schemas that
were fetched for them.
-/

namespace PageSweep

structure Visit where
  page : Page
  sweeper : Sweeper
  cache : SchemaCache
  handlers : List Handler
  /-- When the page was opened. -/
  opened : Instant
  /-- In milliseconds from then. -/
  clock : Nat

namespace Visit

def open_ (page : Page) (maxDepth ttl : Nat) (handlers : List Handler) (opened : Instant) : Visit :=
  ⟨page, .new maxDepth, .new ttl, handlers, opened, 0⟩

/-- Replaces the handlers. Schemas fetched for the old ones are forgotten. -/
def reset (v : Visit) (handlers : List Handler) : Visit × List Event :=
  ({ v with handlers := handlers, cache := v.cache.clear }, [.configurationReset])

/-- The walk through the handlers, begun at a time. -/
def walk (v : Visit) (answers : String → Answer) (begun : Nat) : Walk :=
  Walk.run answers v.opened v.handlers ⟨v.page, v.sweeper, v.cache, [], [], [], [], begun, begun, false⟩

/-- The visit after a walk. -/
def after (v : Visit) (w : Walk) : Visit :=
  { v with page := w.page, sweeper := w.sweeper, cache := w.cache, clock := w.clock }

end Visit

end PageSweep
