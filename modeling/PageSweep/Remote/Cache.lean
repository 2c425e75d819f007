import PageSweep.Gist
import PageSweep.Table

/-!
# Fetched schemas

Schemas that handlers name by an address are fetched and kept for a while, under the address that was asked.
A fetch has two halves, since time passes in between: looking into the cache, and taking in the answer. Only
an answer that carries a schema is kept. Times are in milliseconds.

* `SchemaCache.look_take`: what was taken in is found again as long as it is fresh.
-/

namespace PageSweep

/-- What comes back for an address. -/
inductive Answer where
  | reply (status : Nat) (body : String)
  | unreachable
deriving DecidableEq, Repr

/-- Whether an answer carries what was asked for. -/
def Answer.isSuccess : Answer → Bool
  | reply status _ => 200 ≤ status && status < 300
  | unreachable => false

structure CachedSchema where
  content : String
  fetchedAt : Nat
deriving DecidableEq, Repr

structure SchemaCache where
  /-- For how many seconds a schema is fresh. -/
  ttl : Nat
  schemas : Table CachedSchema

namespace SchemaCache

def defaultTtl : Nat := 3600

def new (ttl : Nat) : SchemaCache := ⟨ttl, .empty⟩

def size (c : SchemaCache) : Nat := c.schemas.size

def clear (c : SchemaCache) : SchemaCache := new c.ttl

def isFresh (c : SchemaCache) (now : Nat) (s : CachedSchema) : Bool := now - s.fetchedAt < 1000 * c.ttl

/-- Looks for a fresh schema; one that is no longer fresh is dropped. -/
def look (c : SchemaCache) (now : Nat) (address : String) : Option String × SchemaCache :=
  match c.schemas.get? address with
  | none => (none, c)
  | some s =>
    if c.isFresh now s then (some s.content, c)
    else (none, { c with schemas := c.schemas.erase address })

/-- Takes in the answer for an address. -/
def take (c : SchemaCache) (now : Nat) (address : String) (a : Answer) :
    Except Error String × SchemaCache :=
  match a with
  | .unreachable => (.error .transport, c)
  | .reply status body =>
    if a.isSuccess then (.ok body, { c with schemas := c.schemas.insert address ⟨body, now⟩ })
    else (.error (.remoteLoad address status), c)

theorem look_take (c : SchemaCache) (t now : Nat) (address body : String) (status : Nat)
    (hs : (Answer.reply status body).isSuccess) (ht : now - t < 1000 * c.ttl) :
    ((c.take t address (.reply status body)).2.look now address).1 = some body := by
  simp [take, hs, look, isFresh, ht]

end SchemaCache

/-- What became of a schema reference. -/
structure Resolved where
  result : Except Error String
  cache : SchemaCache
  /-- The addresses that were asked. -/
  asked : List String
  log : List Event

namespace SchemaCache

/-- The schema behind a reference, from the cache or else as it is answered. -/
def resolve (c : SchemaCache) (answers : String → Answer) (now : Nat) (reference : String) : Resolved :=
  let (address, log) := Gist.rawAddress reference
  match c.look now address with
  | (some content, c) => ⟨.ok content, c, [], log⟩
  | (none, c) =>
    -- Nothing is kept of an answer that fails.
    let (result, c) := c.take now address (answers address)
    ⟨result, c, [address], log⟩

end SchemaCache

end PageSweep
