import PageSweep.Handler
import PageSweep.Schema.Reader

/-!
# Groups of actions

A schema has one of three shapes: a list of actions for the host that its handler names, a list of entries
each with the host it is for, or an object with the lists under their hosts. Selecting takes from a group
what is for a host.
-/

namespace PageSweep

inductive ActionGroup where
  | flat (items : List Json)
  /-- Entries with the host each is for. -/
  | perEntry (entries : List (String × Json))
  /-- Lists under the host each is for, in the order of the hosts. -/
  | keyed (entries : List (String × List Json))

namespace ActionGroup

open Schema

/-- The host that an entry is for. -/
def domainOf? (entry : Json) : Option String :=
  ((entry.get? "domain").bind Json.text?).filter (· ≠ "")

/-- Whether an object holds lists under hosts: it has fields, and none that makes it an action. -/
def isDomainMap (fields : List (String × Json)) : Bool :=
  !fields.isEmpty && (Entries.get? "action" fields).isNone

/-- The group that a list of entries forms. -/
def ofEntries (items : List Json) : ActionGroup :=
  if items.any fun item => (domainOf? item).isSome then
    perEntry (items.filterMap fun item => (domainOf? item).map fun domain => (domain, item))
  else flat items

/-- The group that a schema forms under its layers of text, and what there is to report. -/
def ofCore (core : Core) : ActionGroup × List Event :=
  match core with
  | .unreadable _ e => (flat [], [.schemaUnreadable e])
  | .value (.obj fields) =>
    if isDomainMap fields then
      (keyed (fields.filterMap fun f => f.2.items?.map fun items => (f.1, items)), [])
    -- An object that is an action itself is no list, and no list has entries for a host.
    else (flat [], core.entries.2)
  | .value _ => (ofEntries core.entries.1, core.entries.2)

def detect (schema : Json) : ActionGroup × List Event := ofCore (unwrap schema)

def detectText (text : String) : ActionGroup × List Event := ofCore (unwrapText text)

def shapeName : ActionGroup → String
  | flat _ => "flat"
  | perEntry _ => "scoped"
  | keyed _ => "keyed"

/-- The number of entries, under all hosts together. -/
def size : ActionGroup → Nat
  | flat items => items.length
  | perEntry entries => entries.length
  | keyed entries => (entries.map fun e => e.2.length).foldr (· + ·) 0

def isEmpty (g : ActionGroup) : Bool := g.size == 0

/-- The hosts that entries are for. -/
def domains : ActionGroup → List String
  | flat _ => []
  | perEntry entries => entries.map (·.1)
  | keyed entries => entries.map (·.1)

/-- What of a group is for a host: everything if the handler is, the entries for the host, or the list
under the host itself and else the one under its last two labels. -/
def select? (g : ActionGroup) (handler : Handler) (host : String) : Option Json :=
  match g with
  | flat items => if handler.appliesTo host && !items.isEmpty then some (.arr items) else none
  | perEntry entries =>
    let matched := (entries.filter fun e => Host.isMatch e.1 host).map (·.2)
    if matched.isEmpty then none else some (.arr matched)
  | keyed entries =>
    ((Entries.get? host entries).or (Entries.get? (Host.baseDomain host) entries)).map .arr

end ActionGroup

end PageSweep
