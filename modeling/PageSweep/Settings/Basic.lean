import PageSweep.Handler
import PageSweep.Pass.Run
import PageSweep.Record.Yaml
import PageSweep.Remote.Cache
import PageSweep.Yaml.Writer

/-!
# Settings

The handlers in their order, and how passes and fetches behave. Handlers are told by their place in the
list, which changes when one before them is removed.
-/

namespace PageSweep

open Number

structure Settings where
  handlers : List Handler
  debug : Bool
  maxChainDepth : Nat
  /-- In seconds. -/
  cacheTtl : Nat
deriving DecidableEq, Repr

namespace Settings

/-- The handlers of someone who has set nothing. -/
def defaultHandlers : List Handler :=
  [⟨"un_cookies_list.json",
    "https://gist.githubusercontent.com/nsrau/c3a4430e7255223cb2e40844f4f98ca4/raw"⟩]

def default : Settings :=
  ⟨defaultHandlers, true, Sweeper.defaultMaxDepth, SchemaCache.defaultTtl⟩

/-! ### The list of handlers -/

/-- Puts a handler last: its place, and the settings with it. -/
def add (s : Settings) (h : Handler) : Nat × Settings :=
  (s.handlers.length, { s with handlers := s.handlers ++ [h] })

/-- A handler with a new name or schema, as far as they are given. -/
def amend (h : Handler) (name schema : Option String) : Handler :=
  ⟨name.getD h.name, schema.getD h.schema⟩

/-- Changes the handler at a place. -/
def update (s : Settings) (index : Nat) (name schema : Option String) :
    Except Error (Handler × Settings) :=
  match s.handlers[index]? with
  | none => .error (.handlerNotFound index)
  | some h =>
    let h := amend h name schema
    .ok (h, { s with handlers := s.handlers.set index h })

/-- Takes out the handler at a place. -/
def remove (s : Settings) (index : Nat) : Except Error (Handler × Settings) :=
  match s.handlers[index]? with
  | none => .error (.handlerNotFound index)
  | some h => .ok (h, { s with handlers := s.handlers.eraseIdx index })

/-! ### The stored form -/

def shape : Shape :=
  .record "struct Config" [(["handlers"], false, .list Handler.shape), (["debug"], false, .flag),
    (["max_chain_depth"], false, .count maxCount "usize"),
    (["cache_ttl_secs"], false, .count maxCount "u64")]

/-- The settings in data; what is not given is as usual, but without handlers. -/
def ofDatum (d : Datum) : Settings :=
  ⟨(d.itemsAt "handlers").map Handler.ofDatum, d.flagAt "debug" true,
    d.countAt "max_chain_depth" Sweeper.defaultMaxDepth, d.countAt "cache_ttl_secs" SchemaCache.defaultTtl⟩

def readYaml (text : String) : Except Error Settings := (shape.readYaml text).map ofDatum

/-- The settings of a file that may be absent. -/
def load : Option String → Except Error Settings
  | none => .ok default
  | some text => readYaml text

def readJson (text : String) : Except Json.Error Settings := (shape.read text).map ofDatum

/-- The written form, fields in their order. -/
def toJson (s : Settings) : Json :=
  .obj [("handlers", .arr (s.handlers.map Handler.toJson)), ("debug", .bool s.debug),
    ("max_chain_depth", .ofNat s.maxChainDepth), ("cache_ttl_secs", .ofNat s.cacheTtl)]

def writeYaml (s : Settings) : String := Yaml.write s.toJson

end Settings

end PageSweep
