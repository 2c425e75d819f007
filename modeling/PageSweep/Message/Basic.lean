import PageSweep.Json.Basic

/-!
# Messages

What a pass tells the browser around it: how much it took off the page, that all cookies are to go, that
counting starts anew.
-/

namespace PageSweep

inductive Message where
  | updateCounter (count : Nat)
  | clearAllCookies
  | resetCounter
deriving DecidableEq, Repr

namespace Message

def name : Message → String
  | updateCounter _ => "updateCounter"
  | clearAllCookies => "clearAllCookies"
  | resetCounter => "resetCounter"

/-- What a message adds to the total. -/
def count : Message → Nat
  | updateCounter n => n
  | clearAllCookies => 0
  | resetCounter => 0

/-- The form on the wire, its name first. -/
def toJson (m : Message) : Json :=
  .obj (("action", .str m.name) ::
    match m with
    | updateCounter n => [("count", .ofNat n)]
    | clearAllCookies => []
    | resetCounter => [])

end Message

end PageSweep
