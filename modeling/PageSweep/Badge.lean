import PageSweep.Message.Reader
import PageSweep.Record.Yaml
import PageSweep.Yaml.Writer

/-!
# The badge

The running total of what passes took off, as the badge shows it. The total stops at the greatest count and
does not wrap.
-/

namespace PageSweep

open Number

structure Badge where
  total : Nat
  total_le : total ≤ maxCount
deriving DecidableEq

namespace Badge

/-- The greatest total that the badge shows as it is. -/
def shownMax : Nat := 99

def ofNat (n : Nat) : Badge := ⟨min n maxCount, Nat.min_le_right _ _⟩

def zero : Badge := ofNat 0

instance : Inhabited Badge := ⟨zero⟩

/-- The total after a message. -/
def apply (b : Badge) : Message → Badge
  | .updateCounter n => ofNat (b.total + n)
  | .resetCounter => zero
  | .clearAllCookies => b

/-- The total after messages in their order. -/
def applyAll (b : Badge) (ms : List Message) : Badge := ms.foldl apply b

def text (b : Badge) : String := if shownMax < b.total then natText shownMax ++ "+" else natText b.total

/-! ### The stored form -/

def shape : Shape := .record "struct BadgeCounter" [(["total_counter"], false, .count maxCount "u64")]

def readYaml (text : String) : Except Error Badge :=
  (shape.readYaml text).map fun d => ofNat (d.countAt "total_counter" 0)

/-- The badge of a file that may be absent. -/
def load : Option String → Except Error Badge
  | none => .ok zero
  | some text => readYaml text

def toJson (b : Badge) : Json := .obj [("total_counter", .ofNat b.total)]

def writeYaml (b : Badge) : String := Yaml.write b.toJson

@[simp] theorem total_apply_updateCounter (b : Badge) (n : Nat) :
    (b.apply (.updateCounter n)).total = min (b.total + n) maxCount := rfl

@[simp] theorem total_apply_resetCounter (b : Badge) : (b.apply .resetCounter).total = 0 := rfl

@[simp] theorem apply_clearAllCookies (b : Badge) : b.apply .clearAllCookies = b := rfl

end Badge

end PageSweep
