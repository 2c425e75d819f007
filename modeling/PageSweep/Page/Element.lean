import PageSweep.Action.Basic
import PageSweep.Table
import PageSweep.Text.Pieces

/-!
# Elements

What a page holds: a tag, attributes, an inline style whose properties keep the order in which they were
first set, and how often it was clicked. Clicks are counted in 32 bits, and no further: a click on an element
that is full is not counted.

* `Element.toNat_click`: the clicks after one more.
-/

namespace PageSweep

open Text

/-- The last number that can be counted to in 32 bits. -/
def countLimit : UInt32 := 4294967295

/-- A count below the limit goes up by one. -/
theorem toNat_succ_of_ne {n : UInt32} (h : n ≠ countLimit) : (n + 1).toNat = n.toNat + 1 := by
  have hne : n.toNat ≠ countLimit.toNat := fun heq => h (UInt32.toNat_inj.1 heq)
  have hlimit : countLimit.toNat = 4294967295 := rfl
  have hlt := n.toNat_lt
  have hone : (1 : UInt32).toNat = 1 := rfl
  rw [UInt32.toNat_add, hone, Nat.mod_eq_of_lt (by omega)]

structure Element where
  tag : String
  attrs : Table String
  style : List Declaration
  clicks : UInt32
deriving DecidableEq

namespace Element

/-- An element of a tag with attributes; tag and names in lower case. -/
def ofTag (tag : String) (attrs : List (String × String)) : Element :=
  ⟨lower tag, .ofList (attrs.map fun a => (lower a.1, a.2)), [], 0⟩

def id? (e : Element) : Option String := e.attrs.get? "id"

/-- The words of the class attribute. -/
def classes (e : Element) : List String := ((e.attrs.get? "class").map words).getD []

def hasClass (e : Element) (className : String) : Bool := e.classes.contains className

/-- The value of the first declaration of a property. -/
def styleValue? (e : Element) (property : String) : Option String :=
  (e.style.find? (·.1 == property)).map (·.2)

/-- Sets a property where it stands first, or else last. -/
def declare (property value : String) : List Declaration → List Declaration
  | [] => [(property, value)]
  | d :: ds => if d.1 = property then (property, value) :: ds else d :: declare property value ds

def setStyle (e : Element) (property value : String) : Element :=
  { e with style := declare property value e.style }

/-- Takes a word out of the class attribute, if there is one; one blank is left between the others. -/
def removeClass (e : Element) (className : String) : Element :=
  match e.attrs.get? "class" with
  | none => e
  | some text =>
    { e with attrs := e.attrs.insert "class" (join " " ((words text).filter (· ≠ className))) }

/-- Whether no more clicks can be counted. -/
def isFull (e : Element) : Bool := e.clicks == countLimit

def click (e : Element) : Element := if e.isFull then e else { e with clicks := e.clicks + 1 }

theorem tag_click (e : Element) : e.click.tag = e.tag := by
  unfold click
  split <;> rfl

theorem toNat_click {e : Element} (h : e.isFull = false) : e.click.clicks.toNat = e.clicks.toNat + 1 := by
  rw [click, if_neg (by simp [h])]
  exact toNat_succ_of_ne (by simpa [isFull] using h)

theorem declare_declare (property value value' : String) (ds : List Declaration) :
    declare property value' (declare property value ds) = declare property value' ds := by
  induction ds with
  | nil => simp [declare]
  | cons d ds ih => by_cases h : d.1 = property <;> simp [declare, h, ih]

end Element

end PageSweep
