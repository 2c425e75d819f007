import PageSweep.Error

/-!
# Stylesheets

An ordered list of rules. A rule is text of the form `selector` and declarations in braces; it is kept
trimmed, together with its selector.
-/

namespace PageSweep

open Number Text

structure Rule where
  selectorText : String
  cssText : String
deriving DecidableEq, Repr

/-- The rule that a text writes: a selector before the first brace, and a closing brace at the end. -/
def Rule.ofText? (text : String) : Option Rule :=
  match cutAt '\x7b' text.toList with
  | none => none
  | some (before, after) =>
    let selector := trimList before
    if selector.isEmpty || !endsWithList ['\x7d'] (trimBack after) then none
    else some ⟨String.ofList selector, trim text⟩

structure StyleSheet where
  rules : List Rule
deriving DecidableEq, Repr

namespace StyleSheet

def empty : StyleSheet := ⟨[]⟩

instance : Inhabited StyleSheet := ⟨empty⟩

def size (s : StyleSheet) : Nat := s.rules.length

def outOfRange (index : Nat) : Error := .action ("rule index " ++ natText index ++ " out of range")

/-- Puts a rule in at a place, which may be the end. -/
def insertRule (s : StyleSheet) (text : String) (index : Nat) : Except Error StyleSheet :=
  match Rule.ofText? text with
  | none => .error (.action ("malformed css rule: " ++ text))
  | some rule =>
    if s.size < index then .error (outOfRange index) else .ok ⟨s.rules.insertIdx index rule⟩

/-- Puts a rule in at the end. -/
def appendRule (s : StyleSheet) (text : String) : Except Error StyleSheet := s.insertRule text s.size

def deleteRule (s : StyleSheet) (index : Nat) : Except Error StyleSheet :=
  if s.size ≤ index then .error (outOfRange index) else .ok ⟨s.rules.eraseIdx index⟩

/-- The place of the first rule with a selector. -/
def find? (s : StyleSheet) (selector : String) : Option Nat :=
  s.rules.findIdx? (·.selectorText == selector)

theorem appendRule_eq_ok {s t : StyleSheet} {text : String} :
    s.appendRule text = .ok t ↔ ∃ r, Rule.ofText? text = some r ∧ t = ⟨s.rules ++ [r]⟩ := by
  unfold appendRule insertRule size
  cases h : Rule.ofText? text with
  | none => simp
  | some r =>
    have : s.rules.insertIdx s.rules.length r = s.rules ++ [r] := by
      simp [List.insertIdx_length_self]
    simp [this, eq_comm]

theorem deleteRule_eq_ok {s t : StyleSheet} {index : Nat} :
    s.deleteRule index = .ok t ↔ index < s.size ∧ t = ⟨s.rules.eraseIdx index⟩ := by
  unfold deleteRule
  by_cases h : s.size ≤ index
  · simp [h, Nat.not_lt.2 h]
  · simp [h, Nat.not_le.1 h, eq_comm]

end StyleSheet

end PageSweep
