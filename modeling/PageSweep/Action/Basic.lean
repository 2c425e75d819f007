import PageSweep.Json.Basic

/-!
# Actions

An operation is one effect on the page. An action is an operation with a delay before it and the actions
that follow its success and its failure; the actions that can follow each other form a binary tree, the
`Chain`, and a run takes one path through it.
-/

namespace PageSweep

/-- A style property and its value. -/
abbrev Declaration := String × String

inductive Op where
  | log (text : String)
  | click (target : String)
  | remove (target : String)
  | hide (target : String)
  | style (target : String) (declarations : List Declaration)
  | removeClass (target className : String)
  | clearCookie (name : String)
  | clearAllCookies
  | addGlobalStyle (selector : String) (declarations : List Declaration)
  | removeGlobalStyle (selector : String)
  | reload
  /-- What is no operation; it fails when it is run. -/
  | invalid (reason : String)
deriving DecidableEq, Repr

def Op.name : Op → String
  | log _ => "log"
  | click _ => "click"
  | remove _ => "remove"
  | hide _ => "hide"
  | style _ _ => "style"
  | removeClass _ _ => "removeClass"
  | clearCookie _ => "clearCookie"
  | clearAllCookies => "clearAllCookies"
  | addGlobalStyle _ _ => "addGlobalStyle"
  | removeGlobalStyle _ => "removeGlobalStyle"
  | reload => "reload"
  | invalid _ => "invalid"

/-- An action with what may follow it; `delay` is in milliseconds. -/
inductive Chain where
  | done
  | link (op : Op) (delay : Nat) (onSuccess onError : Chain)
deriving DecidableEq, Repr

namespace Chain

def isDone : Chain → Bool
  | done => true
  | link _ _ _ _ => false

/-- What follows an action that ended well or not. -/
def next (ok : Bool) : Chain → Chain
  | done => done
  | link _ _ onSuccess onError => if ok then onSuccess else onError

end Chain

end PageSweep
