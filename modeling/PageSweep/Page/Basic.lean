import PageSweep.Cookie.Jar
import PageSweep.Event
import PageSweep.Page.Forest
import PageSweep.Page.StyleSheet
import PageSweep.Selector.Matching
import PageSweep.Selector.Reader

/-!
# Pages

A page has a host, cookies, stylesheets and a forest of elements. An element that is removed stays in
existence: it and all below it leave the body and lie loose, where a script may still change them, but no
selector finds them. Elements are told apart by numbers, given in the order in which they were made.

The clicks on an element and the reloads of a page are counted in 32 bits, and a count that would run over ends
the program. The page is marked then, once and for all.
-/

namespace PageSweep

open Text

/-- An element with its number. -/
structure Node where
  ref : Nat
  element : Element
deriving DecidableEq

structure Page where
  hostname : String
  jar : CookieJar
  /-- Whether there is a place where stylesheets can be attached. -/
  headAttached : Bool
  sheets : Table StyleSheet
  body : Forest Node
  /-- The trees that were removed. -/
  loose : Forest Node
  /-- The number of the next element. -/
  next : Nat
  /-- Counted in 32 bits. -/
  reloads : UInt32
  /-- Whether something could not be counted on the page. That ends the program: nobody sees what is done to the
  page from then on. -/
  overran : Bool
deriving DecidableEq

namespace Page

/-- The empty page of a host. -/
def new (hostname : String) : Page :=
  ⟨hostname, .new hostname, true, .empty, .nil, .nil, 1, 0, false⟩

def withPath (p : Page) (path : String) : Page := { p with jar := p.jar.withPagePath path }

/-- The elements in the body, in document order. -/
def connected (p : Page) : List Node := p.body.preorder

def elementCount (p : Page) : Nat := p.connected.length

def isConnected (p : Page) (ref : Nat) : Bool := p.connected.any (·.ref == ref)

/-- The element of a number, wherever it is. -/
def element? (p : Page) (ref : Nat) : Option Element :=
  ((p.body.preorder ++ p.loose.preorder).find? (·.ref == ref)).map (·.element)

/-- Changes the element of a number. -/
def update (p : Page) (ref : Nat) (f : Element → Element) : Page :=
  let h (n : Node) : Node := if n.ref = ref then { n with element := f n.element } else n
  { p with body := p.body.map h, loose := p.loose.map h }

/-- Adds an element last below another one, or at the end of the body. -/
def append (p : Page) (parent : Option Nat) (e : Element) : Page × Nat :=
  let new := Forest.tree ⟨p.next, e⟩ .nil
  let p' := { p with next := p.next + 1 }
  match parent with
  | none => ({ p' with body := p.body.append new }, p.next)
  | some ref =>
    ({ p' with body := .addBelow (·.ref == ref) new p.body, loose := .addBelow (·.ref == ref) new p.loose },
      p.next)

/-- Adds an element of a tag with attributes. -/
def add (p : Page) (parent : Option Nat) (tag : String) (attrs : List (String × String)) : Page × Nat :=
  p.append parent (.ofTag tag attrs)

/-! ### What scripts do -/

/-- The numbers of the elements in the body that match, in document order. -/
def query (p : Page) (selector : String) : Except Error (List Nat) :=
  match Selector.read selector with
  | .error e => .error e
  | .ok s => .ok (((p.body.withAncestors []).filter fun n =>
      s.isMatch n.1.element (n.2.map (·.element))).map (·.1.ref))

/-- Takes an element from its place, with all below it; one that lies loose on its own stays so. -/
def remove (p : Page) (ref : Nat) : Page :=
  let (body, off) := p.body.cut (·.ref == ref)
  let (loose, apart) := p.loose.cutBelow (·.ref == ref)
  { p with body := body, loose := (loose.append apart).append off }

def setStyle (p : Page) (ref : Nat) (property value : String) : Page :=
  p.update ref (·.setStyle property value)

def removeClass (p : Page) (ref : Nat) (className : String) : Page :=
  p.update ref (·.removeClass className)

/-- The page after a click on an element. -/
def clicked (p : Page) (ref : Nat) : Page :=
  { p.update ref Element.click with overran := p.overran || (p.element? ref).any Element.isFull }

/-- Clicks an element; one that lies loose cannot be clicked. -/
def click (p : Page) (ref : Nat) : Except Error Page :=
  if p.isConnected ref then .ok (p.clicked ref)
  else .error (.action "click target is detached")

/-- The cookies that scripts see. -/
def cookieHeader (p : Page) : String := p.jar.header

def setCookie (p : Page) (directive : String) (now : Instant) : Page :=
  { p with jar := p.jar.write directive now }

/-- A stylesheet, made empty if it is not there; none without a head. -/
def openSheet? (p : Page) (id : String) : Option StyleSheet :=
  if p.headAttached then some ((p.sheets.get? id).getD .empty) else none

/-- The page with a stylesheet in place of the one of its id. -/
def putSheet (p : Page) (id : String) (s : StyleSheet) : Page := { p with sheets := p.sheets.insert id s }

def reload (p : Page) : Page :=
  { p with reloads := p.reloads + 1, overran := p.overran || p.reloads == countLimit }

end Page

end PageSweep
