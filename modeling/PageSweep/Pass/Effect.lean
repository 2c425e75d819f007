import PageSweep.Host
import PageSweep.Pass.Scene

/-!
# Effects of operations

What an operation does to a scene, and how it ends: well, not well, or with an error. An operation that
changes elements ends well if there is one to change.
-/

namespace PageSweep

open Text

/-- How an operation ended, and the scene after it. -/
abbrev Outcome := Except Error Bool × Scene

/-- The stylesheet that holds the rules of passes. -/
def styleSheetId : String := "un-cookie-styles"

namespace Scene

/-- Changes every element that a selector finds. -/
def onMatches (s : Scene) (selector : String) (change : List Nat → Scene → Scene) : Outcome :=
  match s.page.query selector with
  | .error e => (.error e, s)
  | .ok refs => (.ok (!refs.isEmpty), change refs s)

def click (s : Scene) (selector : String) : Outcome :=
  match s.page.query selector with
  | .error e => (.error e, s)
  | .ok [] => (.ok false, s.report (.clickTargetMissing selector))
  | .ok (first :: _) =>
    match s.page.click first with
    | .error e => (.error e, s)
    | .ok p => (.ok true, s.withPage p)

def remove (s : Scene) (selector : String) : Outcome :=
  s.onMatches selector fun refs s =>
    (s.withPage (refs.foldl Page.remove s.page)).countElements refs.length

def style (s : Scene) (selector : String) (ds : List Declaration) : Outcome :=
  s.onMatches selector fun refs s =>
    s.withPage (refs.foldl (fun p ref => ds.foldl (fun p d => p.setStyle ref d.1 d.2) p) s.page)

def removeClass (s : Scene) (selector className : String) : Outcome :=
  s.onMatches selector fun refs s =>
    s.withPage (refs.foldl (fun p ref => p.removeClass ref className) s.page)

/-! ### Cookies -/

/-- The date that lies before every present. -/
def longAgo : String := CookieDate.write 0

/-- The directives that together delete a cookie of the page's host, however it was set. -/
def deletions (host name : String) : List String :=
  let base := Host.baseDomain host
  [name ++ "=; Max-Age=0; path=/; domain=" ++ host,
    name ++ "=; Max-Age=0; path=/",
    name ++ "=; Max-Age=0; path=/; domain=." ++ host,
    name ++ "=; expires=" ++ longAgo ++ "; path=/; domain=" ++ host,
    name ++ "=; expires=" ++ longAgo ++ "; path=/"] ++
    (if base = host then [] else [name ++ "=; Max-Age=0; path=/; domain=." ++ base])

/-- The directive that deletes a cookie of the host alone. -/
def deletion (name : String) : String := name ++ "=; expires=" ++ longAgo ++ "; path=/;"

/-- Carries out directives one after the other. -/
def setCookies (p : Page) (now : Instant) (directives : List String) : Page :=
  directives.foldl (fun p d => p.setCookie d now) p

/-- Deletes the cookie of a name. It ends well if scripts saw such a cookie before and see none after. -/
def clearCookie (s : Scene) (now : Instant) (name : String) : Outcome :=
  let present := (headerNames s.page.cookieHeader).contains name
  let page := setCookies s.page now (deletions s.page.hostname name)
  let after := s.withPage page
  -- The directives are carried out even if there is no such cookie.
  if !present then (.ok false, after)
  else if (headerNames page.cookieHeader).contains name then
    (.ok false, after.report (.cookieSurvived name))
  else (.ok true, after.countCookies 1)

/-- Deletes the cookies that scripts see, as far as they are of the host alone. -/
def clearAllCookies (s : Scene) (now : Instant) : Outcome :=
  let names := headerNames s.page.cookieHeader
  let page := setCookies s.page now (names.map deletion)
  (.ok true, ((s.withPage page).countCookies names.length).send .clearAllCookies)

/-! ### Styles for the whole page -/

/-- The rule of a selector: `a { color: red; }`. -/
def ruleText (selector : String) (ds : List Declaration) : String :=
  selector ++ " \x7b " ++ join " " (ds.map fun d => d.1 ++ ": " ++ d.2 ++ ";") ++ " \x7d"

/-- Puts a rule at the end of the stylesheet. A stylesheet that is not there comes into being even if the
rule cannot be read. -/
def addGlobalStyle (s : Scene) (selector : String) (ds : List Declaration) : Outcome :=
  match s.page.openSheet? styleSheetId with
  | none => (.ok false, s.report (.styleNotAdded selector))
  | some sheet =>
    let rule := ruleText selector ds
    match sheet.appendRule rule with
    | .error e => (.error e, s.withPage (s.page.putSheet styleSheetId sheet))
    | .ok sheet =>
      (.ok true, { s.withPage (s.page.putSheet styleSheetId sheet) with
        styles := s.styles.insert selector rule })

/-- Takes the first rule of a selector out of the stylesheet. -/
def removeGlobalStyle (s : Scene) (selector : String) : Outcome :=
  match s.page.openSheet? styleSheetId with
  | none => (.ok false, s.report (.styleNotRemoved selector))
  | some sheet =>
    let opened := s.withPage (s.page.putSheet styleSheetId sheet)
    match sheet.find? selector with
    | none => (.ok false, opened)
    | some index =>
      match sheet.deleteRule index with
      | .error e => (.error e, opened)
      | .ok sheet =>
        (.ok true, { s.withPage (s.page.putSheet styleSheetId sheet) with
          styles := s.styles.erase selector })

end Scene

/-- Carries out an operation at a moment. -/
def Op.apply (op : Op) (now : Instant) (s : Scene) : Outcome :=
  match op with
  | .log text => (.ok true, s.report (.noted text))
  | .click target => s.click target
  | .remove target => s.remove target
  | .hide target => s.style target [("display", "none")]
  | .style target ds => s.style target ds
  | .removeClass target className => s.removeClass target className
  | .clearCookie name => s.clearCookie now name
  | .clearAllCookies => s.clearAllCookies now
  | .addGlobalStyle selector ds => s.addGlobalStyle selector ds
  | .removeGlobalStyle selector => s.removeGlobalStyle selector
  | .reload => (.ok true, (s.report .reloading).withPage s.page.reload)
  | .invalid reason => (.error (.action reason), s)

/-- Whether nothing is run after an operation. -/
def Op.halts : Op → Bool
  | .reload => true
  | _ => false

end PageSweep
