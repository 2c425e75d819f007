import PageSweep.Calendar.CookieDate
import PageSweep.Cookie.Basic

/-!
# The cookie jar

The cookies of a host, in the order they were last written. A script writes them one directive at a time,
`name=value; attribute; attribute`, where a later attribute overrides an earlier one. A write that has
expired deletes the cookie of its key and stores none. Reading shows the cookies whose path covers the page.
-/

namespace PageSweep

open Number Text

structure CookieJar where
  /-- In lower case. -/
  host : String
  pagePath : String
  cookies : List Cookie
deriving DecidableEq, Repr

/-- A domain as it is stored: trimmed, without dots in front, in lower case. -/
def normalizeDomain (domain : String) : String :=
  String.ofList (lowerList ((trimList domain.toList).dropWhile (· == '.')))

/-- Whether a domain is a host or ends it after a dot. -/
def domainCovers (domain host : String) : Bool := host == domain || endsWith ("." ++ domain) host

/-- Whether a cookie path is a page path or a directory on it. -/
def pathCovers (cookiePath pagePath : String) : Bool :=
  match after? cookiePath.toList pagePath.toList with
  | none => false
  | some rest => rest.isEmpty || endsWith "/" cookiePath || rest.head? == some '/'

/-- What a directive asks for: a cookie, and whether it has expired. -/
structure CookieWrite where
  cookie : Cookie
  expired : Bool
deriving DecidableEq, Repr

namespace CookieWrite

/-- A key and the value after it; a piece without `=` is a key with nothing after it. -/
def keyAndValue (piece : List Char) : List Char × List Char :=
  match cutAt '=' piece with
  | some (key, value) => (lowerList (trimList key), trimList value)
  | none => (lowerList (trimList piece), [])

/-- A write with an attribute more; none if the domain is not the host's. -/
def apply (host : String) (now : Instant) (piece : List Char) (w : CookieWrite) : Option CookieWrite :=
  let (key, value) := keyAndValue piece
  match String.ofList key with
  | "max-age" =>
    match readInteger? value with
    | some n => some { w with expired := n ≤ 0 }
    | none => some w
  | "expires" =>
    match CookieDate.read? (String.ofList value) with
    | some at_ => some { w with expired := at_.notAfter now }
    | none => some w
  | "path" =>
    if value.head? = some '/' then some { w with cookie := { w.cookie with path := String.ofList value } }
    else some w
  | "domain" =>
    if value.isEmpty then some w
    else
      let domain := normalizeDomain (String.ofList value)
      -- A directive for a domain of others does nothing at all.
      if domainCovers domain host then some { w with cookie := { w.cookie with domain := some domain } }
      else none
  | _ => some w

/-- The write with all its attributes. -/
def applyAll (host : String) (now : Instant) : List (List Char) → CookieWrite → Option CookieWrite
  | [], w => some w
  | piece :: pieces, w => (w.apply host now piece).bind (applyAll host now pieces)

/-- The write that a directive asks for at a host; none without a name, or for a domain of others. -/
def ofDirective? (host directive : String) (now : Instant) : Option CookieWrite :=
  match splitAt ';' directive.toList with
  | [] => none
  | first :: pieces =>
    match cutAt '=' first with
    | none => none
    | some (name, value) =>
      let name := trimList name
      if name.isEmpty then none
      else applyAll host now pieces
        ⟨⟨String.ofList name, String.ofList (trimList value), none, rootPath⟩, false⟩

end CookieWrite

namespace CookieJar

/-- The empty jar of a host, for a page at the root. -/
def new (host : String) : CookieJar := ⟨lower host, rootPath, []⟩

/-- The jar as a page at a path sees it; a path that is not absolute changes nothing. -/
def withPagePath (jar : CookieJar) (path : String) : CookieJar :=
  if startsWith "/" path then { jar with pagePath := path } else jar

/-- Takes the cookie of a key out. -/
def discard (jar : CookieJar) (cookie : Cookie) : CookieJar :=
  { jar with cookies := jar.cookies.filter fun c => !c.sameKey cookie }

/-- Puts a cookie last, in the place of the one with its key. -/
def put (jar : CookieJar) (cookie : Cookie) : CookieJar :=
  { jar.discard cookie with cookies := (jar.discard cookie).cookies ++ [cookie] }

/-- Puts a cookie in as it is, unless its domain is not the host's. -/
def insert (jar : CookieJar) (cookie : Cookie) : CookieJar :=
  let cookie := { cookie with domain := cookie.domain.map normalizeDomain }
  if cookie.domain.all (domainCovers · jar.host) then jar.put cookie else jar

/-- Carries out a directive at a moment. -/
def write (jar : CookieJar) (directive : String) (now : Instant) : CookieJar :=
  match CookieWrite.ofDirective? jar.host directive now with
  | none => jar
  | some w => if w.expired then jar.discard w.cookie else jar.put w.cookie

/-- The cookies that the page sees. -/
def visible (jar : CookieJar) : List Cookie :=
  jar.cookies.filter fun c => pathCovers c.path jar.pagePath

/-- What a script reads: `a=1; b=2`. -/
def header (jar : CookieJar) : String :=
  join "; " (jar.visible.map fun c => c.name ++ "=" ++ c.value)

def isEmpty (jar : CookieJar) : Bool := jar.cookies.isEmpty

def contains (jar : CookieJar) (name : String) : Bool := jar.cookies.any (·.name == name)

/-- The value of the first cookie of a name. -/
def get? (jar : CookieJar) (name : String) : Option String :=
  (jar.cookies.find? (·.name == name)).map (·.value)

end CookieJar

/-- The names in what a script reads. -/
def headerNames (header : String) : List String :=
  ((splitAt ';' header.toList).map fun pair =>
    trimList (pair.takeWhile (· ≠ '='))).filterMap fun name =>
      if name.isEmpty then none else some (String.ofList name)

end PageSweep
