import PageSweep.Page.Basic
import PageSweep.Record.Yaml
import PageSweep.Yaml.Writer

/-!
# Snapshots

A snapshot is what can be written down of a page: its host, path, cookies, the texts of its stylesheets and
the elements of its body. The id and the class of an element stand apart from its other attributes. Elements
are numbered anew when a page is made from a snapshot, in document order from 1.

* `preorder_numberFrom`: numbering keeps the labels and their order.
-/

namespace PageSweep

open Text

/-- An element as a snapshot has it, without what is below it. -/
structure ElementSpec where
  tag : String
  id : Option String
  className : Option String
  attrs : Table String
  style : List Declaration
  clicks : UInt32
deriving DecidableEq

structure Snapshot where
  hostname : String
  path : String
  head : Bool
  cookies : List Cookie
  /-- The texts of the rules of each stylesheet. -/
  sheets : Table (List String)
  body : Forest ElementSpec
deriving DecidableEq

namespace ElementSpec

/-- The element: its id and class are attributes like the others, and win over them. -/
def toElement (s : ElementSpec) : Element :=
  let put (name : String) (value? : Option String) (t : Table String) : Table String :=
    match value? with
    | some value => t.insert name value
    | none => t
  ⟨lower s.tag, put "class" s.className (put "id" s.id s.attrs), s.style, s.clicks⟩

def ofElement (e : Element) : ElementSpec :=
  ⟨e.tag, e.attrs.get? "id", e.attrs.get? "class", (e.attrs.erase "id").erase "class", e.style, e.clicks⟩

def shape : Shape :=
  .record "struct ElementSpec" [(["tag"], true, .text), (["id"], false, .optionalText),
    (["class"], false, .optionalText), (["attrs"], false, .table .text),
    (["style"], false, .list .pair), (["clicks"], false, .count (Nat.pow 2 32 - 1) "u32"),
    (["children"], false, .list .again)]

/-- The texts of a table. -/
def textsAt (name : String) (d : Datum) : Table String :=
  .ofList ((d.entriesAt name).map fun e => (e.1, e.2.textOr ""))

def ofDatum (d : Datum) : ElementSpec :=
  ⟨d.textAt "tag" "", d.textAt? "id", d.textAt? "class", textsAt "attrs" d,
    (d.itemsAt "style").map Datum.pair, UInt32.ofNat (d.countAt "clicks" 0)⟩

mutual
/-- The elements of a list, each with its children below it. -/
def forestOfItems : List Datum → Forest ElementSpec
  | [] => .nil
  | d :: ds => .cons (ofDatum d) (childrenOf d) (forestOfItems ds)

def childrenOf : Datum → Forest ElementSpec
  | .map entries => childrenOfEntries entries
  | _ => .nil

def childrenOfEntries : List (String × Datum) → Forest ElementSpec
  | [] => .nil
  | (k, d) :: es => if k = "children" then forestOf d else childrenOfEntries es

def forestOf : Datum → Forest ElementSpec
  | .list items => forestOfItems items
  | _ => .nil
end

/-- The written fields, without children. -/
def jsonFields (s : ElementSpec) : List (String × Json) :=
  let text (name : String) (value? : Option String) : List (String × Json) :=
    (value?.map fun v => (name, .str v)).toList
  [("tag", .str s.tag)] ++ text "id" s.id ++ text "class" s.className ++
    (if s.attrs.isEmpty then [] else [("attrs", .obj (s.attrs.map .str).entries)]) ++
    (if s.style.isEmpty then []
      else [("style", .arr (s.style.map fun d => .arr [.str d.1, .str d.2]))]) ++
    (if s.clicks = 0 then [] else [("clicks", .ofNat s.clicks.toNat)])

/-- The written elements of a forest. -/
def jsonItems : Forest ElementSpec → List Json
  | .nil => []
  | .cons s below after =>
    let children := jsonItems below
    .obj (s.jsonFields ++ if children.isEmpty then [] else [("children", .arr children)]) ::
      jsonItems after

end ElementSpec

namespace Forest

variable {α : Type}

/-- Numbers the labels in document order: the numbered forest, and the next number. -/
def numberFrom (n : Nat) : Forest α → Forest (Nat × α) × Nat
  | nil => (nil, n)
  | cons a below after =>
    let (below, n') := numberFrom (n + 1) below
    let (after, n'') := numberFrom n' after
    (cons (n, a) below after, n'')

theorem preorder_numberFrom (n : Nat) (f : Forest α) :
    (f.numberFrom n).1.preorder.map (·.2) = f.preorder ∧
      (f.numberFrom n).2 = n + f.preorder.length ∧
      (f.numberFrom n).1.preorder.map (·.1) = List.range' n f.preorder.length := by
  induction f generalizing n with
  | nil => simp [numberFrom]
  | cons a below after ih1 ih2 =>
    obtain ⟨a1, a2, a3⟩ := ih1 (n + 1)
    obtain ⟨b1, b2, b3⟩ := ih2 (n + 1 + below.preorder.length)
    simp only [numberFrom, preorder_cons, List.map_cons, List.map_append, List.length_cons,
      List.length_append, a1, a2, a3, b1, b2, b3, List.range'_succ]
    refine ⟨trivial, by omega, ?_⟩
    rw [List.range'_append_1]

end Forest

namespace Snapshot

def shape : Shape :=
  .record "struct PageSnapshot" [(["hostname"], true, .text), (["path"], false, .text),
    (["head"], false, .flag), (["cookies"], false, .list Cookie.shape),
    (["style_sheets"], false, .table (.list .text)), (["body"], false, .list ElementSpec.shape)]

def ofDatum (d : Datum) : Snapshot :=
  let rules (e : String × Datum) : String × List String :=
    match e.2 with
    | .list items => (e.1, items.map (·.textOr ""))
    | _ => (e.1, [])
  ⟨d.textAt "hostname" "", d.textAt "path" rootPath, d.flagAt "head" true,
    (d.itemsAt "cookies").map Cookie.ofDatum, .ofList ((d.entriesAt "style_sheets").map rules),
    ElementSpec.forestOf ((d.field? "body").getD (.list []))⟩

def ofJson (v : Json) : Except Mismatch Snapshot := (Shape.ofJson shape v).map ofDatum

/-- The written form: what is empty or as usual is left out. -/
def toJson (s : Snapshot) : Json :=
  .obj ([("hostname", .str s.hostname)] ++
    (if s.path = rootPath then [] else [("path", .str s.path)]) ++
    [("head", .bool s.head)] ++
    (if s.cookies.isEmpty then [] else [("cookies", .arr (s.cookies.map Cookie.toJson))]) ++
    (if s.sheets.isEmpty then []
      else [("style_sheets", .obj (s.sheets.map fun rules => .arr (rules.map .str)).entries)]) ++
    [("body", .arr (ElementSpec.jsonItems s.body))])

def readYaml (text : String) : Except Error Snapshot := (shape.readYaml text).map ofDatum

def writeYaml (s : Snapshot) : String := Yaml.write s.toJson

end Snapshot

namespace Page

/-- A stylesheet of the rules that can be read, and what there is to report of the others. -/
def sheetOf : List String → StyleSheet → StyleSheet × List Event
  | [], s => (s, [])
  | text :: texts, s =>
    match s.appendRule text with
    | .ok s => sheetOf texts s
    | .error e =>
      let (s, log) := sheetOf texts s
      (s, .ruleSkipped e :: log)

/-- The page of a snapshot, and what there is to report. -/
def ofSnapshot (s : Snapshot) : Page × List Event :=
  let page := (new s.hostname).withPath s.path
  let sheets := s.sheets.map fun rules => sheetOf rules .empty
  let (body, next) := s.body.numberFrom 1
  ({ page with
      jar := s.cookies.foldl CookieJar.insert page.jar
      headAttached := s.head
      sheets := sheets.map (·.1)
      body := body.map fun n => ⟨n.1, n.2.toElement⟩
      next := next },
    sheets.entries.flatMap fun e => e.2.2)

/-- The snapshot of a page; what lies loose is not in it. -/
def snapshot (p : Page) : Snapshot :=
  ⟨p.hostname, p.jar.pagePath, p.headAttached, p.jar.cookies,
    p.sheets.map fun s => s.rules.map (·.cssText), p.body.map fun n => .ofElement n.element⟩

end Page

end PageSweep
