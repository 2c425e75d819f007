import PageSweep.Error
import PageSweep.Files.Path
import PageSweep.Table

/-!
# File trees

Directories and files, with the directory that relative paths start from. Following a path takes its pieces
one after the other, so two dots lead up from where the path has come to, and every piece but the last has
to be a directory.

A file is written as a whole or not at all; directories that are made on the way stay.

* `FileTree.get?_put`: what putting an entry does to look-up.
-/

namespace PageSweep

open Text

inductive FileEntry where
  | directory
  | file (data : ByteArray)

structure FileTree where
  /-- Every entry under its way from the root. -/
  entries : List (List String × FileEntry)
  here : List String

/-- What an operation gives, and the tree after it. -/
abbrev FileResult (α : Type) := Except FileFault α × FileTree

/-- Where a path leads. -/
inductive Place where
  | present (way : List String) (entry : FileEntry)
  /-- There is nothing yet, but the directory around it is there; whether a slash stands behind. -/
  | absent (way : List String) (slash : Bool)

namespace FileTree

/-- A directory to start from, with nothing in it. -/
def fresh : FileTree := ⟨[(["home"], .directory)], ["home"]⟩

/-- The directory to start from, as a path. -/
def herePath (t : FileTree) : Path := ⟨true, t.here⟩

def get? (t : FileTree) (way : List String) : Option FileEntry :=
  if way.isEmpty then some .directory else (t.entries.find? (·.1 == way)).map (·.2)

/-- Puts an entry in, in the place of one that is there. -/
def put (t : FileTree) (way : List String) (e : FileEntry) : FileTree :=
  { t with entries := (way, e) :: t.entries.filter (·.1 ≠ way) }

theorem get?_put (t : FileTree) (way v : List String) (e : FileEntry) (h : way ≠ []) :
    (t.put way e).get? v = if way = v then some e else t.get? v := by
  by_cases hv : v = []
  · subst hv; simp [get?, h]
  · by_cases hw : way = v
    · subst hw; simp [get?, put, hv]
    · simp only [get?, put, List.isEmpty_iff, hv, if_false, hw]
      congr 1
      rw [List.find?_cons_of_neg (by simpa using hw), List.find?_filter]
      congr 1
      funext a
      by_cases ha : a.1 = v
      · simp [ha, Ne.symm hw]
      · simp [ha]

/-- The greatest length in bytes of the name of a file or a directory. -/
def nameLimit : Nat := 255

/-- The greatest length in bytes of a path. -/
def pathLimit : Nat := 4095

/-- Follows pieces from a directory. -/
def follow (t : FileTree) : List String → List String → Except FileFault Place
  | way, [] => .ok (.present way .directory)
  | way, piece :: pieces =>
    if Path.isIdle piece then t.follow way pieces
    else if piece = ".." then t.follow way.dropLast pieces
    else if nameLimit < byteLength piece.toList then .error .nameTooLong
    else match t.get? (way ++ [piece]) with
      | some .directory => t.follow (way ++ [piece]) pieces
      | some (.file data) =>
        if pieces.isEmpty then .ok (.present (way ++ [piece]) (.file data)) else .error .notADirectory
      | none =>
        -- Slashes at the end of a path do not ask for more.
        if pieces.all (· == "") then .ok (.absent (way ++ [piece]) (!pieces.isEmpty)) else .error .notFound

/-- Where a path leads. The empty path leads nowhere. -/
def locate (t : FileTree) (p : Path) : Except FileFault Place :=
  let cs := p.text.toList
  if cs.contains '\x00' then .error .nulInName
  else if cs.isEmpty then .error .notFound
  else if pathLimit < byteLength cs then .error .nameTooLong
  else t.follow (if p.isAbsolute then [] else t.here) p.pieces

def isDirectory (t : FileTree) (p : Path) : Bool :=
  match t.locate p with
  | .ok (.present _ .directory) => true
  | _ => false

/-- The text of a file. -/
def read (t : FileTree) (p : Path) : Except FileFault String :=
  match t.locate p with
  | .error e => .error e
  | .ok (.absent _ _) => .error .notFound
  | .ok (.present _ .directory) => .error .isADirectory
  | .ok (.present _ (.file data)) =>
    match String.fromUTF8? data with
    | some text => .ok text
    | none => .error .invalidData

/-- The text of a file, or none if it is not there. -/
def readOptional (t : FileTree) (p : Path) : Except FileFault (Option String) :=
  match t.read p with
  | .ok text => .ok (some text)
  | .error .notFound => .ok none
  | .error e => .error e

/-- The names in a directory in their order; none if it is no directory. -/
def names (t : FileTree) (p : Path) : List String :=
  match t.locate p with
  | .ok (.present way .directory) =>
    let inside := t.entries.filterMap fun e =>
      if e.1.dropLast = way then e.1.getLast?.map fun name => (name, ()) else none
    (Entries.ofList inside).map (·.1)
  | _ => []

/-! ### Changing -/

/-- Makes a directory. -/
def makeDirectory (t : FileTree) (p : Path) : FileResult Unit :=
  match t.locate p with
  | .error e => (.error e, t)
  | .ok (.present _ _) => (.error .alreadyExists, t)
  | .ok (.absent way _) => (.ok (), t.put way .directory)

/-- A failure does not matter if there is a directory. -/
def unlessDirectory (t : FileTree) (p : Path) (e : FileFault) : FileResult Unit :=
  if t.isDirectory p then (.ok (), t) else (.error e, t)

/-- Makes a directory and those above it, given with the nearest first, as far as they are missing. -/
def makeAll (t : FileTree) : List Path → FileResult Unit
  | [] => (.ok (), t)
  | p :: above =>
    if p.isEmpty then (.ok (), t)
    else match t.makeDirectory p with
      | (.ok (), t) => (.ok (), t)
      -- Something above is missing: make that first and try again.
      | (.error .notFound, _) =>
        match t.makeAll above with
        | (.error e, t) => (.error e, t)
        | (.ok (), t) =>
          match t.makeDirectory p with
          | (.ok (), t) => (.ok (), t)
          | (.error e, t) => t.unlessDirectory p e
      | (.error e, t) => t.unlessDirectory p e

def makeDirectories (t : FileTree) (p : Path) : FileResult Unit := t.makeAll p.ancestors

/-- Puts data in the place that a path leads to, if that can be a file. -/
def replace (t : FileTree) (p : Path) (data : ByteArray) : FileResult Unit :=
  match t.locate p with
  | .error e => (.error e, t)
  | .ok (.absent way slash) =>
    if slash then (.error .notADirectory, t) else (.ok (), t.put way (.file data))
  | .ok (.present way (.file _)) => (.ok (), t.put way (.file data))
  | .ok (.present _ .directory) =>
    let named := (p.pieces.reverse.dropWhile (· == "")).head?
    -- A path that ends with dots gives its place no name.
    if named.all fun last => last == "." || last == ".." then (.error .resourceBusy, t)
    else if p.pieces.getLast? == some "" then (.error .notADirectory, t)
    else (.error .isADirectory, t)

/-- Writes a file and makes the directories above it. -/
def write (t : FileTree) (p : Path) (data : ByteArray) : FileResult Unit :=
  match p.parent? with
  | none => t.replace p data
  | some above =>
    match t.makeDirectories above with
    | (.error e, t) => (.error e, t)
    | (.ok (), t) => t.replace p data

def writeText (t : FileTree) (p : Path) (text : String) : FileResult Unit := t.write p text.toUTF8

end FileTree

end PageSweep
