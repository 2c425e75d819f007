import PageSweep.Text.Pieces

/-!
# Paths

A path is a row of pieces between slashes, from the root or from where one stands. It is kept as it was
written: an empty piece or a dot leads nowhere, and two dots lead up only when the path is followed. The
path above another one is found from its pieces alone.

* `Path.length_parent`: the path above has fewer pieces.
-/

namespace PageSweep

open Text

structure Path where
  isAbsolute : Bool
  pieces : List String
deriving DecidableEq, Repr

namespace Path

def ofText (text : String) : Path :=
  match text.toList with
  | '/' :: r => ⟨true, split '/' (String.ofList r)⟩
  | _ => ⟨false, split '/' text⟩

def text (p : Path) : String := (if p.isAbsolute then "/" else "") ++ join "/" p.pieces

/-- Whether a path names nothing at all. -/
def isEmpty (p : Path) : Bool := p.text == ""

/-- A path that starts at the end of another one, unless it starts at the root. -/
def append (p q : Path) : Path :=
  if q.isAbsolute || p.isEmpty then q
  else ofText (p.text ++ (if endsWith "/" p.text then "" else "/") ++ q.text)

/-- Whether a piece leads nowhere. -/
def isIdle (piece : String) : Bool := piece == "" || piece == "."

/-- Pieces, the last one first, without those in front that lead nowhere. -/
def dropIdle : List String → List String := List.dropWhile isIdle

/-- The pieces up to the last one that leads somewhere; a dot at the start of a relative path counts. -/
def essential (p : Path) : List String :=
  let kept := (dropIdle p.pieces.reverse).reverse
  if kept.isEmpty && !p.isAbsolute && p.pieces.head? == some "." then ["."] else kept

/-- The path above; a path without pieces has none. -/
def parent? (p : Path) : Option Path :=
  match p.essential with
  | [] => none
  | piece :: pieces =>
    let above : Path := ⟨p.isAbsolute, (piece :: pieces).dropLast⟩
    some { above with pieces := above.essential }

theorem length_dropIdle (ps : List String) : (dropIdle ps).length ≤ ps.length :=
  (List.dropWhile_sublist _).length_le

theorem length_essential (p : Path) : p.essential.length ≤ p.pieces.length := by
  unfold essential
  dsimp only
  split
  · rename_i h
    cases hp : p.pieces with
    | nil => simp [hp] at h
    | cons a as => simp
  · have := length_dropIdle p.pieces.reverse
    simpa using this

theorem length_parent {p q : Path} (h : p.parent? = some q) : q.pieces.length < p.pieces.length := by
  unfold parent? at h
  cases hp : p.essential with
  | nil => simp [hp] at h
  | cons a as =>
    simp only [hp, Option.some.injEq] at h
    subst h
    have h1 := length_essential ⟨p.isAbsolute, (a :: as).dropLast⟩
    have h2 := length_essential p
    rw [hp] at h2
    simp only [List.length_dropLast, List.length_cons] at h1 h2 ⊢
    omega

/-- A path and all paths above it, the nearest first. -/
def ancestors (p : Path) : List Path :=
  match _h : p.parent? with
  | none => [p]
  | some q => p :: q.ancestors
termination_by p.pieces.length
decreasing_by exact length_parent _h

end Path

end PageSweep
