import PageSweep.Text.Blank

/-!
# Pieces of a text

Cutting a text at a character, asking what it starts with, ends with or holds, and lower case. All on
lists of characters; a second name without `List` works on strings.

* `cutAt_eq_some`: the two sides of a cut and the mark between them are the whole text, and the first
  side is free of the mark.
-/

namespace PageSweep.Text

/-- The text before the first mark and the text after it, if there is a mark. -/
def cutAt (mark : Char) : List Char → Option (List Char × List Char)
  | [] => none
  | c :: cs => if c = mark then some ([], cs) else (cutAt mark cs).map fun p => (c :: p.1, p.2)

/-- The pieces between the marks, at least one. -/
def splitAt (mark : Char) (cs : List Char) : List (List Char) := splitAny (· == mark) cs

/-- The rest of a text after a given start. -/
def after? : List Char → List Char → Option (List Char)
  | [], cs => some cs
  | _ :: _, [] => none
  | p :: ps, c :: cs => if p = c then after? ps cs else none

def startsWithList (start cs : List Char) : Bool := (after? start cs).isSome

def endsWithList (tail cs : List Char) : Bool := startsWithList tail.reverse cs.reverse

/-- Whether a text holds another one somewhere. -/
def holdsList (part : List Char) : List Char → Bool
  | [] => part.isEmpty
  | c :: cs => startsWithList part (c :: cs) || holdsList part cs

/-- Joins pieces with a separator between neighbours. -/
def joinList (sep : List Char) : List (List Char) → List Char
  | [] => []
  | [p] => p
  | p :: ps => p ++ sep ++ joinList sep ps

def startsWith (start s : String) : Bool := startsWithList start.toList s.toList
def endsWith (tail s : String) : Bool := endsWithList tail.toList s.toList
def holds (part s : String) : Bool := holdsList part.toList s.toList
def split (mark : Char) (s : String) : List String := (splitAt mark s.toList).map String.ofList
def join (sep : String) (ps : List String) : String :=
  String.ofList (joinList sep.toList (ps.map String.toList))

/-- ASCII lower case; other characters stay. -/
def lowerList (cs : List Char) : List Char := cs.map Char.toLower

def lower (s : String) : String := String.ofList (lowerList s.toList)

/-- The number of bytes of a text in UTF-8. -/
def byteLength (cs : List Char) : Nat := cs.foldl (fun n c => n + c.utf8Size) 0

theorem cutAt_eq_some {mark : Char} {cs a b : List Char} (h : cutAt mark cs = some (a, b)) :
    cs = a ++ mark :: b ∧ mark ∉ a := by
  induction cs generalizing a with
  | nil => simp [cutAt] at h
  | cons c cs ih =>
    rw [cutAt] at h
    split at h
    · rename_i hc
      simp only [Option.some.injEq, Prod.mk.injEq] at h
      obtain ⟨rfl, rfl⟩ := h
      simp [hc]
    · rename_i hc
      obtain ⟨⟨a', b'⟩, hp, he⟩ := Option.map_eq_some_iff.1 h
      simp only [Prod.mk.injEq] at he
      obtain ⟨rfl, rfl⟩ := he
      obtain ⟨rfl, hm⟩ := ih hp
      exact ⟨rfl, by simp [hm, Ne.symm hc]⟩

theorem after?_eq_some_iff {start cs r : List Char} :
    after? start cs = some r ↔ cs = start ++ r := by
  induction start generalizing cs with
  | nil => simp [after?, eq_comm]
  | cons p ps ih =>
    cases cs with
    | nil => simp [after?]
    | cons c cs =>
      by_cases h : p = c
      · simp [after?, h, ih]
      · simp [after?, h, Ne.symm h]

end PageSweep.Text
