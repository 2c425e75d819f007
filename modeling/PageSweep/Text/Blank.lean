/-!
# Blank characters

The characters that trimming takes off the ends of a name, a value or a schema: the code points with
the White_Space property. ASCII has six of them, and `words` cuts at five of those only, as class lists
do (a vertical tab belongs to a word).

* `isBlank_of_isWhitespace`: every character that core calls whitespace is blank.
* `trimList_idem`: trimming twice is trimming once.
-/

namespace PageSweep.Text

/-- The code points with the White_Space property. -/
def isBlank (c : Char) : Bool :=
  let n := c.toNat
  (9 ≤ n && n ≤ 13) || n == 0x20 || n == 0x85 || n == 0xA0 || n == 0x1680 ||
    (0x2000 ≤ n && n ≤ 0x200A) || n == 0x2028 || n == 0x2029 || n == 0x202F || n == 0x205F ||
    n == 0x3000

/-- The blanks that separate the words of a class list and the steps of a selector. -/
def isSpace (c : Char) : Bool :=
  c == ' ' || c == '\t' || c == '\n' || c == '\x0c' || c == '\r'

/-- The text without the blanks at its front. -/
def trimFront (cs : List Char) : List Char := cs.dropWhile isBlank

/-- The text without the blanks at its end: a blank stays only if something follows it. -/
def trimBack : List Char → List Char
  | [] => []
  | c :: cs =>
    match trimBack cs with
    | [] => if isBlank c then [] else [c]
    | r => c :: r

/-- The text without the blanks at its ends. -/
def trimList (cs : List Char) : List Char := trimBack (trimFront cs)

/-- `trimList` on strings. -/
def trim (s : String) : String := String.ofList (trimList s.toList)

/-- Cuts a text at every character of a class; between two neighbours of the class lies an empty piece. -/
def splitAny (p : Char → Bool) : List Char → List (List Char)
  | [] => [[]]
  | c :: cs =>
    if p c then [] :: splitAny p cs
    else match splitAny p cs with
      | [] => [[c]]
      | w :: ws => (c :: w) :: ws

/-- The words of a text: its longest pieces without a space. -/
def wordsList (cs : List Char) : List (List Char) :=
  (splitAny isSpace cs).filter (!·.isEmpty)

/-- `wordsList` on strings. -/
def words (s : String) : List String := (wordsList s.toList).map String.ofList

theorem isBlank_of_isWhitespace {c : Char} (h : c.isWhitespace = true) : isBlank c = true := by
  simp only [Char.isWhitespace, Bool.or_eq_true, decide_eq_true_eq] at h
  rcases h with ((h | h) | h) | h <;> subst h <;> decide

theorem trimBack_cons_of_not_blank {c : Char} (h : isBlank c = false) (cs : List Char) :
    trimBack (c :: cs) = c :: trimBack cs := by
  rw [trimBack]
  split
  · rename_i h'; simp [h, h']
  · rfl

theorem trimBack_trimBack (cs : List Char) : trimBack (trimBack cs) = trimBack cs := by
  induction cs with
  | nil => rfl
  | cons c cs ih =>
    rw [trimBack]
    split
    · by_cases h : isBlank c <;> simp [h, trimBack]
    · rename_i hr
      rw [trimBack, ih]
      split
      · rename_i h; exact absurd h hr
      · rfl

theorem head_trimFront (cs : List Char) : ∀ c ∈ (trimFront cs).head?, isBlank c = false := by
  induction cs with
  | nil => simp [trimFront]
  | cons c cs ih =>
    by_cases h : isBlank c
    · simpa [trimFront, h] using ih
    · simp [trimFront, h]

theorem trimFront_eq_self {cs : List Char} (h : ∀ c ∈ cs.head?, isBlank c = false) :
    trimFront cs = cs := by
  cases cs with
  | nil => rfl
  | cons c cs => simp [trimFront, h c (by simp)]

theorem head_trimBack (cs : List Char) (h : ∀ c ∈ cs.head?, isBlank c = false) :
    ∀ c ∈ (trimBack cs).head?, isBlank c = false := by
  cases cs with
  | nil => simp [trimBack]
  | cons c cs =>
    have hc := h c (by simp)
    simp [trimBack_cons_of_not_blank hc, hc]

/-- **Trimming twice is trimming once.** -/
theorem trimList_idem (cs : List Char) : trimList (trimList cs) = trimList cs := by
  unfold trimList
  rw [trimFront_eq_self (head_trimBack _ (head_trimFront cs)), trimBack_trimBack]

end PageSweep.Text
