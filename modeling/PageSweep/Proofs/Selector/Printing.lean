import PageSweep.Proofs.Selector.Scanning

/-!
# Writing selectors

How selectors are written: names as they are, values in double quotes, and blanks wherever there may be some. A
selector can be written if its names are names, its keys have no capitals, its values can stand in quotes, and the
first part of each chain is tied to nothing.

* `Printable`: which selectors can be written.
* `Writes`: the texts that a selector can be written as.
* `writes_print`: one of these, with as few blanks as possible.
* `Step.Writes.tight`: no scan breaks the text of a step.
-/

namespace PageSweep.Selector

open Text

/-- A name: not empty, and of name characters. -/
def IsName (s : String) : Prop := s.toList ≠ [] ∧ ∀ c ∈ s.toList, isNameChar c = true

/-- A value that can stand between double quotes in brackets. -/
def IsQuotable (v : String) : Prop := '"' ∉ v.toList ∧ ']' ∉ v.toList

instance (s : String) : Decidable (IsName s) :=
  have := List.decidableBAll (fun c => isNameChar c = true) s.toList
  inferInstanceAs (Decidable (_ ∧ _))

instance (v : String) : Decidable (IsQuotable v) := inferInstanceAs (Decidable (_ ∧ _))

/-- The mark of a test, with the value that comes after it. -/
def AttrTest.marked? : AttrTest → Option (List Char × String)
  | present => none
  | equals v => some (['='], v)
  | startsWith v => some (['^', '='], v)
  | endsWith v => some (['$', '='], v)
  | contains v => some (['*', '='], v)
  | includes v => some (['~', '='], v)

/-! ### Which selectors can be written -/

structure AttrCondition.Printable (c : AttrCondition) : Prop where
  key : IsName c.key
  lower : lower c.key = c.key
  value : ∀ m ∈ c.test.marked?, IsQuotable m.2

structure Step.Printable (s : Step) : Prop where
  tag : ∀ t ∈ s.tag, IsName t
  id : ∀ i ∈ s.id, IsName i
  classes : ∀ c ∈ s.classes, IsName c
  conditions : ∀ c ∈ s.conditions, c.Printable

/-- Nothing is on the left of the first part, and it says so. -/
structure Chain.Printable (c : Chain) : Prop where
  head : ∃ p ps, c = p :: ps ∧ p.combinator = .descendant
  steps : ∀ p ∈ c, p.step.Printable

/-- **Which selectors can be written.** -/
structure Printable (s : Selector) : Prop where
  nonempty : s ≠ []
  chains : ∀ c ∈ s, Chain.Printable c

/-! ### How they are written -/

/-- What is written between the brackets of a condition. -/
inductive AttrCondition.Inner : AttrCondition → List Char → Prop where
  | present {key : String} {l r : List Char} (hl : Gap l) (hr : Gap r) :
      Inner ⟨key, .present⟩ (l ++ (key.toList ++ r))
  | marked {key value : String} {test : AttrTest} {mark l m n r : List Char}
      (hmark : test.marked? = some (mark, value)) (hl : Gap l) (hm : Gap m) (hn : Gap n) (hr : Gap r) :
      Inner ⟨key, test⟩ (l ++ ((key.toList ++ m ++ mark ++ n ++ ['"'] ++ value.toList ++ ['"']) ++ r))

def AttrCondition.Writes (c : AttrCondition) (cs : List Char) : Prop :=
  ∃ inner, c.Inner inner ∧ cs = '[' :: (inner ++ [']'])

/-- Conditions one after the other. -/
inductive AttrCondition.WritesAll : List AttrCondition → List Char → Prop where
  | nil : WritesAll [] []
  | cons {c : AttrCondition} {conditions : List AttrCondition} {cs rest : List Char} (hc : c.Writes cs)
      (h : WritesAll conditions rest) : WritesAll (c :: conditions) (cs ++ rest)

def Step.tagText (s : Step) : List Char := (s.tag.map String.toList).getD []

def Step.idText (s : Step) : List Char := (s.id.map fun i => '#' :: i.toList).getD []

def classesText (classes : List String) : List Char := (classes.map fun c => '.' :: c.toList).flatten

/-- A step of which nothing is asked is a star. -/
inductive Step.Writes : Step → List Char → Prop where
  | any : Writes .any ['*']
  | some {s : Step} {conditions : List Char} (hs : s ≠ .any)
      (hconditions : AttrCondition.WritesAll s.conditions conditions) :
      Writes s (s.tagText ++ (s.idText ++ (classesText s.classes ++ conditions)))

/-- What stands between two steps. -/
inductive Combinator.Writes : Combinator → List Char → Prop where
  | descendant {l : List Char} (hl : Gap l) (hne : l ≠ []) : Writes .descendant l
  | child {l r : List Char} (hl : Gap l) (hr : Gap r) : Writes .child (l ++ '>' :: r)

/-- The parts of a chain after the first one. -/
inductive Chain.Tail : Chain → List Char → Prop where
  | nil : Tail [] []
  | cons {p : Part} {ps : Chain} {tie step rest : List Char} (htie : p.combinator.Writes tie)
      (hstep : p.step.Writes step) (h : Tail ps rest) : Tail (p :: ps) (tie ++ (step ++ rest))

/-- A chain, with blanks at its ends. -/
inductive Chain.Writes : Chain → List Char → Prop where
  | mk {p : Part} {ps : Chain} {l step rest r : List Char} (hl : Gap l) (hstep : p.step.Writes step)
      (h : Tail ps rest) (hr : Gap r) : Writes (p :: ps) (l ++ ((step ++ rest) ++ r))

/-- **The texts that a selector can be written as**: its chains, with commas between them. -/
inductive Writes : Selector → List Char → Prop where
  | one {c : Chain} {cs : List Char} (h : Chain.Writes c cs) : Writes [c] cs
  | cons {c : Chain} {s : Selector} {cs rest : List Char} (h : Chain.Writes c cs) (hs : Writes s rest) :
      Writes (c :: s) (cs ++ ',' :: rest)

/-! ### The shortest text -/

def AttrCondition.print (c : AttrCondition) : List Char :=
  match c.test.marked? with
  | none => '[' :: (c.key.toList ++ [']'])
  | some (mark, value) => '[' :: ((c.key.toList ++ mark ++ ['"'] ++ value.toList ++ ['"']) ++ [']'])

def Step.print (s : Step) : List Char :=
  if s = .any then ['*']
  else s.tagText ++ (s.idText ++ (classesText s.classes ++ (s.conditions.map AttrCondition.print).flatten))

def Combinator.print : Combinator → List Char
  | .descendant => [' ']
  | .child => ['>']

def Chain.printTail (ps : Chain) : List Char := (ps.map fun p => p.combinator.print ++ p.step.print).flatten

def Chain.print : Chain → List Char
  | [] => []
  | p :: ps => p.step.print ++ printTail ps

/-- **A text of a selector**, with no more blanks than there have to be. -/
def print : Selector → List Char
  | [] => []
  | [c] => Chain.print c
  | c :: d :: s => Chain.print c ++ ',' :: print (d :: s)

theorem AttrCondition.writes_print (c : AttrCondition) : c.Writes c.print := by
  obtain ⟨key, test⟩ := c
  unfold print
  cases hmark : test.marked? with
  | none =>
    obtain rfl : test = .present := by cases test <;> simp [AttrTest.marked?] at hmark ⊢
    exact ⟨key.toList, by simpa using Inner.present gap_nil gap_nil, rfl⟩
  | some m => exact ⟨_, by simpa using Inner.marked hmark gap_nil gap_nil gap_nil gap_nil, rfl⟩

theorem Step.writes_print (s : Step) : s.Writes s.print := by
  have hall : ∀ conditions : List AttrCondition,
      AttrCondition.WritesAll conditions (conditions.map AttrCondition.print).flatten := by
    intro conditions
    induction conditions with
    | nil => exact .nil
    | cons c conditions ih => exact .cons c.writes_print ih
  unfold print
  split
  · rename_i hany
    exact hany ▸ .any
  · rename_i hany
    exact .some hany (hall s.conditions)

theorem Combinator.writes_print (k : Combinator) : k.Writes k.print := by
  cases k with
  | descendant => exact .descendant gap_blank (by simp [print])
  | child => exact .child gap_nil gap_nil

theorem Chain.tail_printTail (ps : Chain) : Tail ps (printTail ps) := by
  induction ps with
  | nil => exact .nil
  | cons p ps ih =>
    rw [printTail, List.map_cons, List.flatten_cons, List.append_assoc]
    exact .cons p.combinator.writes_print p.step.writes_print ih

theorem Chain.writes_print {c : Chain} (hc : c.Printable) : Chain.Writes c (Chain.print c) := by
  obtain ⟨p, ps, rfl, -⟩ := hc.head
  simpa [Chain.print] using Chain.Writes.mk gap_nil p.step.writes_print (tail_printTail ps) gap_nil

/-- **Every selector that can be written has a text.** -/
theorem writes_print {s : Selector} (hs : s.Printable) : Writes s (print s) := by
  obtain ⟨hne, hchains⟩ := hs
  induction s with
  | nil => exact absurd rfl hne
  | cons c s ih =>
    have hc := Chain.writes_print (hchains c List.mem_cons_self)
    cases s with
    | nil => exact .one hc
    | cons d s => exact .cons hc (ih (List.cons_ne_nil d s) fun e he => hchains e (List.mem_cons_of_mem _ he))

/-! ### Characters -/

theorem isNameChar_iff {c : Char} : isNameChar c = true ↔
    48 ≤ c.toNat ∧ c.toNat ≤ 57 ∨ 65 ≤ c.toNat ∧ c.toNat ≤ 90 ∨ 97 ≤ c.toNat ∧ c.toNat ≤ 122 ∨
      c.toNat = 95 ∨ c.toNat = 45 := by
  have hline : c = '_' ↔ c.toNat = 95 := Char.toNat_inj.symm
  have hdash : c = '-' ↔ c.toNat = 45 := Char.toNat_inj.symm
  delta isNameChar Char.isAlphanum Char.isAlpha Char.isUpper Char.isLower Char.isDigit
  simp only [Bool.or_eq_true, Bool.and_eq_true, decide_eq_true_eq, beq_iff_eq, ge_iff_le, UInt32.le_iff_toNat_le,
    hline, hdash]
  show (((65 ≤ c.toNat ∧ c.toNat ≤ 90 ∨ 97 ≤ c.toNat ∧ c.toNat ≤ 122) ∨ 48 ≤ c.toNat ∧ c.toNat ≤ 57) ∨
    c.toNat = 95) ∨ c.toNat = 45 ↔ _
  omega

theorem isNameChar_toLower {c : Char} (h : isNameChar c = true) : isNameChar c.toLower = true := by
  have hlower := toNat_toLower c
  rw [isNameChar_iff] at h ⊢
  split at hlower <;> omega

/-- Blanks, breaks and brackets are no name characters. -/
theorem plain_of_isNameChar {c : Char} (h : isNameChar c = true) :
    isBlank c = false ∧ isBreak c = false ∧ c ≠ '[' := by
  refine ⟨?_, ?_, ?_⟩
  · have hcases := isNameChar_iff.1 h
    simp only [isBlank, Bool.or_eq_false_iff, Bool.and_eq_false_iff, decide_eq_false_iff_not, beq_eq_false_iff_ne]
    omega
  · rw [Bool.eq_false_iff]
    intro hc
    simp only [isBreak, isSpace, Bool.or_eq_true, beq_iff_eq] at hc
    rcases hc with ((rfl | rfl) | rfl) | (((rfl | rfl) | rfl) | rfl) | rfl <;> exact absurd h (by decide)
  · rintro rfl
    exact absurd h (by decide)

theorem isTestMark_of_isNameChar {c : Char} (h : isNameChar c = true) : isTestMark c = false := by
  rw [Bool.eq_false_iff]
  intro hc
  simp only [isTestMark, Bool.or_eq_true, beq_iff_eq] at hc
  rcases hc with (((rfl | rfl) | rfl) | rfl) | rfl <;> exact absurd h (by decide)

theorem isTestMark_of_isSpace {c : Char} (h : isSpace c = true) : isTestMark c = false := by
  simp only [isSpace, Bool.or_eq_true, beq_iff_eq] at h
  rcases h with (((rfl | rfl) | rfl) | rfl) | rfl <;> decide

/-! ### The text of a step -/

/-- Inside one bracket. -/
def inside : Nesting := ⟨1, none⟩

/-- Inside double quotes in a bracket. -/
def quoted : Nesting := ⟨1, some '"'⟩

variable {bad : Char → Bool} {cs : List Char}

/-- Inside a bracket only brackets and quotes change the state. -/
theorem passes_inside (h : ∀ c ∈ cs, c ≠ '"' ∧ c ≠ '\'' ∧ c ≠ '[' ∧ c ≠ ']') : Passes bad inside cs inside := by
  refine passes_of_forall fun c hc => ⟨fun hout => absurd hout (by decide), ?_⟩
  obtain ⟨h1, h2, h3, h4⟩ := h c hc
  simp [Nesting.next, inside, h1, h2, h3, h4]

/-- Inside quotes only the quote changes the state. -/
theorem passes_quoted {q : Char} (h : q ∉ cs) : Passes bad ⟨1, some q⟩ cs ⟨1, some q⟩ := by
  refine passes_of_forall fun c hc => ⟨fun hout => absurd hout (by simp [Nesting.isOutside]), ?_⟩
  have hne : c ≠ q := by
    rintro rfl
    exact h hc
  simp [Nesting.next, hne]

theorem passes_inside_gap (h : Gap cs) : Passes bad inside cs inside := by
  refine passes_inside fun c hc => ?_
  have hspace := h c hc
  refine ⟨?_, ?_, ?_, ?_⟩ <;> (rintro rfl; exact absurd hspace (by decide))

theorem passes_inside_name {s : String} (h : IsName s) : Passes bad inside s.toList inside := by
  refine passes_inside fun c hc => ?_
  have hname := h.2 c hc
  refine ⟨?_, ?_, ?_, ?_⟩ <;> (rintro rfl; exact absurd hname (by decide))

theorem isTestMark_of_marked {t : AttrTest} {m : List Char × String} (h : t.marked? = some m) :
    ∀ c ∈ m.1, isTestMark c = true := by
  cases t <;> simp only [AttrTest.marked?, reduceCtorEq, Option.some.injEq] at h <;> subst h <;> simp [isTestMark]

theorem passes_inside_mark {t : AttrTest} {m : List Char × String} (h : t.marked? = some m) :
    Passes bad inside m.1 inside := by
  refine passes_inside fun c hc => ?_
  have htest := isTestMark_of_marked h c hc
  refine ⟨?_, ?_, ?_, ?_⟩ <;> (rintro rfl; exact absurd htest (by decide))

theorem AttrCondition.Inner.passes {c : AttrCondition} (hc : c.Printable) (h : c.Inner cs) :
    Passes bad inside cs inside := by
  cases h with
  | present hl hr => exact (passes_inside_gap hl).append ((passes_inside_name hc.key).append (passes_inside_gap hr))
  | @marked key value test mark l m n r hmark hl hm hn hr =>
    have hopen : Passes bad inside ['"'] quoted := ⟨fun hout => absurd hout (by decide), rfl⟩
    have hclose : Passes bad quoted ['"'] inside := ⟨fun hout => absurd hout (by decide), rfl⟩
    have hvalue : Passes bad quoted value.toList quoted := passes_quoted (hc.value _ hmark).1
    have hmarked : Passes bad inside (key.toList ++ m ++ mark) inside :=
      ((passes_inside_name hc.key).append (passes_inside_gap hm)).append (passes_inside_mark hmark)
    have hquoted := (((hmarked.append (passes_inside_gap hn)).append hopen).append hvalue).append hclose
    exact (passes_inside_gap hl).append (hquoted.append (passes_inside_gap hr))

/-- **Brackets keep a text in one piece**, if a walk over it ends where it began. -/
theorem tight_brackets (h : Passes isBreak inside cs inside) : Tight ('[' :: (cs ++ [']'])) := by
  refine ⟨⟨fun d hd => ?_, fun d hd => ?_⟩, fun _ => by decide, ?_⟩
  · obtain rfl : '[' = d := Option.some.inj hd
    decide
  · rw [← List.cons_append, List.getLast?_concat] at hd
    obtain rfl : ']' = d := Option.some.inj hd
    decide
  · have hend : Passes isBreak inside [']'] .outside := ⟨fun hout => absurd hout (by decide), rfl⟩
    exact h.append hend

theorem AttrCondition.Writes.tight {c : AttrCondition} (hc : c.Printable) (h : c.Writes cs) : Tight cs := by
  obtain ⟨inner, hinner, rfl⟩ := h
  exact tight_brackets (hinner.passes hc)

theorem AttrCondition.WritesAll.tight {conditions : List AttrCondition} (hc : ∀ c ∈ conditions, c.Printable)
    (h : WritesAll conditions cs) : Tight cs := by
  induction h with
  | nil => exact tight_nil
  | cons hwrites _ ih =>
    exact (hwrites.tight (hc _ List.mem_cons_self)).append (ih fun c hmem => hc c (List.mem_cons_of_mem _ hmem))

theorem tight_name {s : String} (h : IsName s) : Tight s.toList :=
  tight_of_forall fun c hc => plain_of_isNameChar (h.2 c hc)

/-- A name after a hash or a dot. -/
theorem tight_cons_name {c : Char} {s : String} (hc : c = '#' ∨ c = '.') (h : IsName s) : Tight (c :: s.toList) := by
  refine tight_of_forall fun d hd => ?_
  rcases List.mem_cons.1 hd with rfl | hd
  · rcases hc with rfl | rfl <;> decide
  · exact plain_of_isNameChar (h.2 d hd)

theorem Step.tight_tagText {s : Step} (hs : s.Printable) : Tight s.tagText := by
  unfold tagText
  cases htag : s.tag with
  | none => exact tight_nil
  | some t => exact tight_name (hs.tag t htag)

theorem Step.tight_idText {s : Step} (hs : s.Printable) : Tight s.idText := by
  unfold idText
  cases hid : s.id with
  | none => exact tight_nil
  | some i => exact tight_cons_name (.inl rfl) (hs.id i hid)

theorem tight_classesText {classes : List String} (h : ∀ c ∈ classes, IsName c) : Tight (classesText classes) := by
  refine tight_flatten fun cs hcs => ?_
  obtain ⟨c, hc, rfl⟩ := List.mem_map.1 hcs
  exact tight_cons_name (.inr rfl) (h c hc)

/-- **The text of a step stays in one piece.** -/
theorem Step.Writes.tight {s : Step} (hs : s.Printable) (h : s.Writes cs) : Tight cs := by
  cases h with
  | any => exact tight_of_forall fun c hc => (List.mem_singleton.1 hc) ▸ (by decide)
  | some _ hconditions =>
    exact (Step.tight_tagText hs).append ((Step.tight_idText hs).append
      ((tight_classesText hs.classes).append (hconditions.tight hs.conditions)))

end PageSweep.Selector
