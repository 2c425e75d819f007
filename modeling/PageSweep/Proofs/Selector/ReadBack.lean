import PageSweep.Proofs.Selector.Printing

/-!
# Reading what was written

What a selector is written as is read as that selector. The cut at commas gives the texts of the chains, the padding and
the cut at blanks the texts of the steps and the marks between them, and a step is read name by name and condition by
condition. Whatever stands in quotes is seen by none of the scans.

* `readCondition?_of_inner`, `stepOf?_of_writes`: a condition, a step.
* `Chain.Tail.parts`: the parts of a chain.
* `read_of_writes`: a selector.
-/

namespace PageSweep.Selector

open Text

variable {cs rest : List Char}

/-! ### Conditions -/

/-- A key is taken without the blanks around it, in lower case. -/
theorem keyOf?_gaps {key : String} {l r : List Char} (hkey : IsName key) (hl : Gap l) (hr : Gap r) :
    keyOf? (l ++ (key.toList ++ r)) = some (lower key) := by
  have hall : (lowerList key.toList).all isNameChar = true := by
    rw [lowerList, List.all_map, List.all_eq_true]
    exact fun c hc => isNameChar_toLower (hkey.2 c hc)
  have hne : (lowerList key.toList).isEmpty = false := by simpa [lowerList] using hkey.1
  rw [keyOf?, trimList_gaps hl hr (tight_name hkey).firm]
  simp [hall, hne, lower]

/-- A mark that a value can stand between. -/
def IsQuote (q : Char) : Prop := q = '"' ∨ q = '\''

/-- **A value in quotes** is what stands between them. -/
theorem valueOf?_quoted {q : Char} {m v : List Char} (hq : IsQuote q) (hm : Gap m) :
    valueOf? (m ++ (q :: (v ++ [q]))) = some (String.ofList v) := by
  have hfirm : Firm (q :: (v ++ [q])) := by
    have hquote : Firm [q] := firm_singleton (by rcases hq with rfl | rfl <;> rfl)
    exact hquote.around hquote (by simp) (by simp) v
  have htrim : trimList (m ++ (q :: (v ++ [q]))) = q :: (v ++ [q]) := by
    simpa using trimList_gaps hm gap_nil hfirm
  have hmark : (q == '"' || q == '\'') = true := by rcases hq with rfl | rfl <;> rfl
  have hlast : (q :: (v ++ [q])).getLast? = some q := by
    rw [← List.cons_append, List.getLast?_concat]
  have hdrop : ((q :: (v ++ [q])).drop 1).dropLast = v := List.dropLast_concat
  rw [valueOf?, htrim]
  cases v with
  | nil => simp [hmark]
  | cons c v =>
    rw [List.cons_append] at hlast hdrop ⊢
    simp only [hmark, hlast, hdrop, beq_self_eq_true, Bool.and_self, if_true]

theorem testOf?_marked {test : AttrTest} {mark m : List Char} {value : String}
    (hmark : test.marked? = some (mark, value)) (hm : Gap m) :
    testOf? (mark ++ (m ++ ('"' :: (value.toList ++ ['"'])))) = some test := by
  have hvalue := valueOf?_quoted (v := value.toList) (.inl rfl : IsQuote '"') hm
  rw [String.ofList_toList] at hvalue
  cases test <;> simp only [AttrTest.marked?, reduceCtorEq, Option.some.injEq, Prod.mk.injEq] at hmark <;>
    obtain ⟨rfl, rfl⟩ := hmark <;> simp [testOf?, hvalue]

/-- A test starts with its mark. -/
theorem marked?_eq_cons {test : AttrTest} {mark : List Char} {value : String}
    (h : test.marked? = some (mark, value)) : ∃ d ds, mark = d :: ds ∧ isTestMark d = true := by
  cases test <;> simp only [AttrTest.marked?, reduceCtorEq, Option.some.injEq, Prod.mk.injEq] at h <;>
    obtain ⟨rfl, -⟩ := h <;> exact ⟨_, _, rfl, by decide⟩

/-- The cut at the mark of a test. -/
theorem span_mark {before : List Char} {d : Char} (hbefore : ∀ c ∈ before, isTestMark c = false)
    (hd : isTestMark d = true) (after : List Char) : (before ++ d :: after).takeWhile (!isTestMark ·) = before ∧
      (before ++ d :: after).dropWhile (!isTestMark ·) = d :: after := by
  have hnot : ∀ c ∈ before, (!isTestMark c) = true := fun c hc => by rw [hbefore c hc]; rfl
  rw [List.takeWhile_append_of_pos hnot, List.dropWhile_append_of_pos hnot, List.takeWhile_cons_of_neg (by simp [hd]),
    List.dropWhile_cons_of_neg (by simp [hd]), List.append_nil]
  exact ⟨rfl, rfl⟩

/-- **A condition** is read from between its brackets. -/
theorem conditionOf?_of_inner {c : AttrCondition} (hc : c.Printable) (h : c.Inner cs) :
    conditionOf? (trimList cs) = some c := by
  have hname : ∀ d ∈ c.key.toList, isTestMark d = false := fun d hd => isTestMark_of_isNameChar (hc.key.2 d hd)
  cases h with
  | @present key l r hl hr =>
    have hkey : keyOf? key.toList = some key := by
      simpa [hc.lower] using keyOf?_gaps hc.key gap_nil gap_nil
    have htest : key.toList.dropWhile (!isTestMark ·) = [] := List.dropWhile_eq_nil_iff.2 (by simpa using hname)
    rw [trimList_gaps hl hr (tight_name hc.key).firm, conditionOf?, htest, hkey]
    rfl
  | @marked key value test mark l m n r hmark hl hm hn hr =>
    have hquote : Firm ['"'] := firm_singleton rfl
    have hfirm : Firm (key.toList ++ m ++ mark ++ n ++ ['"'] ++ value.toList ++ ['"']) := by
      simpa using (tight_name hc.key).firm.around hquote hc.key.1 (by simp) (m ++ mark ++ n ++ ['"'] ++ value.toList)
    rw [trimList_gaps hl hr hfirm]
    have hbefore : ∀ d ∈ key.toList ++ m, isTestMark d = false := fun d hd =>
      (List.mem_append.1 hd).elim (hname d) fun hd => isTestMark_of_isSpace (hm d hd)
    have htext : key.toList ++ m ++ mark ++ n ++ ['"'] ++ value.toList ++ ['"'] =
        (key.toList ++ m) ++ (mark ++ (n ++ ('"' :: (value.toList ++ ['"'])))) := by simp
    have hkey : keyOf? (key.toList ++ m) = some key := by
      simpa [hc.lower] using keyOf?_gaps hc.key gap_nil hm
    obtain ⟨d, ds, rfl, hd⟩ := marked?_eq_cons hmark
    have htest := testOf?_marked hmark hn
    rw [List.cons_append] at htext htest
    obtain ⟨htake, hdrop⟩ := span_mark hbefore hd (ds ++ (n ++ ('"' :: (value.toList ++ ['"']))))
    rw [htext, conditionOf?, htake, hdrop, hkey, htest]
    rfl

/-- The text between the brackets ends at the first one that closes. -/
theorem close_not_mem_of_inner {c : AttrCondition} (hc : c.Printable) (h : c.Inner cs) : ']' ∉ cs := by
  have hgap : ∀ {l : List Char}, Gap l → ']' ∉ l := fun hl hmem => absurd (hl _ hmem) (by decide)
  have hkey : ']' ∉ c.key.toList := fun hmem => absurd (hc.key.2 _ hmem) (by decide)
  cases h with
  | present hl hr => simp [hgap hl, hgap hr, hkey]
  | @marked key value test mark l m n r hmark hl hm hn hr =>
    have hvalue : ']' ∉ value.toList := (hc.value _ hmark).2
    have hsign : ']' ∉ mark := fun hmem => absurd (isTestMark_of_marked hmark _ hmem) (by decide)
    simp [hgap hl, hgap hm, hgap hn, hgap hr, hkey, hvalue, hsign]

theorem readCondition?_of_inner {c : AttrCondition} (hc : c.Printable) (h : c.Inner cs) :
    readCondition? (cs ++ ']' :: rest) = some (c, rest) := by
  rw [readCondition?, cutAt_append (close_not_mem_of_inner hc h)]
  simp [conditionOf?_of_inner hc h]

/-! ### Steps -/

/-- What comes after a name is no part of it. -/
def Stops (cs : List Char) : Prop := ∀ c ∈ cs.head?, isNameChar c = false

theorem readName?_append {s : String} (hs : IsName s) (hrest : Stops rest) :
    readName? (s.toList ++ rest) = some (s, rest) := by
  have htake : rest.takeWhile isNameChar = [] := by
    cases rest with
    | nil => rfl
    | cons c rest => exact List.takeWhile_cons_of_neg (by simp [hrest c rfl])
  have hdrop : rest.dropWhile isNameChar = rest := by
    cases rest with
    | nil => rfl
    | cons c rest => exact List.dropWhile_cons_of_neg (by simp [hrest c rfl])
  have hne : s.toList.isEmpty = false := by simpa using hs.1
  rw [readName?, List.takeWhile_append_of_pos hs.2, List.dropWhile_append_of_pos hs.2, htake, hdrop, List.append_nil]
  simp [hne]

variable {fuel : Nat} {step : Step}

theorem stops_conditions {conditions : List AttrCondition} (h : AttrCondition.WritesAll conditions cs) : Stops cs := by
  cases h with
  | nil => exact fun _ hc => absurd hc (by simp)
  | cons hc _ =>
    obtain ⟨inner, -, rfl⟩ := hc
    intro d hd
    obtain rfl : '[' = d := Option.some.inj hd
    decide

theorem stops_classes (classes : List String) (hrest : Stops rest) :
    Stops (classesText classes ++ rest) := by
  cases classes with
  | nil => exact hrest
  | cons c classes =>
    intro d hd
    obtain rfl : '.' = d := Option.some.inj hd
    decide

theorem stops_idText (s : Step) (hrest : Stops rest) : Stops (s.idText ++ rest) := by
  unfold Step.idText
  cases s.id with
  | none => exact hrest
  | some i =>
    intro d hd
    obtain rfl : '#' = d := Option.some.inj hd
    decide

/-- **Conditions one after the other.** -/
theorem readTests?_conditions {conditions : List AttrCondition} (hc : ∀ c ∈ conditions, c.Printable)
    (h : AttrCondition.WritesAll conditions cs) (hfuel : cs.length ≤ fuel) :
    readTests? fuel step cs = some { step with conditions := step.conditions ++ conditions } := by
  induction h generalizing fuel step with
  | nil =>
    rw [readTests?, List.append_nil]
  | @cons c conditions cs rest hwrites _ ih =>
    obtain ⟨inner, hinner, rfl⟩ := hwrites
    rw [List.cons_append, List.append_assoc, List.singleton_append] at hfuel ⊢
    simp only [List.length_cons, List.length_append] at hfuel
    obtain ⟨k, rfl⟩ : ∃ k, fuel = k + 1 := ⟨fuel - 1, by omega⟩
    have hread : readCondition? (inner ++ ']' :: rest) = some (c, rest) :=
      readCondition?_of_inner (hc c List.mem_cons_self) hinner
    have hmore : readTests? k { step with conditions := step.conditions ++ [c] } rest =
        some { step with conditions := step.conditions ++ [c] ++ conditions } :=
      ih (fun d hd => hc d (List.mem_cons_of_mem _ hd)) (by omega)
    rw [List.append_assoc, List.singleton_append] at hmore
    rw [← hmore]
    simp only [readTests?, hread, Option.bind_eq_bind, Option.bind_some]

/-- **Classes one after the other**, and what comes after them. -/
theorem readTests?_classes {classes : List String} (hclasses : ∀ c ∈ classes, IsName c) (hrest : Stops rest)
    {out : Step} (hout : ∀ k, rest.length ≤ k →
      readTests? k { step with classes := step.classes ++ classes } rest = some out)
    (hfuel : (classesText classes ++ rest).length ≤ fuel) :
    readTests? fuel step (classesText classes ++ rest) = some out := by
  induction classes generalizing fuel step with
  | nil =>
    rw [List.append_nil] at hout
    exact hout fuel hfuel
  | cons c classes ih =>
    have hstops := stops_classes classes hrest
    have hcons : classesText (c :: classes) ++ rest = '.' :: (c.toList ++ (classesText classes ++ rest)) := by
      simp [classesText]
    rw [hcons] at hfuel ⊢
    simp only [List.length_cons, List.length_append] at hfuel ih
    obtain ⟨k, rfl⟩ : ∃ k, fuel = k + 1 := ⟨fuel - 1, by omega⟩
    have hread := readName?_append (hclasses c List.mem_cons_self) hstops
    simp only [readTests?, hread, Option.bind_eq_bind, Option.bind_some]
    refine ih (fun d hd => hclasses d (List.mem_cons_of_mem _ hd)) (fun k hk => ?_) (by omega)
    have hmore := hout k hk
    rwa [List.append_cons] at hmore

/-- **What comes after the tag** of a step. -/
theorem readTests?_of_printable {s : Step} (hs : s.Printable) (h : AttrCondition.WritesAll s.conditions cs)
    (hfuel : (s.idText ++ (classesText s.classes ++ cs)).length ≤ fuel) :
    readTests? fuel { Step.any with tag := s.tag } (s.idText ++ (classesText s.classes ++ cs)) = some s := by
  have hclasses : ∀ k, (classesText s.classes ++ cs).length ≤ k → ∀ id : Option String,
      readTests? k ⟨s.tag, id, [], []⟩ (classesText s.classes ++ cs) =
        some ⟨s.tag, id, s.classes, s.conditions⟩ := fun k hk id =>
    readTests?_classes hs.classes (stops_conditions h) (fun k hk => readTests?_conditions hs.conditions h hk) hk
  obtain ⟨tag, id, classes, conditions⟩ := s
  cases id with
  | none => exact hclasses fuel hfuel none
  | some i =>
    simp only [Step.idText, Option.map_some, Option.getD_some, List.cons_append, List.length_cons] at hfuel ⊢
    obtain ⟨k, rfl⟩ : ∃ k, fuel = k + 1 := ⟨fuel - 1, by omega⟩
    have hread := readName?_append (hs.id i rfl) (stops_classes classes (stops_conditions h))
    simp only [readTests?, hread, Option.bind_eq_bind, Option.bind_some, Step.any, Option.isSome_none,
      Bool.false_eq_true, if_false]
    refine hclasses k ?_ (some i)
    rw [List.length_append] at hfuel
    exact Nat.le_trans (Nat.le_add_left _ _) (Nat.le_of_succ_le_succ hfuel)

theorem stepOf?_of_name {c : Char} (hc : isNameChar c = true) : stepOf? (c :: cs) =
    (readName? (c :: cs)).bind fun x => readTests? x.2.length { Step.any with tag := some x.1 } x.2 := by
  have hstar : c ≠ '*' := by rintro rfl; exact absurd hc (by decide)
  have hopen : ¬(c = '#' ∨ c = '.' ∨ c = '[') := by rintro (rfl | rfl | rfl) <;> exact absurd hc (by decide)
  unfold stepOf?
  split
  · rename_i heq
    cases heq
  · rename_i heq
    exact absurd (List.cons.inj heq).1 hstar
  · rename_i heq
    obtain ⟨rfl, rfl⟩ := List.cons.inj heq
    rw [if_neg hopen]
    rfl

theorem stepOf?_of_opening {c : Char} (hc : c = '#' ∨ c = '.' ∨ c = '[') :
    stepOf? (c :: cs) = readTests? (c :: cs).length .any (c :: cs) := by
  rcases hc with rfl | rfl | rfl <;> rfl

/-- A step without a tag of which something is asked starts with it. -/
theorem opening_of_tag_none {s : Step} (htag : s.tag = none) (hne : s ≠ .any)
    (h : AttrCondition.WritesAll s.conditions cs) :
    ∃ c r, s.idText ++ (classesText s.classes ++ cs) = c :: r ∧ (c = '#' ∨ c = '.' ∨ c = '[') := by
  obtain ⟨tag, id, classes, conditions⟩ := s
  obtain rfl : tag = none := htag
  cases id with
  | some i => exact ⟨'#', _, rfl, .inl rfl⟩
  | none =>
    cases classes with
    | cons c classes => exact ⟨'.', _, rfl, .inr (.inl rfl)⟩
    | nil =>
      cases h with
      | nil => exact absurd rfl hne
      | cons hc _ =>
        obtain ⟨inner, -, rfl⟩ := hc
        exact ⟨'[', _, rfl, .inr (.inr rfl)⟩

/-- **A step is read from its text.** -/
theorem stepOf?_of_writes {s : Step} (hs : s.Printable) (h : s.Writes cs) : stepOf? cs = some s := by
  cases h with
  | any => rfl
  | @some s conditions hne hconditions =>
    have hbody : ∀ fuel, (s.idText ++ (classesText s.classes ++ conditions)).length ≤ fuel →
        readTests? fuel { Step.any with tag := s.tag } (s.idText ++ (classesText s.classes ++ conditions)) = some s :=
      fun _ => readTests?_of_printable hs hconditions
    cases htag : s.tag with
    | none =>
      rw [Step.tagText, htag, Option.map_none, Option.getD_none, List.nil_append]
      rw [htag] at hbody
      obtain ⟨c, r, htext, hopening⟩ := opening_of_tag_none htag hne hconditions
      rw [htext] at hbody ⊢
      rw [stepOf?_of_opening hopening]
      exact hbody _ (Nat.le_refl _)
    | some t =>
      have hname := hs.tag t htag
      have hstops := stops_idText s (stops_classes s.classes (stops_conditions hconditions))
      obtain ⟨c, r, hc⟩ := List.exists_cons_of_ne_nil hname.1
      have hread := readName?_append hname hstops
      rw [Step.tagText, htag, Option.map_some, Option.getD_some]
      rw [htag] at hbody
      rw [hc, List.cons_append] at hread ⊢
      rw [stepOf?_of_name (hname.2 c (hc ▸ List.mem_cons_self)), hread]
      exact hbody _ (Nat.le_refl _)

/-! ### Chains -/

theorem Step.Writes.ne_nil {s : Step} (hs : s.Printable) (h : s.Writes cs) : cs ≠ [] := by
  rintro rfl
  have hread := stepOf?_of_writes hs h
  cases hread

theorem padChild_gap (h : Gap cs) : padChild .outside (cs ++ rest) = cs ++ padChild .outside rest := by
  have hspace : ∀ c, isSpace c = true → (c == '>') = false := fun c hc => by
    rw [beq_eq_false_iff_ne]
    rintro rfl
    exact absurd hc (by decide)
  have hpasses : Passes (· == '>') .outside cs .outside := passes_gap h hspace
  exact padChild_of_passes hpasses rfl

theorem padChild_tight (h : Tight cs) : padChild .outside (cs ++ rest) = cs ++ padChild .outside rest :=
  padChild_of_passes h.passes (by decide)

theorem padChild_child {l : List Char} (hl : Gap l) :
    padChild .outside (l ++ '>' :: rest) = l ++ (' ' :: '>' :: ' ' :: padChild .outside rest) :=
  padChild_gap hl

/-- What comes after a step starts with a blank, be it one of the padding. -/
theorem Chain.Tail.parted {ps : Chain} (h : Tail ps cs) : Parted (padChild .outside cs) := by
  cases h with
  | nil => exact fun c hc => absurd hc (by simp [padChild])
  | @cons p ps tie step rest htie _ _ =>
    obtain ⟨s, k⟩ := p
    cases htie with
    | descendant hl hne =>
      rw [padChild_gap hl]
      obtain ⟨c, l, rfl⟩ := List.exists_cons_of_ne_nil hne
      intro d hd
      obtain rfl : c = d := Option.some.inj hd
      exact hl c List.mem_cons_self
    | @child l r hl hr =>
      rw [List.append_assoc, List.cons_append, padChild_child hl]
      intro d hd
      cases l with
      | nil =>
        obtain rfl : ' ' = d := Option.some.inj hd
        rfl
      | cons c l =>
        obtain rfl : c = d := Option.some.inj hd
        exact hl c List.mem_cons_self

/-- A token that is a step, and the parts after it. -/
theorem partsOf?_cons (first child : Bool) {t : List Char} {ts : List (List Char)} {s : Step}
    (ht : stepOf? t = some s) : partsOf? first child (t :: ts) =
      (partsOf? false false ts).map (⟨s, if child then .child else .descendant⟩ :: ·) := by
  have hne : t ≠ ['>'] := by
    rintro rfl
    cases ht
  rw [partsOf?, if_neg hne, ht]
  cases partsOf? false false ts <;> rfl

/-- The mark of a child is a token, as it is padded. -/
theorem tokens_child (xs : List Char) : tokens? (' ' :: '>' :: ' ' :: xs) = (tokens? xs).map (['>'] :: ·) := by
  have hpasses : Passes isTokenEnd .outside ['>'] .outside := ⟨fun _ => rfl, rfl⟩
  have hmark : tokens? (['>'] ++ ' ' :: xs) = (tokens? (' ' :: xs)).map (['>'] :: ·) :=
    tokens_token (firm_singleton rfl) hpasses (by simp) fun c hc => (Option.some.inj hc) ▸ rfl
  calc tokens? (' ' :: '>' :: ' ' :: xs)
    _ = tokens? (['>'] ++ ' ' :: xs) := tokens_gap gap_blank
    _ = (tokens? (' ' :: xs)).map (['>'] :: ·) := hmark
    _ = (tokens? xs).map (['>'] :: ·) := congrArg (Option.map (['>'] :: ·)) (tokens_gap gap_blank)

/-- **The parts of a chain** are read from their tokens. -/
theorem Chain.Tail.parts {ps : Chain} (hps : ∀ p ∈ ps, p.step.Printable) (h : Tail ps cs) :
    ∃ ts, tokens? (padChild .outside cs) = some ts ∧ partsOf? false false ts = some ps := by
  induction h with
  | nil => exact ⟨[], tokens_nil, rfl⟩
  | @cons p ps tie step rest htie hstep htail ih =>
    obtain ⟨ts, htokens, hparts⟩ := ih fun q hq => hps q (List.mem_cons_of_mem _ hq)
    have hp := hps p List.mem_cons_self
    have hread := stepOf?_of_writes hp hstep
    have hnext : tokens? (step ++ padChild .outside rest) = some (step :: ts) := by
      rw [tokens_tight (hstep.tight hp) (hstep.ne_nil hp) htail.parted, htokens]
      rfl
    obtain ⟨s, k⟩ := p
    cases htie with
    | descendant hl _ =>
      refine ⟨step :: ts, ?_, ?_⟩
      · rw [padChild_gap hl, padChild_tight (hstep.tight hp), tokens_gap hl, hnext]
      · rw [partsOf?_cons false false hread, hparts]
        rfl
    | @child l r hl hr =>
      refine ⟨['>'] :: step :: ts, ?_, ?_⟩
      · rw [List.append_assoc, List.cons_append, padChild_child hl, tokens_gap hl, tokens_child, padChild_gap hr,
          padChild_tight (hstep.tight hp), tokens_gap hr, hnext]
        rfl
      · have hchild : partsOf? false false (['>'] :: step :: ts) = partsOf? false true (step :: ts) := rfl
        rw [hchild, partsOf?_cons false true hread, hparts]
        rfl

theorem Chain.Tail.firm {ps : Chain} (hps : ∀ p ∈ ps, p.step.Printable) (h : Tail ps cs) {t : List Char}
    (ht : Firm t) (hne : t ≠ []) : Firm (t ++ cs) := by
  induction h generalizing t with
  | nil => rwa [List.append_nil]
  | cons _ hstep _ ih =>
    have hp := hps _ List.mem_cons_self
    have hmore := ih (fun q hq => hps q (List.mem_cons_of_mem _ hq)) (hstep.tight hp).firm (hstep.ne_nil hp)
    exact ht.around hmore hne (by simp [hstep.ne_nil hp]) _

/-- **A chain is read from its text**, blanks around it or not. -/
theorem chainOf_of_writes {c : Chain} (hc : c.Printable) (h : Chain.Writes c cs) (selector : String) :
    chainOf selector cs = .ok c := by
  cases h with
  | @mk p ps l step rest r hl hstep htail hr =>
    have hp := hc.steps p List.mem_cons_self
    have hps : ∀ q ∈ ps, q.step.Printable := fun q hq => hc.steps q (List.mem_cons_of_mem _ hq)
    have hne := hstep.ne_nil hp
    obtain ⟨ts, htokens, hparts⟩ := htail.parts hps
    have hall : tokens? (padChild .outside (step ++ rest)) = some (step :: ts) := by
      rw [padChild_tight (hstep.tight hp), tokens_tight (hstep.tight hp) hne htail.parted, htokens]
      rfl
    obtain ⟨ws, hpieces, htoks⟩ := Option.map_eq_some_iff.1 hall
    have hfull : (step ++ rest).isEmpty = false := by simp [hne]
    have hchain : partsOf? true false (tokensOf ws) = some (p :: ps) := by
      obtain ⟨q, qs, hq, hdescendant⟩ := hc.head
      obtain ⟨rfl, rfl⟩ := List.cons.inj hq
      rw [htoks, partsOf?_cons true false (stepOf?_of_writes hp hstep), hparts, ← hdescendant]
      rfl
    rw [chainOf, trimList_gaps hl hr (htail.firm hps (hstep.tight hp).firm hne)]
    simp only [hfull, hpieces, hchain, Bool.false_eq_true, if_false]

/-! ### Selectors -/

/-- What ends a chain outside brackets. -/
def isComma (c : Char) : Bool := c == ',' || c == ']'

theorem passes_comma_gap (h : Gap cs) : Passes isComma .outside cs .outside := by
  refine passes_gap h fun c hc => ?_
  simp only [isSpace, Bool.or_eq_true, beq_iff_eq] at hc
  rcases hc with (((rfl | rfl) | rfl) | rfl) | rfl <;> rfl

theorem Tight.passes_comma (h : Tight cs) : Passes isComma .outside cs .outside := by
  refine h.passes.mono fun c hc => ?_
  simp only [isComma, Bool.or_eq_true, beq_iff_eq] at hc
  rcases hc with rfl | rfl <;> rfl

theorem Chain.Tail.passes_comma {ps : Chain} (hps : ∀ p ∈ ps, p.step.Printable) (h : Tail ps cs) :
    Passes isComma .outside cs .outside := by
  induction h with
  | nil => rfl
  | @cons p ps tie step rest htie hstep _ ih =>
    have hrest := (hstep.tight (hps p List.mem_cons_self)).passes_comma.append
      (ih fun q hq => hps q (List.mem_cons_of_mem _ hq))
    obtain ⟨s, k⟩ := p
    cases htie with
    | descendant hl _ => exact (passes_comma_gap hl).append hrest
    | child hl hr =>
      have hmark : Passes isComma .outside ['>'] .outside := ⟨fun _ => rfl, rfl⟩
      exact ((passes_comma_gap hl).append (hmark.append (passes_comma_gap hr))).append hrest

theorem Chain.Writes.passes_comma {c : Chain} (hc : c.Printable) (h : Chain.Writes c cs) :
    Passes isComma .outside cs .outside := by
  cases h with
  | @mk p ps l step rest r hl hstep htail hr =>
    have hstart := (hstep.tight (hc.steps p List.mem_cons_self)).passes_comma
    have hrest := htail.passes_comma fun q hq => hc.steps q (List.mem_cons_of_mem _ hq)
    exact (passes_comma_gap hl).append ((hstart.append hrest).append (passes_comma_gap hr))

/-- **The cut at commas** gives the texts of the chains. -/
theorem chainsOf_of_writes {s : Selector} (hs : ∀ c ∈ s, Chain.Printable c) (h : Writes s cs) (selector : String) :
    ∃ groups, pieces (· == ',') .outside cs = some groups ∧ chainsOf selector groups = .ok s := by
  have hcomma : ∀ c, (c == ',') = true → isComma c = true := fun c hc => by simp [isComma, hc]
  induction h with
  | @one c cs h =>
    have hc := hs c List.mem_cons_self
    refine ⟨[cs], ?_, ?_⟩
    · have hpieces : pieces (· == ',') .outside (cs ++ []) = some (cs.foldr inFront [[]]) :=
        pieces_of_passes (h.passes_comma hc) rfl hcomma
      rwa [foldr_inFront, List.append_nil] at hpieces
    · rw [chainsOf, chainOf_of_writes hc h]
      rfl
  | @cons c s cs rest h _ ih =>
    have hc := hs c List.mem_cons_self
    obtain ⟨groups, hgroups, hchains⟩ := ih fun d hd => hs d (List.mem_cons_of_mem _ hd)
    refine ⟨cs :: groups, ?_, ?_⟩
    · rw [pieces_of_passes (h.passes_comma hc) rfl hcomma, pieces_mark rfl (by decide), hgroups]
      exact congrArg some ((foldr_inFront cs [] groups).trans (by rw [List.append_nil]))
    · rw [chainsOf, chainOf_of_writes hc h, hchains]
      rfl

/-- **Reading undoes writing.** Every selector that can be written has a text, and whatever text it is written as,
wherever there are blanks and whatever stands in quotes, is read as that selector. -/
theorem read_of_writes {s : Selector} (hs : s.Printable) :
    Writes s (print s) ∧ ∀ text : String, Writes s text.toList → read text = .ok s := by
  refine ⟨writes_print hs, fun text h => ?_⟩
  obtain ⟨groups, hgroups, hchains⟩ := chainsOf_of_writes hs.chains h text
  rw [read, hgroups]
  exact hchains

/-- A condition whose value has all that separates selectors. -/
def knotted : AttrCondition := ⟨"data-a", .startsWith ", > [k='v"⟩

def knottedStep : Step := ⟨some "div", some "main", ["x", "y"], [knotted, ⟨"b", .present⟩]⟩

/-- Two chains, with a step of which nothing is asked. -/
def knottedSelector : Selector :=
  [[⟨knottedStep, .descendant⟩, ⟨.any, .child⟩], [⟨⟨some "p", none, [], []⟩, .descendant⟩, ⟨.any, .descendant⟩]]

theorem printable_knotted : knottedSelector.Printable := by
  have hsteps : ∀ p ∈ knottedSelector.flatten, p.step.Printable := by
    intro p hp
    simp only [knottedSelector, List.flatten_cons, List.flatten_nil, List.cons_append, List.nil_append,
      List.mem_cons, List.not_mem_nil, or_false] at hp
    have hconditions : ∀ c ∈ knottedStep.conditions, c.Printable := by
      intro c hc
      simp only [knottedStep, List.mem_cons, List.not_mem_nil, or_false] at hc
      rcases hc with rfl | rfl <;> exact ⟨by decide, by decide, by decide⟩
    rcases hp with rfl | rfl | rfl | rfl
    · exact ⟨by decide, by decide, by decide, hconditions⟩
    all_goals exact ⟨by decide, by decide, by decide, fun c hc => absurd hc List.not_mem_nil⟩
  refine ⟨by decide, fun c hc => ⟨?_, fun p hp => hsteps p (List.mem_flatten.2 ⟨c, hc, hp⟩)⟩⟩
  simp only [knottedSelector, List.mem_cons, List.not_mem_nil, or_false] at hc
  rcases hc with rfl | rfl <;> exact ⟨_, _, rfl, rfl⟩

theorem writes_knotted :
    Writes knottedSelector " div#main.x.y[ data-a ^= \", > [k='v\"\t][b] >*\n,p  * ".toList := by
  have hvalue : knotted.Writes "[ data-a ^= \", > [k='v\"\t]".toList :=
    ⟨_, .marked (r := ['\t']) rfl gap_blank gap_blank gap_blank (by decide), by decide⟩
  have hconditions : AttrCondition.WritesAll knottedStep.conditions "[ data-a ^= \", > [k='v\"\t][b]".toList :=
    .cons hvalue (.cons (AttrCondition.writes_print ⟨"b", .present⟩) .nil)
  have hstep : knottedStep.Writes "div#main.x.y[ data-a ^= \", > [k='v\"\t][b]".toList := .some (by decide) hconditions
  have hblanks : Gap [' ', ' '] := by decide
  have htag : Step.Writes ⟨some "p", none, [], []⟩ ['p'] := .some (by decide) .nil
  have hline : Gap ['\n'] := by decide
  exact .cons (.mk (p := ⟨_, .descendant⟩) gap_blank hstep
      (.cons (p := ⟨.any, .child⟩) (.child gap_blank gap_nil) .any .nil) hline)
    (.one (.mk (p := ⟨_, .descendant⟩) gap_nil htag
      (.cons (p := ⟨.any, .descendant⟩) (.descendant hblanks (by simp)) .any .nil) gap_blank))

theorem read_of_writes_knotted :
    read " div#main.x.y[ data-a ^= \", > [k='v\"\t][b] >*\n,p  * " = .ok knottedSelector :=
  (read_of_writes printable_knotted).2 _ writes_knotted

end PageSweep.Selector
