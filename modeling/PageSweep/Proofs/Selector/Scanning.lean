import PageSweep.Proofs.Text.Pieces
import PageSweep.Selector.Reader

/-!
# Walking over a selector

The cut at commas, the padding of `>` and the cut at blanks walk a selector with the same state, and all three do
something only where they are outside brackets. So a stretch of text that shows none of their marks there is passed
over by each of them.

* `pieces_of_passes`, `padChild_of_passes`: a stretch that is passed over.
* `Tight`: the text of a step, which all three pass over.
* `tokens_gap`, `tokens_tight`: the tokens of a text, one after the other.
-/

namespace PageSweep.Selector

open Text

/-! ### Ends of a text -/

/-- Blanks, any number of them. -/
def Gap (cs : List Char) : Prop := ∀ c ∈ cs, isSpace c = true

instance (cs : List Char) : Decidable (Gap cs) := List.decidableBAll (fun c => isSpace c = true) cs

theorem gap_nil : Gap [] := fun _ h => absurd h List.not_mem_nil

theorem gap_blank : Gap [' '] := fun _ hc => (List.mem_singleton.1 hc) ▸ rfl

theorem isBlank_of_isSpace {c : Char} (h : isSpace c = true) : isBlank c = true := by
  simp only [isSpace, Bool.or_eq_true, beq_iff_eq] at h
  rcases h with (((rfl | rfl) | rfl) | rfl) | rfl <;> decide

/-- **A text without blanks at its ends.** -/
structure Firm (cs : List Char) : Prop where
  head : ∀ c ∈ cs.head?, isBlank c = false
  last : ∀ c ∈ cs.getLast?, isBlank c = false

theorem firm_of_forall {cs : List Char} (h : ∀ c ∈ cs, isBlank c = false) : Firm cs :=
  ⟨fun c hc => h c (List.mem_of_mem_head? hc), fun c hc => h c (List.mem_of_getLast? hc)⟩

theorem firm_singleton {c : Char} (h : isBlank c = false) : Firm [c] :=
  firm_of_forall fun _ hd => (List.mem_singleton.1 hd) ▸ h

theorem Firm.append {xs ys : List Char} (hx : Firm xs) (hy : Firm ys) : Firm (xs ++ ys) := by
  constructor
  · intro c hc
    cases xs with
    | nil => exact hy.head c hc
    | cons x xs => exact hx.head c hc
  · intro c hc
    cases ys with
    | nil => exact hx.last c (by simpa using hc)
    | cons y ys => exact hy.last c (by simpa using hc)

/-- What is in between does not matter. -/
theorem Firm.around {xs ys : List Char} (hx : Firm xs) (hy : Firm ys) (hxs : xs ≠ []) (hys : ys ≠ [])
    (zs : List Char) : Firm (xs ++ (zs ++ ys)) := by
  obtain ⟨x, xs, rfl⟩ := List.exists_cons_of_ne_nil hxs
  obtain ⟨init, y, rfl⟩ := (List.eq_nil_or_concat ys).resolve_left hys
  refine ⟨hx.head, fun c hc => hy.last c ?_⟩
  rw [List.getLast?_append, List.getLast?_append] at hc
  simpa using hc

theorem trimBack_gap {r : List Char} (hr : Gap r) : trimBack r = [] := by
  induction r with
  | nil => rfl
  | cons c r ih =>
    have hnil : trimBack r = [] := ih fun d hd => hr d (List.mem_cons_of_mem _ hd)
    simp [trimBack, hnil, isBlank_of_isSpace (hr c List.mem_cons_self)]

theorem trimBack_append_gap {r : List Char} (hr : Gap r) (xs : List Char) : trimBack (xs ++ r) = trimBack xs := by
  induction xs with
  | nil => exact trimBack_gap hr
  | cons x xs ih => rw [List.cons_append, trimBack, trimBack, ih]

/-- **Trimming takes off the blanks around a text**, and no more. -/
theorem trimList_gaps {l t r : List Char} (hl : Gap l) (hr : Gap r) (ht : Firm t) :
    trimList (l ++ (t ++ r)) = t := by
  have hfront : trimFront (l ++ (t ++ r)) = trimFront (t ++ r) :=
    List.dropWhile_append_of_pos fun c hc => isBlank_of_isSpace (hl c hc)
  rw [trimList, hfront]
  rcases List.eq_nil_or_concat t with rfl | ⟨init, c, rfl⟩
  · have hall : ∀ d ∈ r, isBlank d = true := fun d hd => isBlank_of_isSpace (hr d hd)
    have hnil : trimFront r = [] := List.dropWhile_eq_nil_iff.2 hall
    rw [List.nil_append, hnil]
    rfl
  · have hlast : isBlank c = false := ht.last c (by simp)
    have hfirm : trimFront (init.concat c ++ r) = init.concat c ++ r := by
      refine trimFront_eq_self fun d hd => ht.head d ?_
      cases init with
      | nil => simpa using hd
      | cons x init => simpa using hd
    have hone : trimBack [c] = [c] := trimBack_cons_of_not_blank hlast []
    rw [hfirm, trimBack_append_gap hr, List.concat_eq_append, trimBack_append init (by simp [hone]), hone]

theorem trimList_firm {t : List Char} (ht : Firm t) : trimList t = t := by
  simpa using trimList_gaps gap_nil gap_nil ht

/-! ### Walking -/

/-- **A walk over a text** from one state to another that sees no bad character outside brackets. -/
def Passes (bad : Char → Bool) : Nesting → List Char → Nesting → Prop
  | n, [], n' => n = n'
  | n, c :: cs, n' => (n.isOutside = true → bad c = false) ∧ Passes bad (n.next c) cs n'

variable {bad isMark : Char → Bool} {n n' n'' : Nesting} {xs ys cs : List Char}

theorem Passes.append (hx : Passes bad n xs n') (hy : Passes bad n' ys n'') : Passes bad n (xs ++ ys) n'' := by
  induction xs generalizing n with
  | nil => exact (show n = n' from hx) ▸ hy
  | cons c xs ih => exact ⟨hx.1, ih hx.2⟩

theorem Passes.mono {bad' : Char → Bool} (h : Passes bad n xs n') (hbad : ∀ c, bad' c = true → bad c = true) :
    Passes bad' n xs n' := by
  induction xs generalizing n with
  | nil => exact h
  | cons c xs ih =>
    refine ⟨fun hn => ?_, ih h.2⟩
    rw [Bool.eq_false_iff]
    intro hc
    exact absurd ((h.1 hn).symm.trans (hbad c hc)) Bool.false_ne_true

/-- A state stays through characters that do not change it. -/
theorem passes_of_forall (h : ∀ c ∈ cs, (n.isOutside = true → bad c = false) ∧ n.next c = n) : Passes bad n cs n := by
  induction cs with
  | nil => rfl
  | cons c cs ih =>
    obtain ⟨hc, hnext⟩ := h c List.mem_cons_self
    refine ⟨hc, ?_⟩
    rw [hnext]
    exact ih fun d hd => h d (List.mem_cons_of_mem _ hd)

theorem foldr_inFront (xs p : List Char) (ps : List (List Char)) : xs.foldr inFront (p :: ps) = (xs ++ p) :: ps := by
  induction xs with
  | nil => rfl
  | cons c xs ih => rw [List.foldr_cons, ih]; rfl

/-- A walk that sees no bad character sees none that is looked for outside. -/
theorem unseen (looked : Char → Bool) {c : Char} (h : n.isOutside = true → bad c = false)
    (hlooked : looked c = true → bad c = true) : (n.isOutside && looked c) = false := by
  rw [Bool.eq_false_iff, ne_eq, Bool.and_eq_true]
  rintro ⟨hn, hc⟩
  exact absurd ((h hn).symm.trans (hlooked hc)) Bool.false_ne_true

/-- **A stretch that is passed over** goes in front of the first piece of what follows. -/
theorem pieces_of_passes (h : Passes bad n xs n') (hclose : bad ']' = true)
    (hmark : ∀ c, isMark c = true → bad c = true) :
    pieces isMark n (xs ++ ys) = (pieces isMark n' ys).map (xs.foldr inFront) := by
  induction xs generalizing n with
  | nil =>
    obtain rfl : n = n' := h
    exact (congrFun Option.map_id _).symm
  | cons c xs ih =>
    have hopen : (n.isOutside && c == ']') = false :=
      unseen (· == ']') h.1 fun hc => (beq_iff_eq.1 hc) ▸ hclose
    rw [List.cons_append, pieces, hopen, unseen isMark h.1 (hmark c)]
    simp only [Bool.false_eq_true, if_false]
    rw [ih h.2, Option.map_map]
    rfl

theorem padChild_of_passes (h : Passes bad n xs n') (hchild : bad '>' = true) :
    padChild n (xs ++ ys) = xs ++ padChild n' ys := by
  induction xs generalizing n with
  | nil =>
    obtain rfl : n = n' := h
    rfl
  | cons c xs ih =>
    have hopen : (n.isOutside && c == '>') = false :=
      unseen (· == '>') h.1 fun hc => (beq_iff_eq.1 hc) ▸ hchild
    rw [List.cons_append, padChild, hopen]
    simp only [Bool.false_eq_true, if_false]
    rw [ih h.2, List.cons_append]

/-! ### Tokens -/

/-- What ends a step outside brackets. -/
def isBreak (c : Char) : Bool := c == ',' || c == '>' || c == ']' || isSpace c

/-- **A text that stays in one piece**: it has no blanks at its ends and no breaks outside brackets. -/
structure Tight (cs : List Char) : Prop where
  firm : Firm cs
  passes : Passes isBreak .outside cs .outside

theorem Tight.append (hx : Tight xs) (hy : Tight ys) : Tight (xs ++ ys) :=
  ⟨hx.firm.append hy.firm, hx.passes.append hy.passes⟩

theorem tight_nil : Tight [] := ⟨firm_of_forall fun _ h => absurd h List.not_mem_nil, rfl⟩

theorem tight_flatten {css : List (List Char)} (h : ∀ cs ∈ css, Tight cs) : Tight css.flatten := by
  induction css with
  | nil => exact tight_nil
  | cons cs css ih =>
    exact (h cs List.mem_cons_self).append (ih fun ds hds => h ds (List.mem_cons_of_mem _ hds))

/-- Outside brackets only an opening one changes the state. -/
theorem next_outside {c : Char} (h : c ≠ '[') : Nesting.outside.next c = .outside := by
  by_cases hc : c = ']'
  · subst hc
    rfl
  · simp [Nesting.next, Nesting.outside, h, hc]

theorem tight_of_forall (h : ∀ c ∈ cs, isBlank c = false ∧ isBreak c = false ∧ c ≠ '[') : Tight cs :=
  ⟨firm_of_forall fun c hc => (h c hc).1,
    passes_of_forall fun c hc => ⟨fun _ => (h c hc).2.1, next_outside (h c hc).2.2⟩⟩

theorem passes_gap (h : Gap cs) (hbad : ∀ c, isSpace c = true → bad c = false) : Passes bad .outside cs .outside := by
  refine passes_of_forall fun c hc => ⟨fun _ => hbad c (h c hc), next_outside ?_⟩
  rintro rfl
  exact absurd (h '[' hc) (by decide)

/-- The tokens of a text, if its brackets fit. -/
def tokens? (cs : List Char) : Option (List (List Char)) := (pieces isSpace .outside cs).map tokensOf

theorem tokens_nil : tokens? [] = some [] := rfl

theorem pieces_mark {c : Char} (hmark : isMark c = true) (hclose : c ≠ ']') :
    pieces isMark .outside (c :: cs) = (pieces isMark .outside cs).map ([] :: ·) := by
  simp [pieces, Nesting.isOutside, Nesting.outside, hmark, hclose]

/-- **Blanks outside brackets make no token.** -/
theorem tokens_gap (h : Gap cs) : tokens? (cs ++ ys) = tokens? ys := by
  induction cs with
  | nil => rfl
  | cons c cs ih =>
    have hc := h c List.mem_cons_self
    have hclose : c ≠ ']' := by
      rintro rfl
      exact absurd hc (by decide)
    rw [List.cons_append, tokens?, pieces_mark hc hclose, Option.map_map,
      ← ih fun d hd => h d (List.mem_cons_of_mem _ hd)]
    rfl

/-- Nothing more, or a blank. -/
def Parted (cs : List Char) : Prop := ∀ c ∈ cs.head?, isSpace c = true

/-- What ends a token outside brackets. -/
def isTokenEnd (c : Char) : Bool := isSpace c || c == ']'

/-- **A text that no blank breaks is one token**, if a blank comes after it. -/
theorem tokens_token (hfirm : Firm xs) (hx : Passes isTokenEnd .outside xs .outside) (hne : xs ≠ [])
    (hy : Parted ys) : tokens? (xs ++ ys) = (tokens? ys).map (xs :: ·) := by
  have hspace : ∀ c, isSpace c = true → isTokenEnd c = true := fun c hc => by simp [isTokenEnd, hc]
  have hone : ∀ ps, tokensOf ((xs ++ []) :: ps) = xs :: tokensOf ps := by
    intro ps
    have hxs : xs.isEmpty = false := by simpa using hne
    simp [tokensOf, trimList_firm hfirm, hxs]
  rw [tokens?, tokens?, pieces_of_passes hx (by decide) hspace]
  cases ys with
  | nil => exact congrArg some ((congrArg tokensOf (foldr_inFront xs [] [])).trans (hone []))
  | cons c ys =>
    have hc := hy c rfl
    have hclose : c ≠ ']' := by
      rintro rfl
      exact absurd hc (by decide)
    rw [pieces_mark hc hclose, Option.map_map, Option.map_map, Option.map_map, Option.map_map]
    refine congrArg (Option.map · _) (funext fun ps => ?_)
    exact (congrArg tokensOf (foldr_inFront xs [] ps)).trans (hone ps)

theorem tokens_tight (hx : Tight xs) (hne : xs ≠ []) (hy : Parted ys) :
    tokens? (xs ++ ys) = (tokens? ys).map (xs :: ·) := by
  refine tokens_token hx.firm (hx.passes.mono fun c hc => ?_) hne hy
  rcases Bool.or_eq_true_iff.1 hc with hc | hc
  · simp [isBreak, hc]
  · simp [isBreak, beq_iff_eq.1 hc]

end PageSweep.Selector
