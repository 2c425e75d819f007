import PageSweep.Page.Basic
import PageSweep.Proofs.Selector.Scanning

/-!
# Scanners agree on brackets

A selector is cut at its commas, each alternative is trimmed, its `>` are set between blanks, and what comes of that is
cut at blanks. Each cut and the padding count brackets and follow quotes on their own, and they part ways on a bracket
that closes nothing: a cut fails there, the padding goes on. Once the cut at commas is through there is none, and from
there on the scanners stand at the same depth and inside the same quote at every place of every alternative. So the cut
at blanks cannot fail, and the only text that a failure carries is that of the whole selector.

* `Cutting`, `Padding`: the loops as they run, each with a depth and a quote of its own; `cut_eq_pieces` and
  `pad_eq_padChild` say what they give.
* `pieces_isSome_iff`: a cut gets through just the texts whose brackets fit.
* `Balanced`: such texts; alternatives are (`balanced_of_mem_pieces`), trimmed (`Balanced.trimList`) and padded
  (`Passes.padChild`).
* `inStep_of_balanced`: the loops stand at the same place all along.
* `chainOf_cases`, `chainsOf_cases`: what becomes of one alternative and of all of them.
* `selector_scanners_agree`: both together, for every text and every page.
-/

namespace PageSweep.Selector

open Text

/-! ### Places -/

namespace Nesting

theorem isOutside_iff {n : Nesting} : n.isOutside = true ↔ n = .outside := by
  obtain ⟨depth, quote⟩ := n
  simp [isOutside, outside]

/-- What a loop asks for outside brackets only. -/
theorem outside_of_and {n : Nesting} {asked : Bool} (h : (n.isOutside && asked) = true) :
    n = .outside ∧ asked = true :=
  (Bool.and_eq_true_iff.1 h).imp isOutside_iff.1 id

/-- The quote that a place lies in, if any, is a quotation mark. -/
def Sound (n : Nesting) : Prop := ∀ q ∈ n.quote, q = '"' ∨ q = '\''

theorem sound_outside : outside.Sound := fun _ hq => absurd hq (by simp [outside])

theorem Sound.next {n : Nesting} (h : n.Sound) (c : Char) : (n.next c).Sound := by
  unfold Nesting.next
  split
  next q hq =>
    split
    next => exact fun _ hq => absurd hq (by simp)
    next => exact h
  next hq =>
    split
    next hc => exact fun q hq => (Option.mem_some_iff.1 hq) ▸ hc.1
    next =>
      split
      next => exact h
      next =>
        split <;> exact h

/-- **A blank changes nothing**, wherever it stands. -/
theorem next_blank {n : Nesting} (h : n.Sound) {c : Char} (hc : isBlank c = true) : n.next c = n := by
  have hne : ∀ d : Char, isBlank d = false → c ≠ d := by
    rintro d hd rfl
    exact absurd (hc.symm.trans hd) (by decide)
  unfold Nesting.next
  split
  next q hq =>
    have hqc : c ≠ q := by
      rcases h q hq with rfl | rfl
      · exact hne '"' (by decide)
      · exact hne '\'' (by decide)
    rw [if_neg hqc]
  next =>
    rw [if_neg fun h' => h'.1.elim (hne '"' (by decide)) (hne '\'' (by decide)), if_neg (hne '[' (by decide)),
      if_neg (hne ']' (by decide))]

end Nesting

/-- The characters of a text, each with its place. -/
def placed (n : Nesting) : List Char → List (Nesting × Char)
  | [] => []
  | c :: cs => (n, c) :: placed (n.next c) cs

/-- What becomes of a character when `>` is padded: blanks are added around one that lies outside brackets, and only
there. -/
def spaced : Nesting × Char → List (Nesting × Char)
  | (n, c) => if n.isOutside && c == '>' then [(n, ' '), (n, '>'), (n, ' ')] else [(n, c)]

/-- **Padding leaves every character where it was**, and its blanks lie outside brackets. -/
theorem placed_padChild (n : Nesting) (cs : List Char) : placed n (padChild n cs) = (placed n cs).flatMap spaced := by
  induction cs generalizing n with
  | nil => rfl
  | cons c cs ih =>
    rw [padChild, placed, List.flatMap_cons, spaced]
    split
    next h =>
      obtain ⟨rfl, hc⟩ := Nesting.outside_of_and h
      obtain rfl := beq_iff_eq.1 hc
      exact congrArg (fun ps => [(Nesting.outside, ' '), (.outside, '>'), (.outside, ' ')] ++ ps) (ih .outside)
    next => exact congrArg ((n, c) :: ·) (ih (n.next c))

/-! ### Texts whose brackets fit -/

variable {bad isMark : Char → Bool} {n n' : Nesting} {xs ys cs : List Char}

/-- A walk can be taken in two parts. -/
theorem Passes.of_append (h : Passes bad n (xs ++ ys) n') : ∃ m, Passes bad n xs m ∧ Passes bad m ys n' := by
  induction xs generalizing n with
  | nil => exact ⟨n, rfl, h⟩
  | cons c xs ih =>
    obtain ⟨m, hxs, hys⟩ := ih h.2
    exact ⟨m, ⟨h.1, hxs⟩, hys⟩

/-- A walk comes to the place that the text leads to. -/
theorem Passes.eq_foldl (h : Passes bad n cs n') : n' = cs.foldl Nesting.next n := by
  induction cs generalizing n with
  | nil => exact h.symm
  | cons c cs ih => exact ih h.2

/-- **The brackets of a text fit**: none closes that was not opened, and none stays open, no quote either. -/
def Balanced (cs : List Char) : Prop := Passes (· == ']') .outside cs .outside

/-- A mark that is not a bracket does not change the place. -/
theorem next_mark (hopen : isMark '[' = false) {c : Char} (h : (n.isOutside && isMark c) = true) : n.next c = n := by
  obtain ⟨rfl, hc⟩ := Nesting.outside_of_and h
  apply next_outside
  rintro rfl
  exact absurd (hc.symm.trans hopen) (by decide)

/-- A cut goes on where no bracket closes that was not opened. -/
theorem not_stray {c : Char} (h : ¬(n.isOutside && c == ']') = true) : n.isOutside = true → (c == ']') = false :=
  Bool.and_eq_false_imp.1 (Bool.eq_false_iff.2 h)

/-- **A cut gets through just the texts whose brackets fit**, whatever it cuts at. -/
theorem pieces_isSome_iff (hopen : isMark '[' = false) :
    (pieces isMark n cs).isSome = true ↔ Passes (· == ']') n cs .outside := by
  induction cs generalizing n with
  | nil => by_cases hn : n.isOutside <;> simp [pieces, Passes, hn, ← Nesting.isOutside_iff]
  | cons c cs ih =>
    rw [pieces, Passes]
    by_cases hstray : (n.isOutside && c == ']') = true
    · obtain ⟨hn, hc⟩ := Bool.and_eq_true_iff.1 hstray
      simp [hn, hc]
    · rw [if_neg hstray]
      split
      next hmark =>
        rw [Option.isSome_map, ih, next_mark hopen hmark]
        exact ⟨fun h => ⟨not_stray hstray, h⟩, And.right⟩
      next =>
        rw [Option.isSome_map, ih]
        exact ⟨fun h => ⟨not_stray hstray, h⟩, And.right⟩

/-- Where a cut begins inside brackets, its first piece leads out of them. -/
theorem passes_of_pieces {ps : List (List Char)} (h : pieces isMark n cs = some ps) :
    ∃ p qs, ps = p :: qs ∧ Passes (· == ']') n p .outside ∧ ∀ q ∈ qs, Balanced q := by
  induction cs generalizing n ps with
  | nil =>
    rw [pieces] at h
    split at h
    next hn =>
      obtain rfl := Nesting.isOutside_iff.1 hn
      exact ⟨[], [], (Option.some.inj h).symm, rfl, fun _ hq => absurd hq List.not_mem_nil⟩
    next => exact absurd h (by simp)
  | cons c cs ih =>
    rw [pieces] at h
    split at h
    next => exact absurd h (by simp)
    next hstray =>
      split at h
      next hmark =>
        obtain ⟨rfl, -⟩ := Nesting.outside_of_and hmark
        obtain ⟨qs, hqs, rfl⟩ := Option.map_eq_some_iff.1 h
        obtain ⟨p, rest, rfl, hp, hrest⟩ := ih hqs
        exact ⟨[], p :: rest, rfl, rfl, List.forall_mem_cons.2 ⟨hp, hrest⟩⟩
      next =>
        obtain ⟨qs, hqs, rfl⟩ := Option.map_eq_some_iff.1 h
        obtain ⟨p, rest, rfl, hp, hrest⟩ := ih hqs
        exact ⟨c :: p, rest, rfl, ⟨not_stray hstray, hp⟩, hrest⟩

/-- **The brackets of each piece fit.** -/
theorem balanced_of_mem_pieces {ps : List (List Char)} {p : List Char}
    (h : pieces isMark .outside cs = some ps) (hp : p ∈ ps) : Balanced p := by
  obtain ⟨q, qs, rfl, hq, hqs⟩ := passes_of_pieces h
  rcases List.mem_cons.1 hp with rfl | hp
  · exact hq
  · exact hqs p hp

theorem Passes.trimFront (hn : n.Sound) (h : Passes bad n cs n') : Passes bad n (trimFront cs) n' := by
  induction cs with
  | nil => exact h
  | cons c cs ih =>
    rw [Text.trimFront, List.dropWhile_cons]
    split
    next hc =>
      have hstay : n.next c = n := Nesting.next_blank hn hc
      have hrest : Passes bad n cs n' := hstay ▸ h.2
      exact ih hrest
    next => exact h

theorem Passes.trimBack (hn : n.Sound) (h : Passes bad n cs n') : Passes bad n (trimBack cs) n' := by
  induction cs generalizing n with
  | nil => exact h
  | cons c cs ih =>
    have hcs : Passes bad (n.next c) (Text.trimBack cs) n' := ih (hn.next c) h.2
    rw [Text.trimBack]
    split
    next hnil =>
      have hend : n.next c = n' := by simpa [hnil, Passes] using hcs
      split
      next hc => exact (Nesting.next_blank hn hc).symm.trans hend
      next => exact ⟨h.1, hend⟩
    next => exact ⟨h.1, hcs⟩

/-- **The brackets fit without the blanks at the ends** as they did with them. -/
theorem Balanced.trimList (h : Balanced cs) : Balanced (trimList cs) :=
  (Passes.trimFront Nesting.sound_outside h).trimBack Nesting.sound_outside

/-- **Padding leads to the same place.** -/
theorem Passes.padChild (h : Passes (· == ']') n cs n') : Passes (· == ']') n (padChild n cs) n' := by
  induction cs generalizing n with
  | nil => exact h
  | cons c cs ih =>
    have hrest := ih h.2
    rw [Selector.padChild]
    split
    next hchild =>
      obtain ⟨rfl, hc⟩ := Nesting.outside_of_and hchild
      obtain rfl := beq_iff_eq.1 hc
      exact ⟨fun _ => rfl, fun _ => rfl, fun _ => rfl, hrest⟩
    next => exact ⟨h.1, hrest⟩

/-! ### The loops -/

/-- **A cut on its way**: its place, the pieces that are finished, and the one it is reading. -/
structure Cutting extends Nesting where
  done : List (List Char)
  current : List Char

namespace Cutting

def start : Cutting := ⟨.outside, [], []⟩

/-- Takes in a character. -/
def take (k : Cutting) (c : Char) : Cutting := { k with current := k.current ++ [c] }

/-- Reads a character; a bracket that closes nothing is a failure. -/
def step? (isMark : Char → Bool) (k : Cutting) (c : Char) : Option Cutting :=
  match k.quote with
  | some q => if c = q then some { k.take c with quote := none } else some (k.take c)
  | none =>
    if (c = '"' ∨ c = '\'') ∧ 0 < k.depth then some { k.take c with quote := some c }
    else if c = '[' then some { k.take c with depth := k.depth + 1 }
    else if c = ']' then if k.depth = 0 then none else some { k.take c with depth := k.depth - 1 }
    else if k.depth = 0 ∧ isMark c = true then some { k with done := k.done ++ [k.current], current := [] }
    else some (k.take c)

/-- The pieces at the end of the text; a bracket or a quote that is open is a failure. -/
def pieces? (k : Cutting) : Option (List (List Char)) :=
  if k.depth ≠ 0 ∨ k.quote.isSome then none else some (k.done ++ [k.current])

/-- **What one step of the cut can do**, by the place where it stands. -/
theorem step?_eq (hopen : isMark '[' = false) (k : Cutting) (c : Char) :
    k.step? isMark c =
      if k.isOutside && c == ']' then none
      else if k.isOutside && isMark c then some ⟨k.toNesting, k.done ++ [k.current], []⟩
      else some ⟨k.next c, k.done, k.current ++ [c]⟩ := by
  obtain ⟨⟨depth, quote⟩, done, current⟩ := k
  cases quote with
  | some q => by_cases hc : c = q <;> simp [step?, take, Nesting.isOutside, Nesting.next, hc]
  | none =>
    -- The characters in the order in which the loop asks for them.
    by_cases hq : (c = '"' ∨ c = '\'') ∧ 0 < depth
    · have hdepth : depth ≠ 0 := Nat.ne_of_gt hq.2
      simp [step?, take, Nesting.isOutside, Nesting.next, hq, hdepth]
    by_cases hopened : c = '['
    · subst hopened
      simp [step?, take, Nesting.isOutside, Nesting.next, hopen]
    by_cases hclosed : c = ']'
    · subst hclosed
      by_cases hdepth : depth = 0 <;> simp [step?, take, Nesting.isOutside, Nesting.next, hdepth]
    by_cases hdepth : depth = 0
    · by_cases hmark : isMark c = true <;>
        simp [step?, take, Nesting.isOutside, Nesting.next, hdepth, hmark, hopened, hclosed]
    · simp [step?, take, Nesting.isOutside, Nesting.next, hq, hdepth, hopened, hclosed]

end Cutting

/-- The cut, character by character. -/
def cut? (isMark : Char → Bool) (cs : List Char) : Option (List (List Char)) :=
  (cs.foldlM (Cutting.step? isMark) .start).bind Cutting.pieces?

/-- What a cut on its way comes to. -/
theorem foldlM_step_eq (hopen : isMark '[' = false) (k : Cutting) (cs : List Char) :
    (cs.foldlM (Cutting.step? isMark) k).bind Cutting.pieces? =
      (pieces isMark k.toNesting cs).map fun ps => k.done ++ k.current.foldr inFront ps := by
  induction cs generalizing k with
  | nil =>
    obtain ⟨⟨depth, quote⟩, done, current⟩ := k
    have hone : current.foldr inFront [[]] = [current] := by simpa using foldr_inFront current [] []
    cases quote <;> by_cases hdepth : depth = 0 <;>
      simp [pieces, Nesting.isOutside, Cutting.pieces?, hdepth, hone]
  | cons c cs ih =>
    rw [List.foldlM_cons, Cutting.step?_eq hopen, pieces]
    split
    next => rfl
    next =>
      split
      next =>
        have hparted : ∀ ps, k.done ++ [k.current] ++ ps = k.done ++ k.current.foldr inFront ([] :: ps) := by
          intro ps
          rw [foldr_inFront, List.append_nil, List.append_assoc]
          rfl
        rw [Option.map_map, Option.bind_eq_bind, Option.bind_some, ih]
        exact congrArg (Option.map · _) (funext hparted)
      next =>
        have hlonger : ∀ ps, (k.current ++ [c]).foldr inFront ps = k.current.foldr inFront (inFront c ps) := by
          intro ps
          rw [List.foldr_append]
          rfl
        rw [Option.map_map, Option.bind_eq_bind, Option.bind_some, ih]
        exact congrArg (Option.map · _) (funext fun ps => congrArg (k.done ++ ·) (hlonger ps))

/-- **The loop cuts as the recursion does.** -/
theorem cut_eq_pieces (hopen : isMark '[' = false) (cs : List Char) : cut? isMark cs = pieces isMark .outside cs :=
  (foldlM_step_eq hopen .start cs).trans (congrFun Option.map_id _)

/-- A cut on its way does not fail where the brackets fit. -/
theorem foldlM_step_of_passes (hopen : isMark '[' = false) (k : Cutting)
    (h : Passes (· == ']') k.toNesting cs n') :
    ∃ j, cs.foldlM (Cutting.step? isMark) k = some j ∧ j.toNesting = n' := by
  induction cs generalizing k with
  | nil => exact ⟨k, rfl, h⟩
  | cons c cs ih =>
    have hstray : (k.isOutside && c == ']') = false := Bool.and_eq_false_imp.2 h.1
    rw [List.foldlM_cons, Cutting.step?_eq hopen, hstray, if_neg Bool.false_ne_true]
    split
    next hmark =>
      have hrest := h.2
      rw [next_mark hopen hmark] at hrest
      exact ih ⟨k.toNesting, _, _⟩ hrest
    next => exact ih ⟨k.next c, _, _⟩ h.2

/-- **The padding on its way**: its place, and what it has written. -/
structure Padding extends Nesting where
  padded : List Char

namespace Padding

def start : Padding := ⟨.outside, []⟩

def write (k : Padding) (c : Char) : Padding := { k with padded := k.padded ++ [c] }

/-- Reads a character; a bracket that closes nothing is passed over. -/
def step (k : Padding) (c : Char) : Padding :=
  if (c = '"' ∨ c = '\'') ∧ k.quote = none ∧ 0 < k.depth then { k.write c with quote := some c }
  else if k.quote = some c then { k.write c with quote := none }
  else if c = '[' ∧ k.quote = none then { k.write c with depth := k.depth + 1 }
  else if c = ']' ∧ k.quote = none then { k.write c with depth := k.depth - 1 }
  else if c = '>' ∧ k.quote = none ∧ k.depth = 0 then { k with padded := k.padded ++ [' ', '>', ' '] }
  else k.write c

/-- **What one step of the padding can do**, by the place where it stands. -/
theorem step_eq (k : Padding) (c : Char) :
    k.step c =
      if k.isOutside && c == '>' then ⟨k.toNesting, k.padded ++ [' ', '>', ' ']⟩
      else ⟨k.next c, k.padded ++ [c]⟩ := by
  obtain ⟨⟨depth, quote⟩, padded⟩ := k
  cases quote with
  | some q =>
    by_cases hc : c = q
    · subst hc
      simp [step, write, Nesting.isOutside, Nesting.next]
    · have hqc : q ≠ c := fun h => hc h.symm
      simp [step, write, Nesting.isOutside, Nesting.next, hc, hqc]
  | none =>
    by_cases hq : (c = '"' ∨ c = '\'') ∧ 0 < depth
    · have hdepth : depth ≠ 0 := Nat.ne_of_gt hq.2
      simp [step, write, Nesting.isOutside, Nesting.next, hq, hdepth]
    by_cases hopened : c = '['
    · subst hopened
      simp [step, write, Nesting.isOutside, Nesting.next]
    by_cases hclosed : c = ']'
    · subst hclosed
      simp [step, write, Nesting.isOutside, Nesting.next]
    by_cases hchild : c = '>'
    · subst hchild
      by_cases hdepth : depth = 0 <;> simp [step, write, Nesting.isOutside, Nesting.next, hdepth]
    · simp [step, write, Nesting.isOutside, Nesting.next, hq, hopened, hclosed, hchild]

end Padding

/-- The padding, character by character. -/
def pad (cs : List Char) : List Char := (cs.foldl Padding.step .start).padded

/-- What the padding on its way comes to. -/
theorem foldl_step_eq (k : Padding) (cs : List Char) :
    cs.foldl Padding.step k = ⟨cs.foldl Nesting.next k.toNesting, k.padded ++ padChild k.toNesting cs⟩ := by
  induction cs generalizing k with
  | nil => simp [padChild]
  | cons c cs ih =>
    rw [List.foldl_cons, List.foldl_cons, ih, Padding.step_eq, padChild]
    split
    next h =>
      obtain ⟨hn, hc⟩ := Nesting.outside_of_and h
      have hstay : k.next c = k.toNesting := by
        rw [hn, beq_iff_eq.1 hc]
        rfl
      simp [hstay]
    next => simp

/-- **The loop pads as the recursion does.** -/
theorem pad_eq_padChild (cs : List Char) : pad cs = padChild .outside cs := by
  rw [pad, foldl_step_eq]
  rfl

/-- **The loops stand at the same place** when a front of an alternative is read: the cut at commas, the padding, and
the cut at blanks in what the padding has written. Each of them has counted on its own. -/
structure InStep (front : List Char) : Prop where
  commas : ∃ k, front.foldlM (Cutting.step? (· == ',')) .start = some k ∧
    k.depth = (front.foldl Padding.step .start).depth ∧ k.quote = (front.foldl Padding.step .start).quote
  blanks : ∃ k, (pad front).foldlM (Cutting.step? isSpace) .start = some k ∧
    k.depth = (front.foldl Padding.step .start).depth ∧ k.quote = (front.foldl Padding.step .start).quote

/-- **Where brackets fit the loops stay in step**, at every place. -/
theorem inStep_of_balanced {front : List Char} (h : Balanced cs) (hfront : front <+: cs) : InStep front := by
  obtain ⟨back, rfl⟩ := hfront
  obtain ⟨m, hm, -⟩ := Passes.of_append h
  have hplace : (front.foldl Padding.step .start).toNesting = m := by
    rw [foldl_step_eq, hm.eq_foldl]
    rfl
  constructor
  · have hread : ∃ k, front.foldlM (Cutting.step? (· == ',')) .start = some k ∧ k.toNesting = m :=
      foldlM_step_of_passes (by decide) .start hm
    obtain ⟨k, hk, hkm⟩ := hread
    have hsame := hkm.trans hplace.symm
    exact ⟨k, hk, congrArg Nesting.depth hsame, congrArg Nesting.quote hsame⟩
  · have hread : ∃ k, (pad front).foldlM (Cutting.step? isSpace) .start = some k ∧ k.toNesting = m := by
      rw [pad_eq_padChild]
      exact foldlM_step_of_passes (by decide) .start hm.padChild
    obtain ⟨k, hk, hkm⟩ := hread
    have hsame := hkm.trans hplace.symm
    exact ⟨k, hk, congrArg Nesting.depth hsame, congrArg Nesting.quote hsame⟩

/-! ### Alternatives -/

/-- **The cut at blanks gets through** what padding makes of an alternative. -/
theorem pieces_of_balanced (h : Balanced cs) :
    ∃ ps, pieces isSpace .outside (padChild .outside (trimList cs)) = some ps :=
  Option.isSome_iff_exists.1 ((pieces_isSome_iff (by decide)).2 h.trimList.padChild)

/-- **An alternative writes a chain, or else the whole selector is named.** -/
theorem chainOf_cases (selector : String) (h : Balanced cs) :
    (∃ chain, chainOf selector cs = .ok chain) ∨ chainOf selector cs = .error (.selector selector) := by
  obtain ⟨ps, hps⟩ := pieces_of_balanced h
  unfold chainOf
  dsimp only
  split
  next => exact .inr rfl
  next =>
    rw [hps]
    dsimp only
    cases partsOf? true false (tokensOf ps) with
    | none => exact .inr rfl
    | some chain => exact .inl ⟨chain, rfl⟩

/-- The alternatives are read just if each writes a chain; if not, it does not matter which of them do. -/
theorem chainsOf_cases (selector : String) {groups : List (List Char)} (h : ∀ g ∈ groups, Balanced g) :
    ((∃ chains, chainsOf selector groups = .ok chains) ∧ ∀ g ∈ groups, ∃ chain, chainOf selector g = .ok chain) ∨
      (chainsOf selector groups = .error (.selector selector) ∧
        ∃ g ∈ groups, chainOf selector g = .error (.selector selector)) := by
  induction groups with
  | nil => exact .inl ⟨⟨[], rfl⟩, fun _ hg => absurd hg List.not_mem_nil⟩
  | cons g groups ih =>
    rw [chainsOf]
    rcases chainOf_cases selector (h g List.mem_cons_self) with ⟨chain, hg⟩ | hg
    · rcases ih fun g' hg' => h g' (List.mem_cons_of_mem g hg') with ⟨⟨chains, hgs⟩, hall⟩ | ⟨hgs, g', hg', hbad⟩
      · refine .inl ⟨⟨chain :: chains, ?_⟩, List.forall_mem_cons.2 ⟨⟨chain, hg⟩, hall⟩⟩
        rw [hg, hgs]
        rfl
      · refine .inr ⟨?_, g', List.mem_cons_of_mem g hg', hbad⟩
        rw [hg, hgs]
        rfl
    · refine .inr ⟨?_, g, List.mem_cons_self, hg⟩
      rw [hg]

/-- **A text is read** just if it cuts at its commas into alternatives that all write chains; else it is named. -/
theorem read_cases (s : String) :
    ((∃ chains, read s = .ok chains) ∧ ∃ groups, pieces (· == ',') .outside s.toList = some groups ∧
        ∀ g ∈ groups, ∃ chain, chainOf s g = .ok chain) ∨
      (read s = .error (.selector s) ∧ ∀ groups, pieces (· == ',') .outside s.toList = some groups →
        ∃ g ∈ groups, chainOf s g = .error (.selector s)) := by
  unfold read
  cases hgroups : pieces (· == ',') .outside s.toList with
  | none => exact .inr ⟨rfl, fun _ h => absurd h (by simp)⟩
  | some groups =>
    have hfit : ∀ g ∈ groups, Balanced g := fun g hg => balanced_of_mem_pieces hgroups hg
    rcases chainsOf_cases s hfit with ⟨hread, hall⟩ | ⟨hbad, hsome⟩
    · exact .inl ⟨hread, groups, rfl, hall⟩
    · exact .inr ⟨hbad, fun _ h => (Option.some.inj h) ▸ hsome⟩

theorem query_of_read {s : String} {chains : Selector} (h : read s = .ok chains) (p : Page) :
    ∃ refs, p.query s = .ok refs := by
  unfold Page.query
  rw [h]
  exact ⟨_, rfl⟩

theorem query_of_error {s : String} {e : Error} (h : read s = .error e) (p : Page) : p.query s = .error e := by
  unfold Page.query
  rw [h]

/-- **Scanners agree on brackets and quotes.** When the cut at commas gets through, then for each alternative: the loops
stand at the same place all along, the cut at blanks gets through as well, and padding adds blanks outside brackets
only. So a page answers any text with elements, or with the failure that names just this text; it fails when one
alternative does, on every page and whatever the other alternatives are. -/
theorem selector_scanners_agree (s : String) :
    (∀ groups, pieces (· == ',') .outside s.toList = some groups → ∀ g ∈ groups,
      (∀ front, front <+: trimList g → InStep front) ∧
      (∃ ps, pieces isSpace .outside (padChild .outside (trimList g)) = some ps) ∧
      placed .outside (padChild .outside (trimList g)) = (placed .outside (trimList g)).flatMap spaced) ∧
    (∀ p : Page, (∃ refs, p.query s = .ok refs) ∨ p.query s = .error (.selector s)) ∧
    (∀ p : Page, p.query s = .error (.selector s) ↔
      ∀ groups, pieces (· == ',') .outside s.toList = some groups →
        ∃ g ∈ groups, ∀ chain, chainOf s g ≠ .ok chain) := by
  refine ⟨fun groups hgroups g hg => ?_, fun p => ?_, fun p => ?_⟩
  · have hfit : Balanced g := balanced_of_mem_pieces hgroups hg
    exact ⟨fun front hfront => inStep_of_balanced hfit.trimList hfront, pieces_of_balanced hfit,
      placed_padChild .outside (trimList g)⟩
  · rcases read_cases s with ⟨⟨chains, hread⟩, -⟩ | ⟨herror, -⟩
    · exact .inl (query_of_read hread p)
    · exact .inr (query_of_error herror p)
  · rcases read_cases s with ⟨⟨chains, hread⟩, groups, hgroups, hall⟩ | ⟨herror, hsome⟩
    · obtain ⟨refs, hok⟩ := query_of_read hread p
      refine ⟨fun h => absurd (hok.symm.trans h) (by simp), fun h => ?_⟩
      obtain ⟨g, hg, hnone⟩ := h groups hgroups
      obtain ⟨chain, hchain⟩ := hall g hg
      exact absurd hchain (hnone chain)
    · refine ⟨fun _ groups hgroups => ?_, fun _ => query_of_error herror p⟩
      obtain ⟨g, hg, hbad⟩ := hsome groups hgroups
      exact ⟨g, hg, fun chain hchain => absurd (hbad.symm.trans hchain) (by simp)⟩

/-- Of two alternatives the second one is bad, and the failure names the whole text. -/
example (p : Page) : p.query "a[title='>'], b:hover" = .error (.selector "a[title='>'], b:hover") := by
  rfl

end PageSweep.Selector
