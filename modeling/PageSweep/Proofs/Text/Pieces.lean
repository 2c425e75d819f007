import Mathlib.Data.List.TakeWhile
import Mathlib.Tactic.Common
import PageSweep.Text.Pieces

/-!
# Laws of texts

* `toNat_toLower`: lower case in numbers; it keeps blanks and dots apart from letters.
* `trimFront_append`, `trimBack_append`: trimming stops at what is not blank.
* `trimList_concat`: a blank at the end of a text.
* `startsWith_iff`, `endsWith_iff`, `holds_iff`: what a text begins with, ends with and holds.
* `takeWhile_append_of_stop`: the longest front of a kind.
* `splitAny_append`: cutting at a mark cuts both sides on their own.
* `splitAt_joinList`, `joinList_splitAt`: cutting and joining undo each other.
* `words_join`: words put together with blanks are the words again.
-/

namespace PageSweep.Text

/-! ### Lower case -/

/-- Lower case adds to capital letters what lies between them and small ones. -/
theorem toNat_toLower (c : Char) :
    c.toLower.toNat = if 65 ≤ c.toNat ∧ c.toNat ≤ 90 then c.toNat + 32 else c.toNat := by
  have hA : ('A'.val ≤ c.val ∧ c.val ≤ 'Z'.val) ↔ 65 ≤ c.toNat ∧ c.toNat ≤ 90 := by
    rw [UInt32.le_iff_toNat_le, UInt32.le_iff_toNat_le]
    exact Iff.rfl
  unfold Char.toLower
  split
  · rename_i h
    rw [if_pos (hA.1 h)]
    have h' := hA.1 h
    show (c.val + ('a'.val - 'A'.val)).toNat = _
    rw [UInt32.toNat_add]
    show (c.toNat + 32) % 2 ^ 32 = _
    omega
  · rename_i h
    rw [if_neg fun h' => h (hA.2 h')]

theorem toLower_toLower (c : Char) : c.toLower.toLower = c.toLower := by
  apply Char.toNat_inj.1
  have h := toNat_toLower c
  rw [toNat_toLower c.toLower]
  split at h <;> split <;> omega

theorem isBlank_toLower (c : Char) : isBlank c.toLower = isBlank c := by
  have h := toNat_toLower c
  rw [Bool.eq_iff_iff]
  simp only [isBlank, Bool.or_eq_true, Bool.and_eq_true, decide_eq_true_eq, beq_iff_eq]
  split at h <;> omega

/-- No letter is a dot in lower case. -/
theorem toLower_eq_dot {c : Char} (h : c.toLower = '.') : c = '.' := by
  have hn := toNat_toLower c
  rw [h] at hn
  apply Char.toNat_inj.1
  have hdot : '.'.toNat = 46 := rfl
  split at hn <;> omega

theorem lowerList_idem (cs : List Char) : lowerList (lowerList cs) = lowerList cs := by
  rw [lowerList, lowerList, List.map_map]
  exact List.map_congr_left fun c _ => toLower_toLower c

theorem lower_lower (s : String) : lower (lower s) = lower s := by
  simp [lower, lowerList_idem]

/-- That a text has no blanks, by evaluation. -/
theorem isBlank_of_all {s : String} (h : s.toList.all (fun c => !isBlank c) = true) :
    ∀ c ∈ s.toList, isBlank c = false :=
  fun c hc => by simpa using List.all_eq_true.1 h c hc

/-- A text is as free of blanks in lower case as it was. -/
theorem isBlank_lower {s : String} (h : ∀ c ∈ s.toList, isBlank c = false) :
    ∀ c ∈ (lower s).toList, isBlank c = false := by
  intro c hc
  rw [lower, String.toList_ofList, lowerList] at hc
  obtain ⟨d, hd, rfl⟩ := List.mem_map.1 hc
  rw [isBlank_toLower]
  exact h d hd

/-! ### Ends of a text -/

theorem isEmpty_ofList (cs : List Char) : (String.ofList cs).isEmpty = cs.isEmpty := by
  cases cs with
  | nil => rfl
  | cons c cs => simp

theorem startsWithList_iff {start cs : List Char} : startsWithList start cs = true ↔ start <+: cs := by
  rw [startsWithList, Option.isSome_iff_exists]
  exact exists_congr fun r => after?_eq_some_iff.trans eq_comm

theorem startsWith_iff {start s : String} : startsWith start s = true ↔ start.toList <+: s.toList :=
  startsWithList_iff

theorem endsWithList_iff {tail cs : List Char} : endsWithList tail cs = true ↔ ∃ r, cs = r ++ tail := by
  rw [endsWithList, startsWithList, Option.isSome_iff_exists]
  constructor
  · rintro ⟨r, h⟩
    refine ⟨r.reverse, ?_⟩
    rw [← List.reverse_inj, after?_eq_some_iff.1 h, List.reverse_append, List.reverse_reverse]
  · rintro ⟨r, rfl⟩
    exact ⟨r.reverse, after?_eq_some_iff.2 (List.reverse_append ..)⟩

theorem endsWith_iff {tail s : String} : endsWith tail s = true ↔ ∃ front, s = front ++ tail := by
  rw [endsWith, endsWithList_iff]
  constructor
  · rintro ⟨front, hfront⟩
    exact ⟨String.ofList front, by rw [← String.toList_inj, String.toList_append, String.toList_ofList, hfront]⟩
  · rintro ⟨front, rfl⟩
    exact ⟨front.toList, String.toList_append⟩

theorem after?_toList_iff {start s : String} {rest : List Char} :
    after? start.toList s.toList = some rest ↔ s = start ++ String.ofList rest := by
  rw [after?_eq_some_iff, ← String.toList_inj, String.toList_append, String.toList_ofList]

/-- Trimming at the front stops at what is not blank. -/
theorem trimFront_append {xs : List Char} (h : trimFront xs ≠ []) (ys : List Char) :
    trimFront (xs ++ ys) = trimFront xs ++ ys := by
  induction xs with
  | nil => exact absurd rfl h
  | cons c cs ih =>
    unfold trimFront at *
    by_cases hc : isBlank c
    · simp only [List.cons_append, List.dropWhile_cons, hc, if_true] at h ⊢
      exact ih h
    · simp [hc]

theorem trimFront_blank (cs : List Char) : trimFront (' ' :: cs) = trimFront cs := by
  rw [trimFront, List.dropWhile_cons_of_pos (by decide)]
  rfl

theorem trimFront_append_of_solid {xs : List Char} (hne : xs ≠ []) (hxs : ∀ c ∈ xs, isBlank c = false)
    (ys : List Char) : trimFront (xs ++ ys) = xs ++ ys := by
  cases xs with
  | nil => exact absurd rfl hne
  | cons c cs => exact trimFront_eq_self fun d hd => Option.mem_some_iff.1 hd ▸ hxs c List.mem_cons_self

/-- Trimming at the end goes as far as what is not blank. -/
theorem trimBack_append (xs : List Char) {ys : List Char} (h : trimBack ys ≠ []) :
    trimBack (xs ++ ys) = xs ++ trimBack ys := by
  induction xs with
  | nil => rfl
  | cons c cs ih =>
    rw [List.cons_append, trimBack, ih]
    split
    · rename_i hnil; exact absurd (List.append_eq_nil_iff.1 hnil).2 h
    · rfl

theorem trimBack_eq_self {cs : List Char} (h : ∀ c ∈ cs, isBlank c = false) : trimBack cs = cs := by
  induction cs with
  | nil => rfl
  | cons c cs ih =>
    rw [trimBack_cons_of_not_blank (h c List.mem_cons_self),
      ih fun d hd => h d (List.mem_cons_of_mem _ hd)]

theorem trimList_eq_self {cs : List Char} (h : ∀ c ∈ cs, isBlank c = false) : trimList cs = cs := by
  rw [trimList, trimFront_eq_self fun c hc => h c (List.mem_of_mem_head? hc), trimBack_eq_self h]

/-- Trimming leaves a front without blanks as it is. -/
theorem trimList_append_of_solid {xs : List Char} (hne : xs ≠ []) (hxs : ∀ c ∈ xs, isBlank c = false)
    (ys : List Char) : trimList (xs ++ ys) = xs ++ trimBack ys := by
  rw [trimList, trimFront_append_of_solid hne hxs]
  clear hne
  induction xs with
  | nil => rfl
  | cons c cs ih =>
    rw [List.cons_append, trimBack_cons_of_not_blank (hxs c List.mem_cons_self),
      ih fun d hd => hxs d (List.mem_cons_of_mem _ hd), List.cons_append]

theorem trim_trim (s : String) : trim (trim s) = trim s := by
  rw [trim, trim, String.toList_ofList, trimList_idem]

theorem trimList_of_trim {s : String} (h : trim s = s) : trimList s.toList = s.toList := by
  have htext := congrArg String.toList h
  rwa [trim, String.toList_ofList] at htext

/-- Trimming at the back leaves the front as it is. -/
theorem trimBack_isPrefix (cs : List Char) : trimBack cs <+: cs := by
  induction cs with
  | nil => exact List.prefix_refl _
  | cons c cs ih =>
    rw [trimBack]
    split
    · split
      · exact List.nil_prefix
      · exact ⟨cs, rfl⟩
    · exact (List.prefix_cons_inj c).2 ih

theorem trimList_sublist (cs : List Char) : (trimList cs).Sublist cs :=
  (trimBack_isPrefix _).sublist.trans (List.dropWhile_sublist _)

/-- A blank at the end makes no difference to trimming. -/
theorem trimList_concat {c : Char} (hc : isBlank c = true) (cs : List Char) :
    trimList (cs ++ [c]) = trimList cs := by
  have hback : ∀ ds : List Char, trimBack (ds ++ [c]) = trimBack ds := by
    intro ds
    induction ds with
    | nil => simp [trimBack, hc]
    | cons d ds ih => rw [List.cons_append, trimBack, trimBack, ih]
  by_cases hcs : trimFront cs = []
  · have hall : ∀ d ∈ cs ++ [c], isBlank d = true := by
      intro d hd
      rcases List.mem_append.1 hd with hd | hd
      · exact List.dropWhile_eq_nil_iff.1 hcs d hd
      · exact List.mem_singleton.1 hd ▸ hc
    have hnil : trimFront (cs ++ [c]) = [] := List.dropWhile_eq_nil_iff.2 hall
    rw [trimList, trimList, hcs, hnil]
  · rw [trimList, trimList, trimFront_append hcs, hback]

/-! ### Parts of a text -/

theorem holdsList_iff {part cs : List Char} : holdsList part cs = true ↔ part <:+: cs := by
  induction cs with
  | nil => simp [holdsList]
  | cons c cs ih =>
    rw [holdsList, Bool.or_eq_true, startsWithList_iff, ih, List.infix_cons_iff]

theorem holds_iff {part s : String} : holds part s = true ↔ part.toList <:+: s.toList := holdsList_iff

variable {p : Char → Bool} {xs ys : List Char}

/-- **The longest front of a kind** ends where another kind begins. -/
theorem takeWhile_append_of_stop (hxs : ∀ c ∈ xs, p c = true) (hys : ∀ c ∈ ys.head?, p c = false) :
    (xs ++ ys).takeWhile p = xs := by
  rw [List.takeWhile_append_of_pos hxs]
  cases ys with
  | nil => rw [List.takeWhile_nil, List.append_nil]
  | cons c cs => rw [List.takeWhile_cons_of_neg (by simp [hys c rfl]), List.append_nil]

theorem dropWhile_append_of_stop (hxs : ∀ c ∈ xs, p c = true) (hys : ∀ c ∈ ys.head?, p c = false) :
    (xs ++ ys).dropWhile p = ys := by
  rw [List.dropWhile_append_of_pos hxs]
  cases ys with
  | nil => rfl
  | cons c cs => rw [List.dropWhile_cons_of_neg (by simp [hys c rfl])]

theorem head_dropWhile (p : Char → Bool) (cs : List Char) : ∀ c ∈ (cs.dropWhile p).head?, p c = false := by
  intro c hc
  have hhead := List.head?_dropWhile_not p cs
  rw [hc] at hhead
  simpa using hhead

/-! ### Cutting -/

theorem cutAt_eq_none {mark : Char} {cs : List Char} : cutAt mark cs = none ↔ mark ∉ cs := by
  induction cs with
  | nil => simp [cutAt]
  | cons c cs ih =>
    rw [cutAt]
    split
    · rename_i hc
      simp [hc]
    · rename_i hc
      rw [Option.map_eq_none_iff, ih]
      simp [Ne.symm hc]

theorem cutAt_append {mark : Char} {xs : List Char} (h : mark ∉ xs) (ys : List Char) :
    cutAt mark (xs ++ mark :: ys) = some (xs, ys) := by
  induction xs with
  | nil => simp [cutAt]
  | cons c cs ih =>
    have hc : c ≠ mark := fun hc => h (hc ▸ List.mem_cons_self)
    rw [List.cons_append, cutAt, if_neg hc, ih fun hm => h (List.mem_cons_of_mem _ hm)]
    rfl

theorem takeWhile_ne_eq_self {mark : Char} {cs : List Char} (h : mark ∉ cs) : cs.takeWhile (· ≠ mark) = cs :=
  List.takeWhile_eq_self_iff.2 fun c hc => by simpa using fun he : c = mark => h (he ▸ hc)

theorem takeWhile_ne_append {mark : Char} {xs : List Char} (h : mark ∉ xs) (ys : List Char) :
    (xs ++ mark :: ys).takeWhile (· ≠ mark) = xs := by
  rw [List.takeWhile_append_of_pos fun c hc => by simpa using fun he : c = mark => h (he ▸ hc)]
  simp

theorem splitAny_ne_nil (p : Char → Bool) (cs : List Char) : splitAny p cs ≠ [] := by
  cases cs with
  | nil => simp [splitAny]
  | cons c cs =>
    rw [splitAny]
    split
    · simp
    · split <;> simp

/-- **Cutting at a mark cuts both sides on their own.** -/
theorem splitAny_append {p : Char → Bool} {m : Char} (hm : p m = true) (xs ys : List Char) :
    splitAny p (xs ++ m :: ys) = splitAny p xs ++ splitAny p ys := by
  induction xs with
  | nil => simp [splitAny, hm]
  | cons c cs ih =>
    rw [List.cons_append, splitAny, splitAny, ih]
    split
    · rfl
    · cases h : splitAny p cs with
      | nil => exact absurd h (splitAny_ne_nil p cs)
      | cons w ws => rfl

theorem splitAny_eq_self {p : Char → Bool} {cs : List Char} (h : ∀ c ∈ cs, p c = false) :
    splitAny p cs = [cs] := by
  induction cs with
  | nil => rfl
  | cons c cs ih =>
    rw [splitAny, if_neg (by simp [h c List.mem_cons_self]),
      ih fun d hd => h d (List.mem_cons_of_mem _ hd)]

theorem mem_splitAny {p : Char → Bool} {cs w : List Char} (hw : w ∈ splitAny p cs) :
    ∀ c ∈ w, p c = false := by
  induction cs generalizing w with
  | nil =>
    rw [splitAny, List.mem_singleton] at hw
    simp [hw]
  | cons c cs ih =>
    rw [splitAny] at hw
    split at hw
    · rcases List.mem_cons.1 hw with rfl | hw
      · simp
      · exact ih hw
    · rename_i hc
      split at hw
      · rw [List.mem_singleton] at hw
        subst hw
        simpa using hc
      · rename_i v vs hvs
        rcases List.mem_cons.1 hw with rfl | hw
        · intro d hd
          rcases List.mem_cons.1 hd with rfl | hd
          · simpa using hc
          · exact ih (hvs ▸ List.mem_cons_self) d hd
        · exact ih (hvs ▸ List.mem_cons_of_mem _ hw)

theorem splitAt_eq_self {mark : Char} {cs : List Char} (h : mark ∉ cs) : splitAt mark cs = [cs] :=
  splitAny_eq_self fun c hc => by simpa using fun he : c = mark => h (he ▸ hc)

theorem splitAt_append (mark : Char) (xs ys : List Char) :
    splitAt mark (xs ++ mark :: ys) = splitAt mark xs ++ splitAt mark ys :=
  splitAny_append (p := (· == mark)) (beq_self_eq_true mark) xs ys

/-- **Pieces that were joined are cut apart again**, each with what the separator has behind the mark in front. -/
theorem splitAt_joinList {mark : Char} {gap : List Char} (hgap : mark ∉ gap) {p : List Char}
    {ps : List (List Char)} (hps : ∀ q ∈ p :: ps, mark ∉ q) :
    splitAt mark (joinList (mark :: gap) (p :: ps)) = p :: ps.map (gap ++ ·) := by
  induction ps generalizing p with
  | nil => exact splitAt_eq_self (hps p List.mem_cons_self)
  | cons q ps ih =>
    have hq : mark ∉ gap ++ q := fun hm => (List.mem_append.1 hm).elim hgap (hps q (by simp))
    have hjoin : joinList (mark :: gap) (p :: q :: ps) =
        p ++ mark :: joinList (mark :: gap) ((gap ++ q) :: ps) := by
      cases ps <;> simp [joinList]
    rw [hjoin, splitAt_append, splitAt_eq_self (hps p List.mem_cons_self), ih]
    · rfl
    · intro r hr
      rcases List.mem_cons.1 hr with rfl | hr
      · exact hq
      · exact hps r (by simp [hr])

theorem prefix_joinList (sep p : List Char) (ps : List (List Char)) : p <+: joinList sep (p :: ps) := by
  cases ps with
  | nil => exact List.prefix_refl _
  | cons q qs =>
    show p <+: p ++ sep ++ joinList sep (q :: qs)
    rw [List.append_assoc]
    exact List.prefix_append _ _

theorem joinList_append (sep : List Char) {ps qs : List (List Char)} (hps : ps ≠ []) (hqs : qs ≠ []) :
    joinList sep (ps ++ qs) = joinList sep ps ++ sep ++ joinList sep qs := by
  induction ps with
  | nil => exact absurd rfl hps
  | cons p ps ih =>
    cases ps with
    | nil =>
      obtain ⟨q, qs, rfl⟩ := List.exists_cons_of_ne_nil hqs
      rfl
    | cons p' ps =>
      show p ++ sep ++ joinList sep (p' :: ps ++ qs) = p ++ sep ++ joinList sep (p' :: ps) ++ sep ++ joinList sep qs
      rw [ih (List.cons_ne_nil p' ps)]
      simp only [List.append_assoc]

/-- **The pieces of a text, joined with the mark, are the text.** -/
theorem joinList_splitAt (mark : Char) (cs : List Char) : joinList [mark] (splitAt mark cs) = cs := by
  have hcons : ∀ (c : Char) (w : List Char) (ws : List (List Char)),
      joinList [mark] ((c :: w) :: ws) = c :: joinList [mark] (w :: ws) := by
    intro c w ws
    cases ws <;> rfl
  induction cs with
  | nil => rfl
  | cons c cs ih =>
    rw [splitAt] at ih ⊢
    rw [splitAny]
    cases h : splitAny (· == mark) cs with
    | nil => exact absurd h (splitAny_ne_nil _ _)
    | cons w ws =>
      rw [h] at ih
      split
      · rename_i hc
        rw [show joinList [mark] ([] :: w :: ws) = mark :: joinList [mark] (w :: ws) from rfl, ih,
          beq_iff_eq.1 hc]
      · rw [hcons, ih]

/-! ### Words -/

/-- A word of a class list: not empty, and without spaces. -/
def IsWord (w : List Char) : Prop := w ≠ [] ∧ ∀ c ∈ w, isSpace c = false

theorem isWord_of_mem {cs w : List Char} (h : w ∈ wordsList cs) : IsWord w := by
  rw [wordsList, List.mem_filter] at h
  exact ⟨by simpa using h.2, mem_splitAny h.1⟩

theorem wordsList_join {ws : List (List Char)} (h : ∀ w ∈ ws, IsWord w) :
    wordsList (joinList [' '] ws) = ws := by
  induction ws with
  | nil => rfl
  | cons w ws ih =>
    obtain ⟨hne, hw⟩ := h w List.mem_cons_self
    have hsplit : (splitAny isSpace w).filter (!·.isEmpty) = [w] := by
      rw [splitAny_eq_self hw]
      simpa using hne
    have hrest := ih fun v hv => h v (List.mem_cons_of_mem _ hv)
    cases ws with
    | nil => exact hsplit
    | cons v vs =>
      show wordsList (w ++ [' '] ++ joinList [' '] (v :: vs)) = _
      rw [List.append_assoc, List.singleton_append, wordsList, splitAny_append (by decide),
        List.filter_append, hsplit]
      rw [wordsList] at hrest
      rw [hrest]
      rfl

/-- **Words put together with blanks are the words again.** -/
theorem words_join {ws : List String} (h : ∀ w ∈ ws, IsWord w.toList) : words (join " " ws) = ws := by
  have hws : ∀ w ∈ ws.map String.toList, IsWord w := by
    intro w hw
    obtain ⟨v, hv, rfl⟩ := List.mem_map.1 hw
    exact h v hv
  rw [words, join, String.toList_ofList]
  show (wordsList (joinList [' '] (ws.map String.toList))).map String.ofList = ws
  rw [wordsList_join hws, List.map_map]
  simp

theorem isWord_of_mem_words {s w : String} (h : w ∈ words s) : IsWord w.toList := by
  obtain ⟨v, hv, rfl⟩ := List.mem_map.1 h
  rw [String.toList_ofList]
  exact isWord_of_mem hv

end PageSweep.Text
