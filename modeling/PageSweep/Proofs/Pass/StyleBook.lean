import Mathlib.Data.List.Induction
import PageSweep.Pass.Effect
import PageSweep.Proofs.Lists
import PageSweep.Proofs.Text.Pieces

/-!
# The two records of styles for the whole page

Of the rules that passes put on a page there are two records: the sweeper has a line for each selector that
a schema named, and the stylesheet has the rules, each under the selector that was read from its text. A
selector that is added twice has one line and two rules, of which a removal takes one, and a selector with
blanks around it has its rule under another name. Apart from that the two records are in step.

* `Rule.ofText?_ruleText`, `keptSelector_idem`: the selector that a rule is kept under.
* `StyleBook.step`: what an operation does to the two records.
* `StyleBook.Backed.carryOut`: a selector that is kept as it is and listed has a rule.
* `StyleBook.InStep.add`, `StyleBook.InStep.remove`: when a selector keeps one rule while it is listed.
* `StyleBook.Tidy.inStep`: a tidy selector does.
-/

namespace PageSweep

open Text

/-! ### The selector of a rule -/

/-- The selector under which a rule for a selector is kept: what stands before the first brace, trimmed. -/
def keptSelector (selector : String) : String :=
  String.ofList (trimList (((cutAt '\x7b' selector.toList).map (·.1)).getD selector.toList))

theorem toList_keptSelector (selector : String) : (keptSelector selector).toList =
    trimList (((cutAt '\x7b' selector.toList).map (·.1)).getD selector.toList) := String.toList_ofList

/-- **What a rule is kept under** is kept as it is. -/
theorem keptSelector_idem (selector : String) :
    keptSelector (keptSelector selector) = keptSelector selector := by
  have hfree : '\x7b' ∉ ((cutAt '\x7b' selector.toList).map (·.1)).getD selector.toList := by
    cases hcut : cutAt '\x7b' selector.toList with
    | none => exact cutAt_eq_none.1 hcut
    | some sides => exact (cutAt_eq_some hcut).2
  have hnone : cutAt '\x7b' (keptSelector selector).toList = none := by
    rw [cutAt_eq_none, toList_keptSelector]
    exact fun hm => hfree ((trimList_sublist _).subset hm)
  rw [keptSelector, hnone, Option.map_none, Option.getD_none, toList_keptSelector, trimList_idem, keptSelector]

/-- The text of a rule goes up to its first brace, which may be one of the selector's own. -/
theorem toList_ruleText (selector : String) (ds : List Declaration) : ∃ front rest : List Char,
    (Scene.ruleText selector ds).toList = front ++ '\x7b' :: (rest ++ ['\x7d']) ∧ '\x7b' ∉ front ∧
      trimList front = (keptSelector selector).toList := by
  have htext : (Scene.ruleText selector ds).toList = selector.toList ++ ([' ', '\x7b', ' '] ++
      ((join " " (ds.map fun d => d.1 ++ ": " ++ d.2 ++ ";")).toList ++ [' ', '\x7d'])) := by
    simp [Scene.ruleText]
  rw [htext, toList_keptSelector]
  generalize (join " " (ds.map fun d => d.1 ++ ": " ++ d.2 ++ ";")).toList = body
  cases hcut : cutAt '\x7b' selector.toList with
  | none =>
    have hfree : '\x7b' ∉ selector.toList ++ [' '] := by simp [cutAt_eq_none.1 hcut]
    exact ⟨selector.toList ++ [' '], ' ' :: (body ++ [' ']), by simp, hfree,
      trimList_concat (by decide) _⟩
  | some sides =>
    obtain ⟨front, after⟩ := sides
    obtain ⟨hsplit, hfree⟩ := cutAt_eq_some hcut
    exact ⟨front, after ++ ([' ', '\x7b', ' '] ++ (body ++ [' '])), by simp [hsplit], hfree, rfl⟩

/-- **The rule that is read from the text of a rule.** -/
theorem Rule.ofText?_ruleText (selector : String) (ds : List Declaration) :
    Rule.ofText? (Scene.ruleText selector ds) =
      if keptSelector selector = "" then none
      else some ⟨keptSelector selector, trim (Scene.ruleText selector ds)⟩ := by
  obtain ⟨front, rest, htext, hfree, hfront⟩ := toList_ruleText selector ds
  have hend : endsWithList ['\x7d'] (trimBack (rest ++ ['\x7d'])) = true := by
    rw [trimBack_append rest (by decide)]
    exact endsWithList_iff.2 ⟨rest, rfl⟩
  have hempty : (keptSelector selector).toList.isEmpty = true ↔ keptSelector selector = "" := by
    rw [List.isEmpty_iff, String.toList_eq_nil_iff]
  unfold Rule.ofText?
  rw [htext, cutAt_append hfree]
  simp only [hfront, hend, Bool.not_true, Bool.or_false, String.ofList_toList, hempty]

/-- What becomes of a stylesheet when the text of a rule is put in at its end. -/
theorem StyleSheet.appendRule_ruleText (sheet : StyleSheet) (selector : String) (ds : List Declaration) :
    sheet.appendRule (Scene.ruleText selector ds) =
      if keptSelector selector = "" then .error (.action ("malformed css rule: " ++ Scene.ruleText selector ds))
      else .ok ⟨sheet.rules ++ [⟨keptSelector selector, trim (Scene.ruleText selector ds)⟩]⟩ := by
  have hrule := Rule.ofText?_ruleText selector ds
  split
  · rename_i hkept
    rw [if_pos hkept] at hrule
    rw [appendRule, insertRule, hrule]
  · rename_i hkept
    rw [if_neg hkept] at hrule
    exact appendRule_eq_ok.2 ⟨_, hrule, rfl⟩

/-! ### The two records -/

/-- **The records of the rules that passes put on a page**: the rules of the stylesheet, and the lines of the
sweeper. -/
structure StyleBook where
  rules : List Rule
  styles : Table String

namespace StyleBook

def empty : StyleBook := ⟨[], .empty⟩

/-- How many rules there are under a selector. -/
def count (b : StyleBook) (selector : String) : Nat := b.rules.countP (·.selectorText == selector)

/-- Whether there is a line for a selector. -/
def lists (b : StyleBook) (selector : String) : Bool := b.styles.contains selector

/-- The rule goes under the selector that is read from its text, the line under the one that was named. -/
def add (b : StyleBook) (selector : String) (ds : List Declaration) : StyleBook :=
  if keptSelector selector = "" then b
  else
    let text := Scene.ruleText selector ds
    ⟨b.rules ++ [⟨keptSelector selector, trim text⟩], b.styles.insert selector text⟩

/-- One rule goes, if there is one, and with it the line. -/
def remove (b : StyleBook) (selector : String) : StyleBook :=
  if b.count selector = 0 then b
  else ⟨b.rules.eraseP (·.selectorText == selector), b.styles.erase selector⟩

/-- The records after an operation. -/
def step (b : StyleBook) : Op → StyleBook
  | .addGlobalStyle selector ds => b.add selector ds
  | .removeGlobalStyle selector => b.remove selector
  | _ => b

/-- The records after a row of operations. -/
def carryOut (b : StyleBook) (ops : List Op) : StyleBook := ops.foldl step b

theorem carryOut_concat (b : StyleBook) (ops : List Op) (op : Op) :
    b.carryOut (ops ++ [op]) = (b.carryOut ops).step op := List.foldl_append

variable {b : StyleBook} {selector : String} {ops : List Op}

theorem lists_empty (selector : String) : empty.lists selector = false := rfl

theorem count_add (b : StyleBook) (target : String) (ds : List Declaration) (selector : String) :
    (b.add target ds).count selector =
      b.count selector + if keptSelector target ≠ "" ∧ keptSelector target = selector then 1 else 0 := by
  unfold add
  by_cases hkept : keptSelector target = ""
  · simp [hkept]
  · simp [hkept, count, List.countP_append, List.countP_singleton]

theorem lists_add (b : StyleBook) (target : String) (ds : List Declaration) (selector : String) :
    (b.add target ds).lists selector = true ↔
      (keptSelector target ≠ "" ∧ target = selector) ∨ b.lists selector = true := by
  unfold add
  by_cases hkept : keptSelector target = ""
  · simp [hkept]
  · simp only [hkept, if_false, lists, Table.contains, Table.get?_insert]
    by_cases htarget : target = selector
    · subst htarget
      simp [hkept]
    · simp [htarget]

theorem count_remove (b : StyleBook) (target selector : String) :
    (b.remove target).count selector = b.count selector - if target = selector then 1 else 0 := by
  unfold remove
  by_cases htarget : target = selector
  · subst htarget
    split
    · omega
    · rw [if_pos rfl]
      exact countP_eraseP _ b.rules
  · have hother : ∀ r : Rule, (r.selectorText == target) = true → (r.selectorText == selector) = false := by
      intro r hr
      rw [beq_iff_eq] at hr
      simpa [hr] using htarget
    rw [if_neg htarget]
    split
    · rfl
    · rw [count, List.countP_eq_length_filter, filter_eraseP_of_disjoint hother, ← List.countP_eq_length_filter]
      rfl

theorem lists_remove (b : StyleBook) (target selector : String) :
    (b.remove target).lists selector = true ↔
      b.lists selector = true ∧ ¬ (target = selector ∧ b.count target ≠ 0) := by
  unfold remove
  by_cases hcount : b.count target = 0
  · simp [hcount]
  · simp only [hcount, if_false, lists, Table.contains, Table.get?_erase]
    by_cases htarget : target = selector
    · subst htarget
      simp [hcount]
    · simp [htarget]

/-! ### How far the records agree -/

/-- **A selector that is kept as it is** and listed has a rule; one that is kept otherwise has none. -/
structure Backed (b : StyleBook) : Prop where
  kept : ∀ selector, b.count selector ≠ 0 → keptSelector selector = selector
  listed : ∀ selector, keptSelector selector = selector → b.lists selector = true → b.count selector ≠ 0

theorem backed_empty : empty.Backed :=
  ⟨fun _ h => absurd rfl h, fun selector _ h => absurd h (by simp [lists_empty])⟩

theorem Backed.step (h : b.Backed) (op : Op) : (b.step op).Backed := by
  cases op with
  | addGlobalStyle target ds =>
    show (b.add target ds).Backed
    refine ⟨fun selector hc => ?_, fun selector hk hl => ?_⟩
    · rw [count_add] at hc
      split at hc
      · rename_i hlands
        exact hlands.2 ▸ keptSelector_idem target
      · exact h.kept selector hc
    · rw [count_add]
      rcases (lists_add b target ds selector).1 hl with ⟨hne, rfl⟩ | hl
      · rw [if_pos ⟨hne, hk⟩]
        omega
      · have := h.listed selector hk hl
        omega
  | removeGlobalStyle target =>
    show (b.remove target).Backed
    refine ⟨fun selector hc => h.kept selector ?_, fun selector hk hl => ?_⟩
    · rw [count_remove] at hc
      omega
    · obtain ⟨hl, hother⟩ := (lists_remove b target selector).1 hl
      have hcount := h.listed selector hk hl
      have htarget : target ≠ selector := fun he => hother ⟨he, he ▸ hcount⟩
      rw [count_remove, if_neg htarget]
      exact hcount
  | _ => exact h

theorem Backed.carryOut (h : b.Backed) (ops : List Op) : (b.carryOut ops).Backed :=
  List.foldlRecOn ops _ h fun _ hb op _ => hb.step op

/-- A selector has one rule while it is listed, and none otherwise. -/
structure InStep (b : StyleBook) (selector : String) : Prop where
  one : b.count selector ≤ 1
  listed : b.count selector ≠ 0 ↔ b.lists selector = true

theorem inStep_empty (selector : String) : empty.InStep selector :=
  ⟨Nat.zero_le 1, iff_of_false (absurd rfl) (by simp [lists_empty])⟩

/-- A rule that is put in for a selector or under it has to be put in both for it and under it, while it is not
listed. -/
theorem InStep.add (h : b.InStep selector) {target : String} (ds : List Declaration)
    (hadd : keptSelector target ≠ "" → target = selector ∨ keptSelector target = selector →
      target = selector ∧ keptSelector target = selector ∧ b.lists selector = false) :
    (b.add target ds).InStep selector := by
  by_cases hlands : keptSelector target ≠ "" ∧ (target = selector ∨ keptSelector target = selector)
  · obtain ⟨htarget, hkept, hfree⟩ := hadd hlands.1 hlands.2
    have hnone : b.count selector = 0 := by
      by_contra hc
      rw [h.listed.1 hc] at hfree
      cases hfree
    have hone : (b.add target ds).count selector = 1 := by
      rw [count_add, if_pos ⟨hlands.1, hkept⟩, hnone]
    refine ⟨hone.le, iff_of_true (by rw [hone]; exact Nat.one_ne_zero) ?_⟩
    exact (lists_add b target ds selector).2 (.inl ⟨hlands.1, htarget⟩)
  · have hkept : ¬ (keptSelector target ≠ "" ∧ keptSelector target = selector) := fun hk =>
      hlands ⟨hk.1, .inr hk.2⟩
    have htarget : ¬ (keptSelector target ≠ "" ∧ target = selector) := fun hk => hlands ⟨hk.1, .inl hk.2⟩
    have hcount : (b.add target ds).count selector = b.count selector := by
      rw [count_add, if_neg hkept, Nat.add_zero]
    refine ⟨hcount.trans_le h.one, ?_⟩
    rw [hcount, lists_add, or_iff_right htarget]
    exact h.listed

theorem InStep.remove (h : b.InStep selector) (target : String) : (b.remove target).InStep selector := by
  by_cases htarget : target = selector
  · subst htarget
    have hnone : (b.remove target).count target = 0 := by
      have := h.one
      rw [count_remove, if_pos rfl]
      omega
    refine ⟨by omega, iff_of_false (absurd hnone) fun hl => ?_⟩
    obtain ⟨hl, hkeeps⟩ := (lists_remove b target target).1 hl
    exact hkeeps ⟨rfl, h.listed.2 hl⟩
  · have hcount : (b.remove target).count selector = b.count selector := by
      rw [count_remove, if_neg htarget, Nat.sub_zero]
    refine ⟨hcount.trans_le h.one, ?_⟩
    rw [hcount, lists_remove, and_iff_left fun hk => htarget hk.1]
    exact h.listed

/-- **A selector is tidy in a row of operations** if each rule that was put in for it or under it was put in
both for it and under it, at a time when it was not listed. -/
def Tidy (selector : String) (ops : List Op) : Prop :=
  ∀ front target ds back, ops = front ++ .addGlobalStyle target ds :: back → keptSelector target ≠ "" →
    target = selector ∨ keptSelector target = selector →
      target = selector ∧ keptSelector target = selector ∧ (empty.carryOut front).lists selector = false

/-- **A tidy selector is in step**, after each operation of the row. -/
theorem Tidy.inStep (h : Tidy selector ops) : (empty.carryOut ops).InStep selector := by
  induction ops using List.reverseRecOn with
  | nil => exact inStep_empty selector
  | append_singleton ops op ih =>
    have hbefore := ih fun front target ds back hops => h front target ds (back ++ [op]) (by simp [hops])
    rw [carryOut_concat]
    cases op with
    | addGlobalStyle target ds => exact hbefore.add ds (h ops target ds [] rfl)
    | removeGlobalStyle target => exact hbefore.remove target
    | _ => exact hbefore

end StyleBook

end PageSweep
