import PageSweep.Proofs.Pass.GlobalStyles

/-!
# Rules as queues

The rules that passes put on a page stand in one list, and a removal takes the first rule of its selector out of it.
If rules are kept under their selectors as they are, that makes a queue of each selector: however additions and
removals follow each other, and whether there was a head for them or not, what is left of a selector are the rules
that were put in for it, in their order, without as many at the front as were taken out.

* `IsPlainSelector.add`: the selectors that rules are kept under as they are, with the text of the rule.
* `withoutFirsts_concat`, `withoutFirsts_succ`: one rule more, and one rule less.
* `filter_withoutFirsts`: what is left of one selector.
* `Queues.apply`, `RuleStep.queues`: what an operation and a row of operations keep.
* `rules_queue_by_selector`: which rules there are, which operations end well, and what they leave alone.
-/

namespace PageSweep

open Text

/-! ### Plain selectors -/

/-- **Selectors that rules are kept under as they are**: not empty, with no blanks around them, without a brace. -/
structure IsPlainSelector (selector : String) : Prop where
  ne_empty : selector ≠ ""
  trimmed : trim selector = selector
  noBrace : '\x7b' ∉ selector.toList

namespace IsPlainSelector

variable {selector : String}

theorem keptSelector_eq (h : IsPlainSelector selector) : keptSelector selector = selector := by
  rw [keptSelector, cutAt_eq_none.2 h.noBrace, Option.map_none, Option.getD_none, trimList_of_trim h.trimmed,
    String.ofList_toList]

/-- The text of a rule begins with its selector and ends with a brace, so there is nothing to trim. -/
theorem trim_ruleText (h : IsPlainSelector selector) (ds : List Declaration) :
    trim (Scene.ruleText selector ds) = Scene.ruleText selector ds := by
  obtain ⟨body, hbody⟩ : ∃ body, (Scene.ruleText selector ds).toList = selector.toList ++ (body ++ ['\x7d']) := by
    refine ⟨[' ', '\x7b', ' '] ++ ((join " " (ds.map fun d => d.1 ++ ": " ++ d.2 ++ ";")).toList ++ [' ']), ?_⟩
    simp [Scene.ruleText]
  have hne : selector.toList ≠ [] := fun hnil => h.ne_empty (String.toList_eq_nil_iff.1 hnil)
  have hhead : ∀ c ∈ selector.toList.head?, isBlank c = false := by
    rw [← trimList_of_trim h.trimmed]
    exact head_trimBack _ (head_trimFront _)
  have hfront : trimFront (selector.toList ++ (body ++ ['\x7d'])) = selector.toList ++ (body ++ ['\x7d']) := by
    apply trimFront_eq_self
    rwa [List.head?_append_of_ne_nil _ hne]
  have hback : trimBack (selector.toList ++ body ++ ['\x7d']) = selector.toList ++ body ++ ['\x7d'] :=
    trimBack_append _ (by decide)
  rw [trim, hbody, trimList, hfront, ← List.append_assoc, hback, List.append_assoc, ← hbody, String.ofList_toList]

/-- **What an addition does to the records.** -/
theorem add (h : IsPlainSelector selector) (b : StyleBook) (ds : List Declaration) : b.add selector ds =
    ⟨b.rules ++ [⟨selector, Scene.ruleText selector ds⟩], b.styles.insert selector (Scene.ruleText selector ds)⟩ := by
  unfold StyleBook.add
  simp only [h.keptSelector_eq, if_neg h.ne_empty, h.trim_ruleText]

/-- An operation on a rule leaves the rules of all other selectors in their places. -/
theorem filter_step_ne (h : IsPlainSelector selector) {op : Op} (hop : op.ruleSelector? = some selector)
    (b : StyleBook) : (b.step op).rules.filter (·.selectorText != selector) =
      b.rules.filter (·.selectorText != selector) := by
  cases op with
  | addGlobalStyle target ds =>
    obtain rfl : target = selector := Option.some.inj hop
    show (b.add target ds).rules.filter (·.selectorText != target) = _
    rw [h.add]
    simp
  | removeGlobalStyle target =>
    obtain rfl : target = selector := Option.some.inj hop
    show (b.remove target).rules.filter (·.selectorText != target) = _
    rw [StyleBook.remove]
    split
    · rfl
    · exact filter_eraseP_of_disjoint (fun r hr => by simpa using hr) b.rules
  | _ => cases hop

end IsPlainSelector

/-! ### What is left of rules -/

/-- **Rules without the first ones of each selector**, as many as are gone of it. -/
def withoutFirsts (gone : String → Nat) : List Rule → List Rule
  | [] => []
  | r :: rs =>
    if gone r.selectorText = 0 then r :: withoutFirsts gone rs
    else withoutFirsts (fun selector => gone selector - if r.selectorText = selector then 1 else 0) rs

/-- **One rule more** is left if no more are gone than there were before it. -/
theorem withoutFirsts_concat (gone : String → Nat) (rs : List Rule) (r : Rule) :
    withoutFirsts gone (rs ++ [r]) = withoutFirsts gone rs ++
      if gone r.selectorText ≤ rs.countP (·.selectorText == r.selectorText) then [r] else [] := by
  induction rs generalizing gone with
  | nil => simp only [List.nil_append, withoutFirsts, List.countP_nil, Nat.le_zero]
  | cons a rs ih =>
    have hcount : (a :: rs).countP (·.selectorText == r.selectorText) =
        rs.countP (·.selectorText == r.selectorText) + if a.selectorText = r.selectorText then 1 else 0 := by
      simp only [List.countP_cons, beq_iff_eq]
    rw [List.cons_append, withoutFirsts, withoutFirsts, hcount]
    by_cases ha : gone a.selectorText = 0
    · -- If none is gone, it is no matter whether there was one before.
      have hsame : gone r.selectorText ≤ rs.countP (·.selectorText == r.selectorText) ↔
          gone r.selectorText ≤ rs.countP (·.selectorText == r.selectorText) +
            if a.selectorText = r.selectorText then 1 else 0 := by
        split
        · rename_i har
          rw [← har, ha]
          exact iff_of_true (Nat.zero_le _) (Nat.zero_le _)
        · rfl
      simp only [if_pos ha, ih, hsame, List.cons_append]
    · -- Otherwise the first rule is one that is gone, and one that was there before.
      simp only [if_neg ha, ih, Nat.sub_le_iff_le_add]

/-- **One rule less**: the first one of the selector that is still there. -/
theorem withoutFirsts_succ (gone : String → Nat) (selector : String) (rs : List Rule) :
    withoutFirsts (fun other => gone other + if selector = other then 1 else 0) rs =
      (withoutFirsts gone rs).eraseP (·.selectorText == selector) := by
  induction rs generalizing gone with
  | nil => rfl
  | cons a rs ih =>
    rw [withoutFirsts, withoutFirsts]
    by_cases ha : gone a.selectorText = 0
    · rw [if_pos ha]
      by_cases has : selector = a.selectorText
      · -- It is this rule that goes, and the others stay as they were.
        have hback : (fun other => (gone other + if selector = other then 1 else 0) -
            if a.selectorText = other then 1 else 0) = gone := by
          funext other
          rw [has, Nat.add_sub_cancel]
        have hsame : (a.selectorText == selector) = true := beq_iff_eq.2 has.symm
        rw [if_pos has, if_neg (Nat.succ_ne_zero _), hback, List.eraseP_cons, hsame, cond_true]
      · have hother : (a.selectorText == selector) = false := beq_false_of_ne (Ne.symm has)
        rw [if_neg has, Nat.add_zero, if_pos ha, ih, List.eraseP_cons, hother, cond_false]
    · have hmore : ¬ (gone a.selectorText + if selector = a.selectorText then 1 else 0) = 0 := by omega
      have hswap : (fun other => (gone other + if selector = other then 1 else 0) -
          if a.selectorText = other then 1 else 0) =
          fun other => (gone other - if a.selectorText = other then 1 else 0) + if selector = other then 1 else 0 := by
        funext other
        by_cases hother : a.selectorText = other
        · subst hother
          rw [if_pos rfl]
          omega
        · rw [if_neg hother, Nat.sub_zero, Nat.sub_zero]
      rw [if_neg hmore, if_neg ha, hswap, ih]

/-- **What is left of one selector** are its rules without the first ones. -/
theorem filter_withoutFirsts (gone : String → Nat) (selector : String) (rs : List Rule) :
    (withoutFirsts gone rs).filter (·.selectorText == selector) =
      (rs.filter (·.selectorText == selector)).drop (gone selector) := by
  induction rs generalizing gone with
  | nil => rw [withoutFirsts, List.filter_nil, List.drop_nil]
  | cons a rs ih =>
    rw [withoutFirsts]
    by_cases has : a.selectorText = selector
    · have hsame : (a.selectorText == selector) = true := beq_iff_eq.2 has
      rw [List.filter_cons, if_pos hsame, has]
      cases hgone : gone selector with
      | zero => rw [if_pos rfl, List.filter_cons, if_pos hsame, ih, hgone, List.drop_zero, List.drop_zero]
      | succ n => rw [if_neg (Nat.succ_ne_zero n), ih, if_pos rfl, hgone, Nat.add_sub_cancel, List.drop_succ_cons]
    · have hother : ¬ (a.selectorText == selector) = true := by simpa using has
      rw [List.filter_cons, if_neg hother]
      split
      · rw [List.filter_cons, if_neg hother, ih]
      · rw [ih, if_neg has, Nat.sub_zero]

/-! ### Operations that ended well -/

namespace Op

/-- The rule that an operation puts in, under the selector that was named. -/
def rule? : Op → Option Rule
  | .addGlobalStyle selector ds => some ⟨selector, Scene.ruleText selector ds⟩
  | _ => none

/-- The rules that operations put in. -/
def added (ops : List Op) : List Rule := ops.filterMap rule?

/-- How many rules operations took out for a selector. -/
def removals (ops : List Op) (selector : String) : Nat := ops.count (.removeGlobalStyle selector)

theorem rule?_of_no_rule {op : Op} (hop : op.ruleSelector? = none) : op.rule? = none := by
  cases op with
  | addGlobalStyle selector ds => cases hop
  | _ => rfl

theorem added_concat (ops : List Op) (op : Op) : added (ops ++ [op]) = added ops ++ op.rule?.toList := by
  rw [added, List.filterMap_append, added]
  cases hrule : op.rule? with
  | none => rw [List.filterMap_cons_none hrule]; rfl
  | some r => rw [List.filterMap_cons_some hrule]; rfl

theorem removals_concat (ops : List Op) (op : Op) (selector : String) : removals (ops ++ [op]) selector =
    removals ops selector + if op = .removeGlobalStyle selector then 1 else 0 := by
  simp only [removals, List.count_append, List.count_singleton, beq_iff_eq]

/-- The text of the rule that the last operation on a selector put in, if it put one in. -/
def lastText? (ops : List Op) (selector : String) : Option String :=
  (ops.filter (·.ruleSelector? = some selector)).getLast?.bind fun op => op.rule?.map (·.cssText)

theorem lastText?_concat (ops : List Op) (op : Op) (selector : String) : lastText? (ops ++ [op]) selector =
    if op.ruleSelector? = some selector then op.rule?.map (·.cssText) else lastText? ops selector := by
  unfold lastText?
  rw [List.filter_append, List.filter_singleton]
  by_cases hop : op.ruleSelector? = some selector
  · rw [decide_eq_true hop, cond_true, if_pos hop, List.getLast?_concat, Option.bind_some]
  · rw [decide_eq_false hop, cond_false, if_neg hop, List.append_nil]

end Op

open Op

/-- **The records of rules after operations that ended well**, as one queue for each selector. -/
structure Queues (done : List Op) (b : StyleBook) : Prop where
  rules : b.rules = withoutFirsts (removals done) (added done)
  styles : ∀ selector, b.styles.get? selector = lastText? done selector
  /-- No more rules were taken out than were put in. -/
  enough : ∀ selector, removals done selector ≤ (added done).countP (·.selectorText == selector)

namespace Queues

variable {done : List Op} {b : StyleBook} {selector : String}

theorem start (h : b.rules = []) (h' : b.styles = .empty) : Queues [] b :=
  ⟨h, fun _ => by rw [h']; rfl, fun _ => Nat.le_refl 0⟩

theorem filter_rules (h : Queues done b) (selector : String) : b.rules.filter (·.selectorText == selector) =
    ((added done).filter (·.selectorText == selector)).drop (removals done selector) := by
  rw [h.rules, filter_withoutFirsts]

/-- How many rules are left in a queue. -/
theorem count_eq (h : Queues done b) (selector : String) :
    b.count selector = (added done).countP (·.selectorText == selector) - removals done selector := by
  rw [StyleBook.count, List.countP_eq_length_filter, h.filter_rules, List.length_drop, ← List.countP_eq_length_filter]

/-- What is no operation on a rule is in no queue. -/
theorem other (h : Queues done b) {op : Op} (hop : op.ruleSelector? = none) : Queues (done ++ [op]) b := by
  have hadded : added (done ++ [op]) = added done := by
    rw [added_concat, rule?_of_no_rule hop, Option.toList_none, List.append_nil]
  have hremovals : removals (done ++ [op]) = removals done := by
    funext selector
    have hne : op ≠ .removeGlobalStyle selector := fun he => by cases he ▸ hop
    rw [removals_concat, if_neg hne, Nat.add_zero]
  refine ⟨?_, fun selector => ?_, fun selector => ?_⟩
  · rw [hadded, hremovals]
    exact h.rules
  · rw [lastText?_concat, hop, if_neg nofun]
    exact h.styles selector
  · rw [hadded, hremovals]
    exact h.enough selector

/-- A rule joins its queue at the end. -/
theorem add (h : Queues done b) (hplain : IsPlainSelector selector) (ds : List Declaration) :
    Queues (done ++ [.addGlobalStyle selector ds]) (b.add selector ds) := by
  let r : Rule := ⟨selector, Scene.ruleText selector ds⟩
  have hadded : added (done ++ [.addGlobalStyle selector ds]) = added done ++ [r] := added_concat _ _
  have hremovals : removals (done ++ [.addGlobalStyle selector ds]) = removals done := by
    funext other
    rw [removals_concat, if_neg nofun, Nat.add_zero]
  rw [hplain.add]
  refine ⟨?_, fun other => ?_, fun other => ?_⟩
  · -- All that were taken out had been put in before, so this one is left.
    rw [hadded, hremovals, withoutFirsts_concat, if_pos (h.enough selector), ← h.rules]
  · rw [lastText?_concat, Table.get?_insert, h.styles other]
    simp only [ruleSelector?, Option.some.injEq]
    rfl
  · have hle := h.enough other
    rw [hadded, hremovals, List.countP_append]
    omega

/-- A removal takes a rule off the front of its queue. -/
theorem remove (h : Queues done b) (hcount : b.count selector ≠ 0) :
    Queues (done ++ [.removeGlobalStyle selector]) (b.remove selector) := by
  have hadded : added (done ++ [.removeGlobalStyle selector]) = added done :=
    (added_concat _ _).trans (List.append_nil _)
  have hremovals : removals (done ++ [.removeGlobalStyle selector]) =
      fun other => removals done other + if selector = other then 1 else 0 := by
    funext other
    simp only [removals_concat, removeGlobalStyle.injEq]
  rw [StyleBook.remove, if_neg hcount]
  refine ⟨?_, fun other => ?_, fun other => ?_⟩
  · rw [hadded, hremovals, withoutFirsts_succ, ← h.rules]
  · rw [lastText?_concat, Table.get?_erase, h.styles other]
    simp only [ruleSelector?, Option.some.injEq]
    rfl
  · have hle := h.enough other
    have hleft := h.count_eq selector
    rw [hadded, hremovals]
    by_cases hother : selector = other
    · -- There was a rule left, so one removal more is not too many.
      subst hother
      simp only [if_true]
      omega
    · simpa only [if_neg hother, Nat.add_zero] using hle

end Queues

/-! ### How operations on rules end -/

namespace Scene

variable {s : Scene} {selector : String}

/-- Without a head nothing is done about a rule. -/
theorem apply_of_detached (hhead : s.page.headAttached = false) {op : Op} (hop : op.ruleSelector? = some selector)
    (now : Instant) : (op.apply now s).1 = .ok false ∧ (op.apply now s).2.book = s.book := by
  have hclosed : s.page.openSheet? styleSheetId = none := by rw [Page.openSheet?, hhead]; rfl
  cases op with
  | addGlobalStyle target ds =>
    rcases s.addGlobalStyle_ends target ds with ⟨-, hend⟩ | ⟨sheet, hopened, -⟩
    · rw [show (Op.addGlobalStyle target ds).apply now s = _ from hend]
      exact ⟨rfl, rfl⟩
    · rw [hclosed] at hopened
      cases hopened
  | removeGlobalStyle target =>
    rcases s.removeGlobalStyle_ends target with ⟨-, hend⟩ | ⟨sheet, hopened, -⟩
    · rw [show (Op.removeGlobalStyle target).apply now s = _ from hend]
      exact ⟨rfl, rfl⟩
    · rw [hclosed] at hopened
      cases hopened
  | _ => cases hop

/-- **An addition ends well** where there is a head. -/
theorem addGlobalStyle_ok_iff (hplain : IsPlainSelector selector) (ds : List Declaration) :
    (s.addGlobalStyle selector ds).1 = .ok true ↔ s.page.headAttached = true := by
  rcases s.addGlobalStyle_ends selector ds with ⟨hclosed, hend⟩ | ⟨sheet, hopened, hends⟩
  · rw [hend]
    refine iff_of_false nofun fun hhead => ?_
    rw [openSheet_of_head hhead] at hclosed
    cases hclosed
  · have hhead : s.page.headAttached = true := by
      by_contra hno
      rw [Page.openSheet?, if_neg hno] at hopened
      cases hopened
    refine iff_of_true ?_ hhead
    -- The rule of a plain selector can be read, so it can be put in.
    have happend := sheet.appendRule_ruleText selector ds
    rw [hplain.keptSelector_eq, if_neg hplain.ne_empty] at happend
    rcases hends with ⟨e, herror, -⟩ | ⟨sheet', -, hend⟩
    · rw [happend] at herror
      cases herror
    · rw [hend]

/-- **A removal ends well** where there is a head and a rule of the selector. -/
theorem removeGlobalStyle_ok_iff (selector : String) : (s.removeGlobalStyle selector).1 = .ok true ↔
    s.page.headAttached = true ∧ s.book.count selector ≠ 0 := by
  cases hhead : s.page.headAttached with
  | false =>
    have hend : (s.removeGlobalStyle selector).1 = .ok false :=
      (apply_of_detached hhead (rfl : (Op.removeGlobalStyle selector).ruleSelector? = some selector) .epoch).1
    rw [hend]
    exact iff_of_false (by decide) fun h => Bool.false_ne_true h.1
  | true => exact (removeGlobalStyle_cases hhead selector).1.trans (and_iff_right rfl).symm

/-- An operation on a rule leaves the rules of all other selectors in their places. -/
theorem filter_apply_ne {op : Op} (hop : op.ruleSelector? = some selector) (hplain : IsPlainSelector selector)
    (now : Instant) : (op.apply now s).2.book.rules.filter (·.selectorText != selector) =
      s.book.rules.filter (·.selectorText != selector) := by
  cases hhead : s.page.headAttached with
  | false => rw [(apply_of_detached hhead hop now).2]
  | true =>
    rw [book_apply hhead]
    exact hplain.filter_step_ne hop s.book

end Scene

/-- **What an operation keeps**: it joins those that ended well, if it did. -/
theorem Queues.apply {done : List Op} {s : Scene} (h : Queues done s.book) {op : Op}
    (hplain : ∀ selector ∈ op.ruleSelector?, IsPlainSelector selector) (now : Instant) :
    Queues (if (op.apply now s).1 = .ok true then done ++ [op] else done) (op.apply now s).2.book := by
  cases hop : op.ruleSelector? with
  | none =>
    rw [Scene.book_apply_of_no_rule hop]
    split
    · exact h.other hop
    · exact h
  | some selector =>
    cases hhead : s.page.headAttached with
    | false =>
      obtain ⟨hend, hbook⟩ := Scene.apply_of_detached hhead hop now
      rw [hbook, if_neg (by rw [hend]; decide)]
      exact h
    | true =>
      have hselector : IsPlainSelector selector := hplain selector hop
      rw [Scene.book_apply hhead]
      cases op with
      | addGlobalStyle target ds =>
        obtain rfl : target = selector := Option.some.inj hop
        show Queues (if (s.addGlobalStyle target ds).1 = .ok true then _ else _) (s.book.add target ds)
        rw [if_pos ((Scene.addGlobalStyle_ok_iff hselector ds).2 hhead)]
        exact h.add hselector ds
      | removeGlobalStyle target =>
        have hend := (Scene.removeGlobalStyle_cases hhead target).1
        show Queues (if (s.removeGlobalStyle target).1 = .ok true then _ else _) (s.book.remove target)
        by_cases hcount : s.book.count target = 0
        · rw [if_neg fun he => hend.1 he hcount, StyleBook.remove, if_pos hcount]
          exact h
        · rw [if_pos (hend.2 hcount)]
          exact h.remove hcount
      | _ => cases hop

/-! ### Rows of steps -/

/-- A step of a row: the head of the page is attached or not, and an operation is carried out. -/
structure RuleStep where
  head : Bool
  op : Op
  now : Instant

namespace RuleStep

/-- The scene in which the operation is carried out. -/
def before (x : RuleStep) (s : Scene) : Scene := s.withPage { s.page with headAttached := x.head }

/-- How the operation ends, and the scene after it. -/
def run (x : RuleStep) (s : Scene) : Outcome := x.op.apply x.now (x.before s)

/-- Steps one after the other: the operations that ended well, and the scene after all. -/
def runAll (s : Scene) (steps : List RuleStep) : List Op × Scene :=
  steps.foldl (fun r x => (if (x.run r.2).1 = .ok true then r.1 ++ [x.op] else r.1, (x.run r.2).2)) ([], s)

theorem runAll_concat (s : Scene) (steps : List RuleStep) (x : RuleStep) :
    let r := runAll s steps
    runAll s (steps ++ [x]) = (if (x.run r.2).1 = .ok true then r.1 ++ [x.op] else r.1, (x.run r.2).2) :=
  List.foldl_append

/-- **What a row of steps keeps.** -/
theorem queues {s : Scene} (h : Queues [] s.book) {steps : List RuleStep}
    (hplain : ∀ x ∈ steps, ∀ selector ∈ x.op.ruleSelector?, IsPlainSelector selector) :
    Queues (runAll s steps).1 (runAll s steps).2.book := by
  induction steps using List.reverseRecOn with
  | nil => exact h
  | append_singleton steps x ih =>
    have hbefore := ih fun y hy => hplain y (List.mem_append_left _ hy)
    have hx := hplain x (List.mem_append_right _ List.mem_cons_self)
    -- The head is no part of the records, so it may come and go.
    have hhead : Queues (runAll s steps).1 (x.before (runAll s steps).2).book := hbefore
    rw [runAll_concat]
    exact hhead.apply hx x.now

end RuleStep

/-- **The rules of passes are one queue for each selector.** Let operations follow each other on a page that has no
rules of passes yet, with its head attached or not for each of them, such that the selectors of their rules are plain.
Then the rules are at each time those that were put in, in this order, without the first ones of each selector, as many
as were taken out of it; and the style that is listed for a selector is that of the last operation on it that ended
well, if that was an addition. An addition ends well just if there is a head, and a removal just if there is a head and
a rule left of its selector. Neither moves a rule of another selector. -/
theorem rules_queue_by_selector {s : Scene} (hstyles : s.styles = .empty)
    (hrules : ∀ sheet ∈ s.page.sheets.get? styleSheetId, sheet.rules = []) {steps : List RuleStep}
    (hplain : ∀ x ∈ steps, ∀ selector ∈ x.op.ruleSelector?, IsPlainSelector selector) :
    let r := RuleStep.runAll s steps
    r.2.book.rules = withoutFirsts (removals r.1) (added r.1) ∧
      (∀ selector, r.2.book.rules.filter (·.selectorText == selector) =
        ((added r.1).filter (·.selectorText == selector)).drop (removals r.1 selector)) ∧
      (∀ selector, r.2.styles.get? selector = lastText? r.1 selector) ∧
      ∀ x : RuleStep, ∀ selector, IsPlainSelector selector →
        (∀ ds, x.op = .addGlobalStyle selector ds → ((x.run r.2).1 = .ok true ↔ x.head = true)) ∧
        (x.op = .removeGlobalStyle selector → ((x.run r.2).1 = .ok true ↔
          x.head = true ∧ removals r.1 selector < (added r.1).countP (·.selectorText == selector))) ∧
        (x.op.ruleSelector? = some selector → (x.run r.2).2.book.rules.filter (·.selectorText != selector) =
          r.2.book.rules.filter (·.selectorText != selector)) := by
  intro r
  have hstart : Queues [] s.book := .start (Scene.rules_book hrules) hstyles
  have hqueues : Queues r.1 r.2.book := RuleStep.queues hstart hplain
  refine ⟨hqueues.rules, hqueues.filter_rules, hqueues.styles, fun x selector hselector => ?_⟩
  refine ⟨fun ds hop => ?_, fun hop => ?_, fun hop => ?_⟩
  · rw [RuleStep.run, hop]
    exact Scene.addGlobalStyle_ok_iff hselector ds
  · rw [← Nat.sub_ne_zero_iff_lt, ← hqueues.count_eq, RuleStep.run, hop]
    exact Scene.removeGlobalStyle_ok_iff selector
  · exact Scene.filter_apply_ne (s := x.before r.2) hop hselector x.now

/-- Two rules for the body and one for a wall, which is put in between; the first one for the body is taken out, once
there is a head again. -/
theorem rules_queue_by_selector_wall :
    let s : Scene := ⟨Page.new "shop.example", .empty, .zero, [], []⟩
    let steps : List RuleStep := [⟨true, .addGlobalStyle "body" [("overflow", "auto")], .epoch⟩,
      ⟨true, .addGlobalStyle ".wall" [("display", "none")], .epoch⟩, ⟨false, .removeGlobalStyle "body", .epoch⟩,
      ⟨true, .addGlobalStyle "body" [("color", "red")], .epoch⟩, ⟨true, .removeGlobalStyle "body", .epoch⟩,
      ⟨false, .addGlobalStyle ".wall" [("height", "0")], .epoch⟩]
    let r := RuleStep.runAll s steps
    s.styles = .empty ∧ s.page.sheets.get? styleSheetId = none ∧
      (∀ x ∈ steps, ∀ selector ∈ x.op.ruleSelector?, IsPlainSelector selector) ∧
      r.2.book.rules = [⟨".wall", ".wall { display: none; }"⟩, ⟨"body", "body { color: red; }"⟩] ∧
      r.2.styles.get? "body" = none ∧ r.2.styles.get? ".wall" = some ".wall { display: none; }" := by
  intro s steps r
  have hbody : IsPlainSelector "body" := ⟨by decide, by decide, by decide⟩
  have hwall : IsPlainSelector ".wall" := ⟨by decide, by decide, by decide⟩
  have hplain : ∀ x ∈ steps, ∀ selector ∈ x.op.ruleSelector?, IsPlainSelector selector := by
    simp [steps, ruleSelector?, hbody, hwall]
  have hdone : r.1 = [.addGlobalStyle "body" [("overflow", "auto")], .addGlobalStyle ".wall" [("display", "none")],
      .addGlobalStyle "body" [("color", "red")], .removeGlobalStyle "body"] := by decide +kernel
  obtain ⟨hrules, -, hlisted, -⟩ := rules_queue_by_selector (s := s) rfl (fun sheet hs => by cases hs) hplain
  refine ⟨rfl, rfl, hplain, ?_, ?_, ?_⟩
  · rw [show r.2.book.rules = _ from hrules, show (RuleStep.runAll s steps).1 = _ from hdone]
    decide
  · rw [show r.2.styles.get? "body" = _ from hlisted "body", show (RuleStep.runAll s steps).1 = _ from hdone]
    decide
  · rw [show r.2.styles.get? ".wall" = _ from hlisted ".wall", show (RuleStep.runAll s steps).1 = _ from hdone]
    decide

end PageSweep
