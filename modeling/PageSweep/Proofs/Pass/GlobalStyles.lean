import PageSweep.Proofs.Pass.StyleBook
import PageSweep.Proofs.Pass.Trail

/-!
# Styles for the whole page

The records of styles in a scene, and what passes do to them. As every operation takes them one step and
passes are rows of operations, what the records of a row have in common holds of each page that passes reach.

* `Scene.book_apply`: what an operation does to the records of a scene.
* `Scene.Row.book`, `Sweeper.row_sweep`: rows of operations, and the rows that passes are.
* `global_styles_in_step`: how far what is listed agrees with what can be removed.
-/

namespace PageSweep

/-- The selector of the rule that an operation puts in or takes out. -/
def Op.ruleSelector? : Op → Option String
  | .addGlobalStyle selector _ => some selector
  | .removeGlobalStyle selector => some selector
  | _ => none

namespace Scene

variable {s : Scene} {now : Instant}

/-- The records in a scene. -/
def book (s : Scene) : StyleBook :=
  ⟨((s.page.sheets.get? styleSheetId).getD .empty).rules, s.styles⟩

theorem rules_book (h : ∀ sheet ∈ s.page.sheets.get? styleSheetId, sheet.rules = []) : s.book.rules = [] := by
  unfold book
  cases hsheet : s.page.sheets.get? styleSheetId with
  | none => rfl
  | some sheet => exact h sheet hsheet

/-- What changes neither stylesheets nor styles leaves the records as they are. -/
theorem book_eq {t : Scene} (hsheets : t.page.sheets = s.page.sheets) (hstyles : t.styles = s.styles) :
    t.book = s.book := by
  rw [book, book, hsheets, hstyles]

theorem book_onMatches {selector : String} {change : List Nat → Scene → Scene}
    (h : ∀ refs, (change refs s).book = s.book) : (s.onMatches selector change).2.book = s.book := by
  rcases s.onMatches_ends selector change with ⟨e, hend⟩ | ⟨refs, -, hend⟩
  · rw [hend]
  · rw [hend]
    exact h refs

theorem openSheet_of_head (hhead : s.page.headAttached = true) :
    s.page.openSheet? styleSheetId = some ⟨s.book.rules⟩ := by
  rw [Page.openSheet?, if_pos hhead]
  rfl

/-- The records with other rules in the stylesheet. -/
theorem book_putSheet (s : Scene) (sheet : StyleSheet) (styles : Table String) :
    ({ s.withPage (s.page.putSheet styleSheetId sheet) with styles := styles } : Scene).book =
      ⟨sheet.rules, styles⟩ := by
  simp [book, withPage, Page.putSheet]

theorem book_addGlobalStyle (hhead : s.page.headAttached = true) (selector : String)
    (ds : List Declaration) : (s.addGlobalStyle selector ds).2.book = s.book.add selector ds := by
  have hopened := openSheet_of_head hhead
  have happend := StyleSheet.appendRule_ruleText ⟨s.book.rules⟩ selector ds
  unfold StyleBook.add
  rcases s.addGlobalStyle_ends selector ds with ⟨hclosed, -⟩ | ⟨sheet, hsheet, hends⟩
  · rw [hopened] at hclosed
    cases hclosed
  · obtain rfl : ⟨s.book.rules⟩ = sheet := Option.some.inj (hopened.symm.trans hsheet)
    rcases hends with ⟨e, herror, hend⟩ | ⟨sheet', hok, hend⟩
    · -- Only a rule without a selector cannot be read.
      rw [happend] at herror
      split at herror
      · rename_i hkept
        rw [hend, if_pos hkept]
        exact book_putSheet s _ s.styles
      · cases herror
    · rw [happend] at hok
      split at hok
      · cases hok
      · rename_i hkept
        obtain rfl := Except.ok.inj hok
        rw [hend, if_neg hkept]
        exact book_putSheet s _ _

/-- A removal ends well if there is a rule of the selector. -/
theorem removeGlobalStyle_cases (hhead : s.page.headAttached = true) (selector : String) :
    ((s.removeGlobalStyle selector).1 = .ok true ↔ s.book.count selector ≠ 0) ∧
    (s.removeGlobalStyle selector).2.book = s.book.remove selector := by
  have hopened := openSheet_of_head hhead
  unfold StyleBook.remove
  rcases s.removeGlobalStyle_ends selector with ⟨hclosed, -⟩ | ⟨sheet, hsheet, hends⟩
  · rw [hopened] at hclosed
    cases hclosed
  · obtain rfl : ⟨s.book.rules⟩ = sheet := Option.some.inj (hopened.symm.trans hsheet)
    rcases hends with ⟨hfind, hend⟩ | ⟨index, sheet', hfind, hdelete, hend⟩
    · have hcount : s.book.count selector = 0 :=
        List.countP_eq_zero.2 fun r hr => by simpa using List.findIdx?_eq_none_iff.1 hfind r hr
      rw [hend, if_pos hcount]
      exact ⟨iff_of_false nofun (absurd hcount), book_putSheet s _ s.styles⟩
    · obtain ⟨hlt, hat, -⟩ := List.findIdx?_eq_some_iff_getElem.1 hfind
      have hcount : s.book.count selector ≠ 0 :=
        Nat.pos_iff_ne_zero.1 (List.countP_pos_iff.2 ⟨_, List.getElem_mem hlt, hat⟩)
      have herase : s.book.rules.eraseP (·.selectorText == selector) = s.book.rules.eraseIdx index := by
        rw [List.eraseP_eq_eraseIdx, show s.book.rules.findIdx? _ = some index from hfind]
      obtain ⟨-, rfl⟩ := StyleSheet.deleteRule_eq_ok.1 hdelete
      rw [hend, if_neg hcount, herase]
      exact ⟨iff_of_true rfl hcount, book_putSheet s _ _⟩

theorem book_click (selector : String) : (s.click selector).2.book = s.book := by
  rcases s.click_ends selector with ⟨e, hend⟩ | hend | ⟨ref, -, hend⟩
  · rw [hend]
  · rw [hend]
    rfl
  · rw [hend]
    exact book_eq rfl rfl

theorem book_styled (refs : List Nat) (ds : List Declaration) :
    (s.withPage (refs.foldl (fun p ref => ds.foldl (fun p d => p.setStyle ref d.1 d.2) p) s.page)).book =
      s.book := by
  have hone : ∀ (p : Page) (ref : Nat), (ds.foldl (fun p d => p.setStyle ref d.1 d.2) p).sheets = p.sheets :=
    fun p ref => Page.foldl_keeps (fun p d => (rfl : (p.setStyle ref d.1 d.2).sheets = p.sheets)) ds p
  exact book_eq (Page.foldl_keeps hone refs s.page) rfl

theorem sheets_setCookies (p : Page) (now : Instant) (directives : List String) :
    (setCookies p now directives).sheets = p.sheets :=
  Page.foldl_keeps (fun p d => (rfl : (p.setCookie d now).sheets = p.sheets)) directives p

theorem styles_clearCookie (name : String) : (s.clearCookie now name).2.styles = s.styles := by
  obtain ⟨p, -, hend | hend | hend⟩ := s.clearCookie_ends now name
  · rw [hend]
    rfl
  · rw [hend]
    rfl
  · rw [hend]
    rfl

theorem book_clearCookie (name : String) : (s.clearCookie now name).2.book = s.book := by
  refine book_eq ?_ (styles_clearCookie name)
  rw [page_clearCookie_eq]
  exact sheets_setCookies s.page now _

theorem book_clearAllCookies : (s.clearAllCookies now).2.book = s.book := by
  refine book_eq ?_ ?_
  · rw [page_clearAllCookies_eq]
    exact sheets_setCookies s.page now _
  · simp only [clearAllCookies, send, countCookies, withPage]

/-- An operation that is not about a rule leaves the records as they are. -/
theorem book_apply_of_no_rule {op : Op} (hop : op.ruleSelector? = none) (now : Instant) :
    (op.apply now s).2.book = s.book := by
  cases op with
  | log text => rfl
  | click target => exact book_click target
  | remove target =>
    refine book_onMatches fun refs => book_eq ?_ rfl
    exact Page.foldl_keeps (fun p ref => (rfl : (p.remove ref).sheets = p.sheets)) refs s.page
  | hide target => exact book_onMatches fun refs => book_styled refs _
  | style target ds => exact book_onMatches fun refs => book_styled refs ds
  | removeClass target className =>
    refine book_onMatches fun refs => book_eq ?_ rfl
    exact Page.foldl_keeps (fun p ref => (rfl : (p.removeClass ref className).sheets = p.sheets)) refs s.page
  | clearCookie name =>
    rw [Op.apply]
    exact book_clearCookie name
  | clearAllCookies =>
    rw [Op.apply]
    exact book_clearAllCookies
  | addGlobalStyle selector ds => cases hop
  | removeGlobalStyle selector => cases hop
  | reload => rfl
  | invalid reason => rfl

/-- **What an operation does to the records of a scene.** -/
theorem book_apply (hhead : s.page.headAttached = true) (op : Op) (now : Instant) :
    (op.apply now s).2.book = s.book.step op := by
  cases op with
  | addGlobalStyle selector ds => exact book_addGlobalStyle hhead selector ds
  | removeGlobalStyle selector => exact (removeGlobalStyle_cases hhead selector).2
  | _ => exact book_apply_of_no_rule rfl now

theorem head_apply (op : Op) (now : Instant) (s : Scene) :
    (op.apply now s).2.page.headAttached = s.page.headAttached := by
  by_cases hop : op = .reload
  · subst hop
    rfl
  · have htouched := op.apply_touched hop now s
    exact Page.touched_keeps (fun _ _ _ => rfl) (fun _ _ => rfl) (fun _ _ => rfl) (fun _ _ => rfl) htouched

/-! ### Rows of operations -/

/-- **Scenes that a row of operations leads to**, each carried out at any moment. In between, what was counted,
sent and logged may change, as it does after an error and from pass to pass. -/
inductive Row : List Op → Scene → Scene → Prop where
  | nil {s : Scene} : Row [] s s
  | op {ops : List Op} {s t : Scene} (h : Row ops s t) (op : Op) (now : Instant) :
      Row (ops ++ [op]) s (op.apply now t).2
  | aside {ops : List Op} {s t u : Scene} (h : Row ops s t) (hpage : u.page = t.page)
      (hstyles : u.styles = t.styles) : Row ops s u

variable {t u : Scene} {ops ops' : List Op}

theorem Row.append (h : Row ops s t) (h' : Row ops' t u) : Row (ops ++ ops') s u := by
  induction h' with
  | nil => rwa [List.append_nil]
  | op _ op now ih =>
    rw [← List.append_assoc]
    exact .op (ih h) op now
  | aside _ hpage hstyles ih => exact .aside (ih h) hpage hstyles

/-- **The records after a row of operations.** -/
theorem Row.book (h : Row ops s t) (hhead : s.page.headAttached = true) :
    t.page.headAttached = true ∧ t.book = s.book.carryOut ops := by
  induction h with
  | nil => exact ⟨hhead, rfl⟩
  | op _ op now ih =>
    obtain ⟨hhead', hbook⟩ := ih hhead
    rw [head_apply, book_apply hhead', hbook, StyleBook.carryOut_concat]
    exact ⟨hhead', rfl⟩
  | aside _ hpage hstyles ih =>
    obtain ⟨hhead', hbook⟩ := ih hhead
    exact ⟨hpage ▸ hhead', (book_eq (congrArg Page.sheets hpage) hstyles).trans hbook⟩

theorem row_composes (began : Instant) : Chain.Composes began Row where
  refl _ := .nil
  trans h h' := h.append h'
  apply op ms _ := .op .nil op (began.later ms)
  report _ h := .aside h rfl rfl

end Scene

namespace Sweeper

/-- The sweeper and the page after passes of schemas, each begun at its moment, one after the other. -/
def sweep (i : Sweeper) (p : Page) : List (Instant × Json) → Sweeper × Page
  | [] => (i, p)
  | (began, schema) :: passes =>
    let r := i.run began schema p
    sweep (i.after r) r.scene.page passes

/-- A pass is a row of operations, as many as it counts. -/
theorem row_run (i : Sweeper) (began : Instant) (schema : Json) {s : Scene} (hs : s.styles = i.styles) :
    ∃ ops, Scene.Row ops s (i.run began schema s.page).scene ∧
      ops.length = (i.run began schema s.page).executed := by
  obtain ⟨dss, r, log, hg, hexecuted, -, hrun⟩ := i.run_ends began schema s.page
  have hfirst : Scene.Row [] s ⟨s.page, i.styles, .zero, [], (collect i.maxDepth 0 schema).2⟩ :=
    .aside .nil rfl hs.symm
  rw [hrun]
  refine ⟨dss.flatten.map Deed.op, .aside (hfirst.append ((Scene.row_composes began).along hg)) rfl rfl, ?_⟩
  rw [List.length_map, hexecuted]

/-- **Passes one after the other are a row of operations.** -/
theorem row_sweep (i : Sweeper) (passes : List (Instant × Json)) {s : Scene} (hs : s.styles = i.styles) :
    ∃ ops t, Scene.Row ops s t ∧ t.page = (i.sweep s.page passes).2 ∧
      t.styles = (i.sweep s.page passes).1.styles := by
  induction passes generalizing i s with
  | nil => exact ⟨[], s, .nil, rfl, hs⟩
  | cons pass passes ih =>
    obtain ⟨began, schema⟩ := pass
    obtain ⟨ops, hrow, -⟩ := i.row_run began schema hs
    have hstyles : (i.run began schema s.page).scene.styles = (i.after (i.run began schema s.page)).styles := rfl
    obtain ⟨ops', t, hrow', hpage, hstyles'⟩ := ih _ hstyles
    exact ⟨ops ++ ops', t, hrow.append hrow', hpage, hstyles'⟩

end Sweeper

open StyleBook in
/-- **Styles and stylesheet agree on tidy selectors.** On a page with a head that has no rules of passes, a
fresh sweeper comes only to scenes that a row of operations leads to. In each of them, a selector that is kept
as it is can be removed if it is among the styles; a selector that is kept otherwise cannot be removed; and a
selector can be removed just if it is among the styles, as long as each rule that was put in for it or under
it was put in both for it and under it, while it was not among the styles. -/
theorem global_styles_in_step {p : Page} (hhead : p.headAttached = true)
    (hown : ∀ sheet ∈ p.sheets.get? styleSheetId, sheet.rules = []) (maxDepth : Nat) :
    let fresh : Scene := ⟨p, .empty, .zero, [], []⟩
    (∀ passes, ∃ ops s, Scene.Row ops fresh s ∧ s.page = ((Sweeper.new maxDepth).sweep p passes).2 ∧
      s.styles = ((Sweeper.new maxDepth).sweep p passes).1.styles) ∧
    ∀ ops s, Scene.Row ops fresh s → ∀ selector,
      (keptSelector selector = selector → s.styles.contains selector = true →
        (s.removeGlobalStyle selector).1 = .ok true) ∧
      (keptSelector selector ≠ selector → (s.removeGlobalStyle selector).1 ≠ .ok true) ∧
      (Tidy selector ops →
        (s.styles.contains selector = true ↔ (s.removeGlobalStyle selector).1 = .ok true)) := by
  intro fresh
  refine ⟨fun passes => (Sweeper.new maxDepth).row_sweep passes (s := fresh) rfl, ?_⟩
  intro ops s hrow selector
  have hfresh : fresh.book = empty := by
    show (⟨fresh.book.rules, .empty⟩ : StyleBook) = ⟨[], .empty⟩
    rw [Scene.rules_book hown]
  obtain ⟨hhead', hbook⟩ := hrow.book hhead
  rw [hfresh] at hbook
  have hbacked : s.book.Backed := hbook ▸ backed_empty.carryOut ops
  have hremove := (Scene.removeGlobalStyle_cases hhead' selector).1
  refine ⟨fun hk hl => hremove.2 (hbacked.listed selector hk hl),
    fun hk hok => hk (hbacked.kept selector (hremove.1 hok)), fun htidy => ?_⟩
  have hinStep : s.book.InStep selector := hbook ▸ htidy.inStep
  exact hinStep.listed.symm.trans hremove.symm

theorem global_styles_in_step_oneRule :
    let p := Page.new "shop.example"
    let op := Op.addGlobalStyle "body" [("overflow", "auto")]
    let s := (op.apply .epoch ⟨p, .empty, .zero, [], []⟩).2
    p.headAttached = true ∧ p.sheets.get? styleSheetId = none ∧ StyleBook.Tidy "body" [op] ∧
      s.styles.contains "body" = true ∧ (s.removeGlobalStyle "body").1 = .ok true := by
  intro p op s
  have htidy : StyleBook.Tidy "body" [op] := by
    intro front target ds back hops _ _
    cases front with
    | nil =>
      obtain ⟨⟨rfl, -⟩, -⟩ : (target = "body" ∧ ds = [("overflow", "auto")]) ∧ back = [] := by
        simpa [op, eq_comm] using hops
      exact ⟨rfl, by decide, rfl⟩
    | cons a front => simp at hops
  obtain ⟨-, hstep⟩ := global_styles_in_step (p := p) rfl (fun sheet hs => by cases hs) 32
  have hlisted : s.styles.contains "body" = true := by decide
  exact ⟨rfl, rfl, htidy, hlisted, ((hstep [op] s (.op .nil op .epoch) "body").2.2 htidy).1 hlisted⟩

/-- An action that puts a rule in for a selector. -/
def ruleFor (selector : String) : Json :=
  .obj [("action", .str "addGlobalStyle"), ("target", .str selector), ("property", .str "color"),
    ("value", .str "red")]

/-- A rule that is added twice and removed once is still there, and no longer listed; a rule for a selector
with a blank in front is listed, and cannot be removed. -/
theorem global_styles_doubledRule :
    let pass := fun schema => ((Sweeper.new 32).run .epoch schema (Page.new "shop.example")).scene
    let doubled := pass (.arr [ruleFor "a", ruleFor "a",
      .obj [("action", .str "removeGlobalStyle"), ("target", .str "a")]])
    let spaced := pass (ruleFor " a")
    (doubled.styles.contains "a" = false ∧ (doubled.removeGlobalStyle "a").1 = .ok true) ∧
      spaced.styles.contains " a" = true ∧ (spaced.removeGlobalStyle " a").1 = .ok false := by
  decide

end PageSweep
