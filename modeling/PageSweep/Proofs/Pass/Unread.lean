import PageSweep.Proofs.Pass.Lockstep

/-!
# What a pass does not read

The sweeper has a line for each selector with a rule for the whole page, and the log takes what there is to
report. Operations write to both and read neither: how they end, what they do to the page and what they count
and send is the same whatever the lines and the log are, and so is what they write. A pass therefore depends on
earlier passes through the page alone.

* `Table.Edited`: what writes do to a table that they do not read.
* `Op.apply_unread`: an operation, on all lines and all logs.
* `Scene.lockstep_apart`, `Sweeper.run_apart`: two passes that differ in lines and log from the start.
* `Sweeper.run_of_same_actions`: passes of schemas with the same actions.
* `pass_ignores_history`: two sweepers that went through different things.
-/

namespace PageSweep

/-! ### Writes to a table -/

namespace Table

variable {β : Type} {t u v : Table β} {edit edit' : String → Option (Option β)}

/-- **What writes do to a table**: some keys get a value or lose the one they have, and the others keep theirs. -/
def Edited (edit : String → Option (Option β)) (t u : Table β) : Prop :=
  ∀ key, u.get? key = (edit key).getD (t.get? key)

theorem Edited.refl (t : Table β) : Edited (fun _ => none) t t := fun _ => rfl

/-- The later write under a key counts. -/
theorem Edited.trans (h : Edited edit t u) (h' : Edited edit' u v) :
    Edited (fun key => (edit' key).or (edit key)) t v := by
  intro key
  rw [h' key, h key]
  show _ = ((edit' key).or (edit key)).getD (t.get? key)
  cases edit' key <;> rfl

theorem edited_insert (t : Table β) (key : String) (value : β) :
    Edited (fun k => if key = k then some (some value) else none) t (t.insert key value) := by
  intro k
  simp only [get?_insert]
  split <;> rfl

theorem edited_erase (t : Table β) (key : String) :
    Edited (fun k => if key = k then some none else none) t (t.erase key) := by
  intro k
  simp only [get?_erase]
  split <;> rfl

theorem Edited.unique (h : Edited edit t u) (h' : Edited edit t v) : u = v :=
  ext_get? fun key => (h key).trans (h' key).symm

end Table

/-! ### Operations -/

namespace Scene

variable {s : Scene} {now : Instant}

/-- **What does not read the lines and the log**: on all of them it ends in the same way and leaves the same, and
it makes the same edits of the lines and adds the same to the log. -/
def Unread (act : Scene → Outcome) (s : Scene) : Prop :=
  ∃ (edit : String → Option (Option String)) (x : List Event), ∀ styles log, ∃ styles',
    styles.Edited edit styles' ∧ act { s with styles := styles, log := log } =
      ((act s).1, { (act s).2 with styles := styles', log := log ++ x })

/-- What makes no edits. -/
theorem Unread.of_kept {act : Scene → Outcome} (x : List Event) (h : ∀ styles log,
    act { s with styles := styles, log := log } =
      ((act s).1, { (act s).2 with styles := styles, log := log ++ x })) : Unread act s :=
  ⟨fun _ => none, x, fun styles log => ⟨styles, .refl styles, h styles log⟩⟩

theorem unread_onMatches (selector : String) {change : List Nat → Scene → Scene}
    (h : ∀ refs styles log, change refs { s with styles := styles, log := log } =
      { change refs s with styles := styles, log := log }) : Unread (·.onMatches selector change) s := by
  refine .of_kept [] fun styles log => ?_
  unfold onMatches
  rw [List.append_nil]
  cases s.page.query selector with
  | error e => rfl
  | ok refs =>
    simp only
    rw [h]

theorem unread_click (selector : String) : Unread (·.click selector) s := by
  unfold click
  cases hquery : s.page.query selector with
  | error e => exact .of_kept [] fun styles log => by simp [hquery]
  | ok refs =>
    cases refs with
    | nil => exact .of_kept [.clickTargetMissing selector] fun styles log => by simp [hquery, report]
    | cons first rest =>
      refine .of_kept [] fun styles log => ?_
      simp only [hquery, List.append_nil]
      cases s.page.click first with
      | error e => rfl
      | ok p => rfl

theorem unread_clearCookie (name : String) : Unread (·.clearCookie now name) s := by
  unfold clearCookie
  generalize hpage : setCookies s.page now (deletions s.page.hostname name) = page
  cases hpresent : (headerNames s.page.cookieHeader).contains name with
  | false =>
    exact .of_kept [] fun styles log => by
      simp only [hpage, hpresent, List.append_nil]
      rfl
  | true =>
    cases hsurvived : (headerNames page.cookieHeader).contains name with
    | true =>
      exact .of_kept [.cookieSurvived name] fun styles log => by
        simp only [hpage, hpresent, hsurvived]
        rfl
    | false =>
      exact .of_kept [] fun styles log => by
        simp only [hpage, hpresent, hsurvived, List.append_nil]
        rfl

theorem unread_clearAllCookies : Unread (·.clearAllCookies now) s :=
  .of_kept [] fun styles log => by
    simp only [clearAllCookies, withPage, countCookies, send, List.append_nil]

/-- A rule that is put on the page has its line, whatever line was there. -/
theorem unread_addGlobalStyle (selector : String) (ds : List Declaration) :
    Unread (·.addGlobalStyle selector ds) s := by
  unfold addGlobalStyle
  cases hopen : s.page.openSheet? styleSheetId with
  | none => exact .of_kept [.styleNotAdded selector] fun styles log => by simp only [hopen]; rfl
  | some sheet =>
    cases happend : sheet.appendRule (ruleText selector ds) with
    | error e =>
      exact .of_kept [] fun styles log => by
        simp only [hopen, happend, List.append_nil]
        rfl
    | ok sheet' =>
      refine ⟨_, [], fun styles log => ⟨_, styles.edited_insert selector (ruleText selector ds), ?_⟩⟩
      simp only [hopen, happend, List.append_nil]
      rfl

/-- Whether a rule can be taken away is for the stylesheet to say, not for the lines. -/
theorem unread_removeGlobalStyle (selector : String) : Unread (·.removeGlobalStyle selector) s := by
  unfold removeGlobalStyle
  cases hopen : s.page.openSheet? styleSheetId with
  | none => exact .of_kept [.styleNotRemoved selector] fun styles log => by simp only [hopen]; rfl
  | some sheet =>
    cases hfind : sheet.find? selector with
    | none =>
      exact .of_kept [] fun styles log => by
        simp only [hopen, hfind, List.append_nil]
        rfl
    | some index =>
      cases hdelete : sheet.deleteRule index with
      | error e =>
        exact .of_kept [] fun styles log => by
          simp only [hopen, hfind, hdelete, List.append_nil]
          rfl
      | ok sheet' =>
        refine ⟨_, [], fun styles log => ⟨_, styles.edited_erase selector, ?_⟩⟩
        simp only [hopen, hfind, hdelete, List.append_nil]
        rfl

end Scene

open Scene in
/-- **No operation reads the lines or the log.** -/
theorem Op.apply_unread (op : Op) (now : Instant) (s : Scene) : Unread (op.apply now ·) s := by
  cases op with
  | log text => exact .of_kept [.noted text] fun _ _ => rfl
  | click target => exact unread_click target
  | remove target => exact unread_onMatches target fun _ _ _ => rfl
  | hide target => exact unread_onMatches target fun _ _ _ => rfl
  | style target ds => exact unread_onMatches target fun _ _ _ => rfl
  | removeClass target className => exact unread_onMatches target fun _ _ _ => rfl
  | clearCookie name =>
    simp only [Op.apply]
    exact unread_clearCookie name
  | clearAllCookies =>
    simp only [Op.apply]
    exact unread_clearAllCookies
  | addGlobalStyle selector ds => exact unread_addGlobalStyle selector ds
  | removeGlobalStyle selector => exact unread_removeGlobalStyle selector
  | reload => exact .of_kept [.reloading] fun _ _ => rfl
  | invalid reason => exact .of_kept [] fun styles log => by rw [List.append_nil]; rfl

/-! ### Two passes -/

/-- **Scenes that differ in lines and log alone**, and only in those that they began with: since then both have
had the same edits. -/
structure Scene.Apart (styles styles' : Table String) (log log' : List Event) (s s' : Scene) : Prop where
  rest : s' = { s with styles := s'.styles, log := s'.log }
  edits : ∃ edit, styles.Edited edit s.styles ∧ styles'.Edited edit s'.styles
  logs : ∃ x, s.log = log ++ x ∧ s'.log = log' ++ x

namespace Scene

variable {styles styles' : Table String} {log log' : List Event} {s s' : Scene}

theorem Apart.page (h : Apart styles styles' log log' s s') : s'.page = s.page := by rw [h.rest]

theorem Apart.counters (h : Apart styles styles' log log' s s') : s'.counters = s.counters := by rw [h.rest]

theorem Apart.sent (h : Apart styles styles' log log' s s') : s'.sent = s.sent := by rw [h.rest]

theorem lockstep_apart (styles styles' : Table String) (log log' : List Event) :
    Lockstep (Apart styles styles' log log') where
  apply {s s'} h op now := by
    obtain ⟨hrest, ⟨edit, hedit, hedit'⟩, ⟨x, hlog, hlog'⟩⟩ := h
    obtain ⟨edit₁, x₁, hact⟩ := op.apply_unread now s
    obtain ⟨styles₁, hstyles₁, happly⟩ := hact s.styles s.log
    obtain ⟨styles₁', hstyles₁', happly'⟩ := hact s'.styles s'.log
    simp only [← hrest] at happly happly'
    have hscene : (op.apply now s).2 = { (op.apply now s).2 with styles := styles₁, log := s.log ++ x₁ } :=
      congrArg Prod.snd happly
    rw [happly']
    refine ⟨rfl, rfl, ⟨_, ?_, hedit'.trans hstyles₁'⟩, x ++ x₁, ?_, ?_⟩
    · rw [hscene]
      exact hedit.trans hstyles₁
    · rw [hscene, hlog, List.append_assoc]
    · rw [hlog', List.append_assoc]
  report {s s'} h e := by
    obtain ⟨hrest, hedits, ⟨x, hlog, hlog'⟩⟩ := h
    refine ⟨?_, hedits, x ++ [e], ?_, ?_⟩
    · rw [hrest]
      rfl
    · rw [report, hlog, List.append_assoc]
    · rw [report, hlog', List.append_assoc]
  send {s s'} h m := by
    refine ⟨?_, h.edits, h.logs⟩
    rw [h.rest]
    rfl
  counters h := h.counters

end Scene

namespace Sweeper

/-- **Passes of two sweepers with schemas that have the same actions** do the same, whatever lines the sweepers
have, and whatever was reported of the schemas. -/
theorem run_apart (i i' : Sweeper) (schema schema' : Json) (hd : i'.maxDepth = i.maxDepth)
    (hactions : (collect i.maxDepth 0 schema').1 = (collect i.maxDepth 0 schema).1) (began : Instant)
    (page : Page) : (i.run began schema page).Beside
      (Scene.Apart i.styles i'.styles (collect i.maxDepth 0 schema).2 (collect i.maxDepth 0 schema').2)
      (i'.run began schema' page) :=
  (Scene.lockstep_apart _ _ _ _).run_of_actions hd hactions
    ⟨rfl, ⟨_, .refl _, .refl _⟩, [], (List.append_nil _).symm, (List.append_nil _).symm⟩ began

/-- **What a pass does comes from the actions of its schema.** Passes of schemas that have the same actions differ
in the log at most. -/
theorem run_of_same_actions (i : Sweeper) {schema schema' : Json}
    (hactions : (collect i.maxDepth 0 schema').1 = (collect i.maxDepth 0 schema).1) (began : Instant)
    (page : Page) :
    let r := i.run began schema page
    let r' := i.run began schema' page
    r' = { r with scene := { r.scene with log := r'.scene.log } } := by
  intro r r'
  have hbeside := run_apart i i schema schema' rfl hactions began page
  obtain ⟨edit, hedit, hedit'⟩ := hbeside.scene.edits
  have hscene : r'.scene = { r.scene with log := r'.scene.log } := by
    rw [show r'.scene = _ from hbeside.scene.rest, hedit'.unique hedit]
  rw [show r' = _ from hbeside.rest, ← hscene]

end Sweeper

/-- **A pass does not depend on earlier passes other than through the page.** Whatever lines and counters a
sweeper has from before, a pass counts the same, leaves the same page, sends and logs the same, waits for as
long and leaves the same counters; and it makes the same edits of the lines: each selector gets the same line in
both, or loses it in both, or keeps in each the line it had there. -/
theorem pass_ignores_history (i : Sweeper) (styles : Table String) (counters : Counters) (began : Instant)
    (schema : Json) (page : Page) :
    let i' : Sweeper := { i with styles := styles, counters := counters }
    let r := i.run began schema page
    let r' := i'.run began schema page
    r'.summary = r.summary ∧ r'.scene.page = r.scene.page ∧ r'.scene.sent = r.scene.sent ∧
      r'.scene.log = r.scene.log ∧ r'.elapsed = r.elapsed ∧ (i'.after r').counters = (i.after r).counters ∧
      ∃ edit, i.styles.Edited edit (i.after r).styles ∧ i'.styles.Edited edit (i'.after r').styles := by
  intro i' r r'
  have hbeside := Sweeper.run_apart i i' schema schema rfl rfl began page
  have hscene := hbeside.scene
  obtain ⟨x, hlog, hlog'⟩ := hscene.logs
  exact ⟨(Scene.lockstep_apart _ _ _ _).summary hbeside, hscene.page, hscene.sent, hlog'.trans hlog.symm,
    hbeside.elapsed, hscene.counters, hscene.edits⟩

end PageSweep
