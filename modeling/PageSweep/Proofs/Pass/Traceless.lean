import PageSweep.Page.Snapshot
import PageSweep.Proofs.Pass.Account

/-!
# Operations that do not end well

An operation finds out whether it can do what it is for before it changes anything. So one that does not end well
leaves no trace, apart from the stylesheet for the rules of passes: to look into it is to make it, empty. Only the
deletion of a cookie is different, since its directives are carried out whether there is such a cookie or not.

* `Page.Opens`: what looking into the stylesheet does to a page, and to its snapshot.
* `Op.apply_traceless`: an operation that does not end well.
* `Chain.AllGo.traceless`, `Sweeper.run_traceless`: chains and passes in which none does.
* `failed_operation_leaves_no_trace`: what is left of it in a snapshot.
-/

namespace PageSweep

/-- **A page before and after a look into the stylesheet for rules**, which comes into being, empty, where there is
a head and no such stylesheet. -/
inductive Page.Opens (p : Page) : Page → Prop where
  | idle : Opens p p
  | made (hhead : p.headAttached = true) (hnone : p.sheets.get? styleSheetId = none) :
      Opens p (p.putSheet styleSheetId .empty)

namespace Page

variable {p q r : Page}

/-- What was made once is not made again. -/
theorem Opens.trans (h : p.Opens q) (h' : q.Opens r) : p.Opens r := by
  cases h with
  | idle => exact h'
  | made hhead hnone =>
    cases h' with
    | idle => exact .made hhead hnone
    | made _ hnone' =>
      have hmade : (p.putSheet styleSheetId .empty).sheets.get? styleSheetId = some .empty := by
        rw [putSheet, Table.get?_insert, if_pos rfl]
      rw [hmade] at hnone'
      cases hnone'

/-- A stylesheet that is put back as it was opened. -/
theorem opens_putSheet {s : StyleSheet} (h : p.openSheet? styleSheetId = some s) :
    p.Opens (p.putSheet styleSheetId s) := by
  unfold openSheet? at h
  split at h
  · rename_i hhead
    cases hsheet : p.sheets.get? styleSheetId with
    | none =>
      rw [hsheet] at h
      cases h
      exact .made hhead hsheet
    | some sheet =>
      rw [hsheet] at h
      cases h
      have hsame : p.putSheet styleSheetId sheet = p := by rw [putSheet, Table.insert_eq_self hsheet]
      rw [Option.getD_some, hsame]
      exact .idle
  · cases h

/-- **What a look into the stylesheet does to a snapshot.** -/
theorem Opens.snapshot (h : p.Opens q) : q.snapshot = p.snapshot ∨
    p.snapshot.sheets.get? styleSheetId = none ∧
      q.snapshot = { p.snapshot with sheets := p.snapshot.sheets.insert styleSheetId [] } := by
  cases h with
  | idle => exact .inl rfl
  | made _ hnone =>
    refine .inr ⟨?_, ?_⟩
    · rw [Page.snapshot, Table.get?_map, hnone, Option.map_none]
    · simp only [Page.snapshot, putSheet, Table.map_insert]
      rfl

end Page

namespace Scene

variable {s t u : Scene} {now : Instant}

/-- **What was done between two scenes left no trace**, other than in the log. -/
structure Traceless (s t : Scene) : Prop where
  page : s.page.Opens t.page
  styles : t.styles = s.styles
  counters : t.counters = s.counters
  sent : t.sent = s.sent

theorem Traceless.refl (s : Scene) : s.Traceless s := ⟨.idle, rfl, rfl, rfl⟩

theorem Traceless.trans (h : s.Traceless t) (h' : t.Traceless u) : s.Traceless u :=
  ⟨h.page.trans h'.page, h'.styles.trans h.styles, h'.counters.trans h.counters, h'.sent.trans h.sent⟩

theorem Traceless.report (h : s.Traceless t) (e : Event) : s.Traceless (t.report e) :=
  ⟨h.page, h.styles, h.counters, h.sent⟩

/-- To look into the stylesheet is no trace. -/
theorem traceless_opened {sheet : StyleSheet} (h : s.page.openSheet? styleSheetId = some sheet) :
    s.Traceless (s.withPage (s.page.putSheet styleSheetId sheet)) :=
  ⟨Page.opens_putSheet h, rfl, rfl, rfl⟩

/-! ### Operations -/

/-- What does nothing to no elements leaves no trace where there are none. -/
theorem traceless_onMatches {selector : String} {change : List Nat → Scene → Scene} (hchange : change [] s = s)
    (hfail : (s.onMatches selector change).1 ≠ .ok true) : s.Traceless (s.onMatches selector change).2 := by
  rcases s.onMatches_ends selector change with ⟨e, hend⟩ | ⟨refs, -, hend⟩
  · rw [hend]
    exact .refl s
  · -- It did not end well, so it found nothing.
    rw [hend] at hfail ⊢
    cases refs with
    | nil =>
      have hnothing : s.Traceless (change [] s) := hchange.symm ▸ .refl s
      exact hnothing
    | cons ref refs => exact absurd rfl hfail

theorem traceless_click {selector : String} (hfail : (s.click selector).1 ≠ .ok true) :
    s.Traceless (s.click selector).2 := by
  rcases s.click_ends selector with ⟨e, hend⟩ | hend | ⟨ref, -, hend⟩
  · rw [hend]
    exact .refl s
  · rw [hend]
    exact (Traceless.refl s).report _
  · rw [hend] at hfail
    exact absurd rfl hfail

theorem traceless_addGlobalStyle {selector : String} {ds : List Declaration}
    (hfail : (s.addGlobalStyle selector ds).1 ≠ .ok true) : s.Traceless (s.addGlobalStyle selector ds).2 := by
  rcases s.addGlobalStyle_ends selector ds with ⟨-, hend⟩ | ⟨sheet, hopened, ⟨e, -, hend⟩ | ⟨sheet', -, hend⟩⟩
  · rw [hend]
    exact (Traceless.refl s).report _
  · rw [hend]
    exact traceless_opened hopened
  · rw [hend] at hfail
    exact absurd rfl hfail

theorem traceless_removeGlobalStyle {selector : String} (hfail : (s.removeGlobalStyle selector).1 ≠ .ok true) :
    s.Traceless (s.removeGlobalStyle selector).2 := by
  rcases s.removeGlobalStyle_ends selector with
    ⟨-, hend⟩ | ⟨sheet, hopened, ⟨-, hend⟩ | ⟨index, sheet', -, -, hend⟩⟩
  · rw [hend]
    exact (Traceless.refl s).report _
  · rw [hend]
    exact traceless_opened hopened
  · rw [hend] at hfail
    exact absurd rfl hfail

end Scene

/-- **An operation that does not end well leaves no trace**, unless it is for the cookie of a name. -/
theorem Op.apply_traceless {op : Op} (hop : ∀ name, op ≠ .clearCookie name) {now : Instant} {s : Scene}
    (hfail : (op.apply now s).1 ≠ .ok true) : s.Traceless (op.apply now s).2 := by
  cases op with
  | log text => exact absurd rfl hfail
  | click target => exact Scene.traceless_click hfail
  | remove target => exact Scene.traceless_onMatches rfl hfail
  | hide target => exact Scene.traceless_onMatches rfl hfail
  | style target ds => exact Scene.traceless_onMatches rfl hfail
  | removeClass target className => exact Scene.traceless_onMatches rfl hfail
  | clearCookie name => exact absurd rfl (hop name)
  | clearAllCookies => exact absurd rfl hfail
  | addGlobalStyle selector ds => exact Scene.traceless_addGlobalStyle hfail
  | removeGlobalStyle selector => exact Scene.traceless_removeGlobalStyle hfail
  | reload => exact absurd rfl hfail
  | invalid reason => exact .refl s

/-- The deletion of a cookie may leave a trace: of two cookies of a name, one goes and one stays. -/
example :
    let cookies : List Cookie := [⟨"sid", "1", none, "/"⟩, ⟨"sid", "2", none, "/cart"⟩]
    let s : Scene := ⟨(Page.ofSnapshot ⟨"shop.example", "/cart", true, cookies, .empty, .nil⟩).1, .empty, .zero, [], []⟩
    let r := (Op.clearCookie "sid").apply .epoch s
    r.1 = .ok false ∧ r.2.page.jar.cookies = cookies.tail := by decide +kernel

/-! ### Chains and passes -/

/-- Whether what was carried out did not end well, and was not for the cookie of a name. -/
structure Deed.Missed (d : Deed) : Prop where
  failed : d.ok = false
  op : ∀ name, d.op ≠ .clearCookie name

namespace Chain

variable {began : Instant} {maxDepth : Nat} {t t' : Stage}

theorem does_traceless {op : Op} {delay : Nat} {ok : Bool} (h : op.Does began delay t ok t')
    (hmissed : Deed.Missed ⟨op, delay, ok⟩) : t.scene.Traceless t'.scene := by
  have hend : ∀ now, (op.apply now t.scene).1 ≠ .ok true → t.scene.Traceless (op.apply now t.scene).2 :=
    fun _ => Op.apply_traceless hmissed.op
  cases h with
  | ends h =>
    have happly := hend _ (by rw [h]; exact fun he => Bool.false_ne_true (hmissed.failed.symm.trans (Except.ok.inj he)))
    rw [h] at happly
    exact happly
  | fails h =>
    have happly := hend _ (by rw [h]; exact fun he => by cases he)
    rw [h] at happly
    exact happly.report _

/-- A chain of operations that all miss leaves no trace. -/
theorem Goes.traceless {c : Chain} {b : Nat} {ds : List Deed} (h : c.Goes began maxDepth b t ds t')
    (hmissed : ∀ d ∈ ds, d.Missed) : t.scene.Traceless t'.scene := by
  induction h with
  | reload h => exact does_traceless h (hmissed _ List.mem_cons_self)
  | last _ h _ => exact does_traceless h (hmissed _ List.mem_cons_self)
  | dropped _ h _ => exact (does_traceless h (hmissed _ List.mem_cons_self)).report _
  | followed _ h _ _ ih =>
    have hfirst := does_traceless h (hmissed _ List.mem_cons_self)
    exact hfirst.trans (ih fun d hd => hmissed d (List.mem_cons_of_mem _ hd))

theorem AllGo.traceless {cs : List Chain} {dss : List (List Deed)} (h : AllGo began maxDepth cs t dss t')
    (hmissed : ∀ d ∈ dss.flatten, d.Missed) : t.scene.Traceless t'.scene := by
  induction h with
  | nil => exact .refl _
  | stop h _ =>
    rw [List.flatten_cons, List.flatten_nil, List.append_nil] at hmissed
    exact h.traceless hmissed
  | cons h _ _ ih =>
    rw [List.flatten_cons] at hmissed
    have hchain := h.traceless fun d hd => hmissed d (List.mem_append_left _ hd)
    exact hchain.trans (ih fun d hd => hmissed d (List.mem_append_right _ hd))

end Chain

/-- **A pass in which nothing ended well** leaves the page, apart from an empty stylesheet, and the styles as they
were; it counts nothing and tells nothing. -/
theorem Sweeper.run_traceless {i : Sweeper} {began : Instant} {schema : Json} {page : Page} {ds : List Deed}
    (h : i.CarriesOut began schema page ds) (hmissed : ∀ d ∈ ds, d.Missed) :
    let r := i.run began schema page
    page.Opens r.scene.page ∧ r.scene.styles = i.styles ∧ r.summary.total = 0 ∧ r.scene.sent = [] := by
  intro r
  obtain ⟨dss, t, hgoes, rfl⟩ := h
  obtain ⟨dss', r₀, log, hgoes', -, -, hrun⟩ := i.run_ends began schema page
  obtain ⟨rfl, rfl⟩ := hgoes.det hgoes'
  have htrace := hgoes.traceless hmissed
  have hcounters : r₀.scene.counters = .zero := htrace.counters
  have hsent : r₀.scene.sent = [] := htrace.sent
  have htotal : r₀.summary.total = 0 := by
    show r₀.scene.counters.elements + r₀.scene.counters.cookies = 0
    rw [hcounters]
    rfl
  rw [show r = _ from hrun]
  refine ⟨htrace.page, htrace.styles, htotal, ?_⟩
  show r₀.scene.sent ++ (if r₀.summary.total = 0 then [] else [.updateCounter r₀.summary.total]) = []
  rw [hsent, if_pos htotal, List.append_nil]

/-- **An operation that does not end well leaves no trace.** Whatever it is, other than the deletion of a cookie, and
whatever the page and the state of the pass: the styles, the counts and what was sent stay as they are, as does the
page, and with it its snapshot, apart from an empty stylesheet for rules that was not there before. -/
theorem failed_operation_leaves_no_trace {op : Op} (hop : ∀ name, op ≠ .clearCookie name) {now : Instant} {s : Scene}
    (hfail : (op.apply now s).1 ≠ .ok true) :
    let t := (op.apply now s).2
    s.Traceless t ∧ (t.page.snapshot = s.page.snapshot ∨ s.page.snapshot.sheets.get? styleSheetId = none ∧
      t.page.snapshot = { s.page.snapshot with sheets := s.page.snapshot.sheets.insert styleSheetId [] }) := by
  intro t
  have htrace : s.Traceless t := Op.apply_traceless hop hfail
  exact ⟨htrace, htrace.page.snapshot⟩

/-- A rule is to be taken out of a stylesheet that is not there: it comes into being, and that is all. -/
theorem failed_operation_leaves_no_trace_noSheet :
    let op := Op.removeGlobalStyle "body"
    let s : Scene := ⟨Page.new "shop.example", .empty, ⟨2, 1⟩, [.clearAllCookies], []⟩
    (∀ name, op ≠ .clearCookie name) ∧ (op.apply .epoch s).1 = .ok false ∧
      (op.apply .epoch s).2.page.snapshot =
        { s.page.snapshot with sheets := s.page.snapshot.sheets.insert styleSheetId [] } ∧
      (op.apply .epoch s).2.counters = ⟨2, 1⟩ ∧ (op.apply .epoch s).2.sent = [.clearAllCookies] := by
  intro op s
  have hop : ∀ name, op ≠ .clearCookie name := fun name => by simp [op]
  have hfail : (op.apply .epoch s).1 = .ok false := by decide
  have hnot : (op.apply .epoch s).1 ≠ .ok true := by rw [hfail]; decide
  obtain ⟨htrace, hsnapshot⟩ := failed_operation_leaves_no_trace hop hnot
  refine ⟨hop, hfail, ?_, htrace.counters, htrace.sent⟩
  rcases hsnapshot with hsame | ⟨-, hmade⟩
  · exact absurd (congrArg Snapshot.sheets hsame) (by decide)
  · exact hmade

end PageSweep
