import PageSweep.Proofs.Badge.Tally
import PageSweep.Proofs.CommandLine.AllOrNothing
import PageSweep.Proofs.Visit.Passages

/-!
# The total that is stored

What a walk tells to be counted is what its passes report, and nothing that it tells puts the total back. A run of the
program loads the badge, counts what its walk told and stores the badge again, and it is loaded as it was stored. So
over any row of runs and resets what is stored is what the passes since the last reset took off, or the greatest count
if that is more than can be counted.

* `Walk.Even.run`: what a walk tells and what it reports.
* `FileTree.loadBadge_run`, `FileTree.loadBadge_reset`: what is stored after one run, and after a reset.
* `FileTree.Counts.stored`: what is stored after a row of them.
* `stored_total_exact`: the same together with the law of messages that it rests on.
-/

namespace PageSweep

open Number

/-! ### Walks -/

namespace Walk

/-- **A walk that is even**: nothing it told puts a total back, and the counts it told sum up to the totals that its
passes report. -/
structure Even (w : Walk) : Prop where
  numbered : w.page.Numbered
  noReset : .resetCounter ∉ w.sent
  sums : (w.sent.map Message.count).sum = (w.reports.map (·.summary.total)).sum

variable {w : Walk}

theorem Even.pass (hw : w.Even) (opened : Instant) (h : Handler) (shape : String) (schema : Json) :
    (w.pass opened h shape schema).Even := by
  obtain ⟨ds, -, -, htold, -⟩ := w.sweeper.run_accounts (opened.later w.clock) schema hw.numbered
  obtain ⟨ops, htrail, -, -⟩ := w.sweeper.run_trail (opened.later w.clock) schema w.page
  let x : Passage := ⟨h.name, shape, w.sweeper, opened.later w.clock, schema, w.page, ds⟩
  have hmessages : x.run.scene.sent = x.messages := htold
  refine ⟨hw.numbered.trail htrail, fun hmem => ?_, ?_⟩
  · rcases List.mem_append.1 (show Message.resetCounter ∈ w.sent ++ x.run.scene.sent from hmem) with hmem | hmem
    · exact hw.noReset hmem
    · rw [hmessages] at hmem
      rcases List.mem_append.1 hmem with hdeed | hend
      · obtain ⟨d, -, hd⟩ := List.mem_flatMap.1 hdeed
        unfold Deed.told at hd
        cases hop : d.op <;> simp [hop, Op.told] at hd
      · split at hend
        · exact absurd hend List.not_mem_nil
        · simp at hend
  · show ((w.sent ++ x.run.scene.sent).map Message.count).sum =
      ((w.reports ++ [x.report]).map (·.summary.total)).sum
    rw [List.map_append, List.sum_append, hw.sums, hmessages, x.sum_messages, List.map_append, List.sum_append,
      List.map_singleton, List.sum_singleton]

theorem Even.visit (hw : w.Even) (answers : String → Answer) (opened : Instant) (h : Handler) :
    (w.visit answers opened h).Even := by
  obtain ⟨w', ⟨hpage, -, hreports, hsent⟩, hvisit⟩ := w.visit_cases answers opened h
  have hw' : w'.Even := ⟨hpage ▸ hw.numbered, hsent ▸ hw.noReset, by rw [hsent, hreports, hw.sums]⟩
  rcases hvisit with hvisit | ⟨shape, schema, hvisit⟩
  · exact hvisit ▸ hw'
  · exact hvisit ▸ hw'.pass opened h shape schema

/-- **A walk stays even** at all its handlers. -/
theorem Even.run (hw : w.Even) (answers : String → Answer) (opened : Instant) (hs : List Handler) :
    (w.run answers opened hs).Even := by
  induction hs generalizing w with
  | nil => exact hw
  | cons h hs ih =>
    rw [Walk.run]
    split
    · exact hw
    · exact ih (hw.visit answers opened h)

/-- **What is owed after a walk** is what its passes report on top of what was owed before it. -/
theorem Even.owed_sent (hw : w.Even) (start : Nat) :
    owed start (w.sent.map Message.booking) = start + (w.reports.map (·.summary.total)).sum := by
  have hnone : Booking.anew ∉ w.sent.map Message.booking := by
    intro hmem
    obtain ⟨m, hm, hanew⟩ := List.mem_map.1 hmem
    exact hw.noReset (Message.booking_eq_anew.1 hanew ▸ hm)
  have hamounts : (w.sent.map Message.booking).map Booking.amount = w.sent.map Message.count := by
    rw [List.map_map]
    exact List.map_congr_left fun m _ => m.amount_booking
  rw [owed_of_not_mem hnone, hamounts, hw.sums]

end Walk

namespace Desk

variable {d : Desk}

theorem even_walk (d : Desk) (s : Settings) (page : Snapshot) : (d.walk s page).Even := by
  refine Walk.Even.run ⟨Page.numbered_ofSnapshot page, List.not_mem_nil, rfl⟩ _ _ _

/-- The walk that a run over the page of a file makes, if the settings and the page can be read. -/
def walkFor (d : Desk) (path : String) : Except CommandError Walk := do
  let s ← d.loadSettings
  let text ← (d.file path).mapError (.pageUnreadable path)
  let page ← (Snapshot.readYaml text).mapError .pageInvalid
  return d.walk s page

theorem walkFor_eq {path text : String} {s : Settings} {page : Snapshot} (hs : d.loadSettings = .ok s)
    (htext : d.file path = .ok text) (hpage : Snapshot.readYaml text = .ok page) :
    d.walkFor path = .ok (d.walk s page) := by
  rw [walkFor, hs, htext]
  show (Snapshot.readYaml text).mapError CommandError.pageInvalid >>= _ = _
  rw [hpage]
  rfl

theorem even_walkFor {path : String} {w : Walk} (hw : d.walkFor path = .ok w) : w.Even := by
  obtain ⟨s, -, hw⟩ := bind_eq_ok.1 hw
  obtain ⟨text, -, hw⟩ := bind_eq_ok.1 hw
  obtain ⟨page, -, hw⟩ := bind_eq_ok.1 hw
  exact Except.ok.inj hw ▸ d.even_walk s page

theorem loadBadge_eq_ok {b : Badge} :
    d.loadBadge = .ok b ↔ (d.state.mapError Error.file).bind Badge.load = .ok b := by
  constructor
  · intro h
    unfold loadBadge at h
    split at h
    · rename_i b' hb
      rw [hb, Except.ok.inj h]
    · cases h
  · intro h
    rw [loadBadge, h]

end Desk

/-! ### Runs and resets -/

/-- What a command does to the total that is stored. -/
inductive Reckoning where
  /-- A run, with what its passes reported. -/
  | run (reports : List Report)
  | reset

def Reckoning.booking : Reckoning → Booking
  | run reports => .more (reports.map (·.summary.total)).sum
  | reset => .anew

namespace FileTree

variable {root : Path} {t u v : FileTree} {rs : List Reckoning}

/-- The badge that is stored for a root. -/
def loadBadge (t : FileTree) (root : Path) : Except Error Badge :=
  ((t.readOptional (statePath root)).mapError Error.file).bind Badge.load

theorem loadBadge_desk {answers : String → Answer} {now : Instant} {b : Badge} :
    (t.desk root answers now).loadBadge = .ok b ↔ t.loadBadge root = .ok b := Desk.loadBadge_eq_ok

/-- **Runs and resets for a root, one after the other**, each of which went well. Between them pages, handlers and all
else may be changed, but not the badge that is stored. -/
inductive Counts (root : Path) (t : FileTree) : List Reckoning → FileTree → Prop where
  | nil : Counts root t [] t
  | others {rs : List Reckoning} {u v : FileTree} (h : Counts root t rs u)
      (hstate : v.loadBadge root = u.loadBadge root) : Counts root t rs v
  | run {rs : List Reckoning} {u : FileTree} (h : Counts root t rs u) {i : Invocation}
      {answers : String → Answer} {now : Instant} {path : String} {dump : Bool} {w : Walk}
      (hroot : u.rootFor i.root = root) (hrun : i.command = .run path dump)
      (hok : (u.invoke i answers now).1.code = 0) (hwalk : (u.desk root answers now).walkFor path = .ok w) :
      Counts root t (rs ++ [.run w.reports]) (u.invoke i answers now).2
  | reset {rs : List Reckoning} {u : FileTree} (h : Counts root t rs u) {i : Invocation}
      {answers : String → Answer} {now : Instant} (hroot : u.rootFor i.root = root)
      (hreset : i.command = .resetCounter) (hok : (u.invoke i answers now).1.code = 0) :
      Counts root t (rs ++ [.reset]) (u.invoke i answers now).2

/-- A command that went well and changes the badge has stored it. -/
theorem invoke_state {i : Invocation} {answers : String → Answer} {now : Instant} (hroot : t.rootFor i.root = root)
    (hok : (t.invoke i answers now).1.code = 0)
    (hstate : ∀ c, i.command.Makes (t.desk root answers now) c → ∃ b, c = .state b) :
    ∃ b, i.command.Makes (t.desk root answers now) (.state b) ∧ (t.invoke i answers now).2.loadBadge root = .ok b := by
  have hcases := t.invoke_cases i answers now
  rw [hroot] at hcases
  rcases hcases with ⟨-, c, hmakes, hmade⟩ | ⟨hfailed, -⟩
  · obtain ⟨b, rfl⟩ := hstate c hmakes
    exact ⟨b, hmakes, loadBadge_desk.1 (hmade.comesBack answers now b.readYaml_writeYaml)⟩
  · rw [hok] at hfailed
    cases hfailed

/-- **After a run that went well** what its walk told is counted on the badge that was stored before it. -/
theorem loadBadge_run {i : Invocation} {answers : String → Answer} {now : Instant} {path : String} {dump : Bool}
    {w : Walk} {b : Badge} (hb : t.loadBadge root = .ok b) (hroot : t.rootFor i.root = root)
    (hrun : i.command = .run path dump) (hok : (t.invoke i answers now).1.code = 0)
    (hwalk : (t.desk root answers now).walkFor path = .ok w) :
    (t.invoke i answers now).2.loadBadge root = .ok (b.applyAll w.sent) := by
  obtain ⟨b', hmakes, hb'⟩ := invoke_state hroot hok fun c hc => by
    rw [hrun] at hc
    cases hc with
    | looked hlooks => cases hlooks
    | counted _ _ _ _ => exact ⟨_, rfl⟩
  rw [hrun] at hmakes
  cases hmakes with
  | @counted s b'' _ text _ page hs htext hpage hload =>
    obtain rfl : b = b'' := Except.ok.inj (hb.symm.trans (loadBadge_desk.1 hload))
    obtain rfl := Except.ok.inj (hwalk.symm.trans (Desk.walkFor_eq hs htext hpage))
    exact hb'

/-- **After a reset that went well** nothing is counted. -/
theorem loadBadge_reset {i : Invocation} {answers : String → Answer} {now : Instant} (hroot : t.rootFor i.root = root)
    (hreset : i.command = .resetCounter) (hok : (t.invoke i answers now).1.code = 0) :
    (t.invoke i answers now).2.loadBadge root = .ok .zero := by
  obtain ⟨b', hmakes, hb'⟩ := invoke_state hroot hok fun c hc => by
    rw [hreset] at hc
    cases hc with
    | looked hlooks => cases hlooks
    | zeroed _ => exact ⟨_, rfl⟩
  rw [hreset] at hmakes
  cases hmakes with
  | zeroed _ => exact hb'

/-- **What is stored is what is owed, as far as it can be counted.** -/
theorem Counts.stored (h : Counts root t rs u) {b₀ : Badge} (hb₀ : t.loadBadge root = .ok b₀) :
    ∃ b, u.loadBadge root = .ok b ∧ b.total = min (owed b₀.total (rs.map Reckoning.booking)) maxCount := by
  induction h with
  | nil =>
    rw [List.map_nil, owed_nil]
    exact ⟨b₀, hb₀, (Nat.min_eq_left b₀.total_le).symm⟩
  | others _ hstate ih =>
    obtain ⟨b, hb, htotal⟩ := ih
    exact ⟨b, hstate ▸ hb, htotal⟩
  | @run rs u _ i answers now path dump w hroot hrun hok hwalk ih =>
    obtain ⟨b, hb, htotal⟩ := ih
    refine ⟨_, loadBadge_run hb hroot hrun hok hwalk, ?_⟩
    rw [Badge.total_applyAll htotal, (Desk.even_walkFor hwalk).owed_sent, List.map_append, List.map_singleton,
      Reckoning.booking, owed_concat_more]
  | @reset rs u _ i answers now hroot hreset hok _ =>
    refine ⟨.zero, loadBadge_reset hroot hreset hok, ?_⟩
    rw [List.map_append, List.map_singleton, Reckoning.booking, owed_concat_anew, Nat.zero_min]
    rfl

end FileTree

open FileTree in
/-- **The total that is stored is exact, up to the greatest count.** Whatever badge is stored for a root at first, or
none: after any row of runs that went well, over any pages and with any handlers, and of resets, the total that is
stored is what all passes of the runs since the last reset reported, and what was stored at first if there was none, or
the greatest count if that is more. The same holds of messages, and it makes no difference how these are divided among
runs, each of which stores the badge for the next one. -/
theorem stored_total_exact {root : Path} {t u : FileTree} {rs : List Reckoning} {b₀ : Badge}
    (h : Counts root t rs u) (hb₀ : t.loadBadge root = .ok b₀) :
    (∃ b, u.loadBadge root = .ok b ∧ b.total = min (owed b₀.total (rs.map Reckoning.booking)) maxCount) ∧
    (∀ (b : Badge) (ms : List Message),
      (b.applyAll ms).total = min (owed b.total (ms.map Message.booking)) maxCount) ∧
    ∀ (b : Badge) (mss : List (List Message)),
      mss.foldlM (fun b ms => Badge.readYaml (b.applyAll ms).writeYaml) b = .ok (b.applyAll mss.flatten) :=
  ⟨h.stored hb₀, Badge.total_applyAll_self, Badge.foldlM_stored⟩

/-- A page with one element that a handler removes, and as many counted before as are given. -/
def asideFiles (counted : String) : FileTree :=
  ⟨[(["home", "page.yaml"], .file "hostname: shop.example\nbody:\n- tag: aside\n".toUTF8),
    (["home", ".uncookie", "config.yaml"],
      .file "handlers:\n- name: '*'\n  schema: '[\x7b\"action\":\"remove\",\"target\":\"aside\"\x7d]'\n".toUTF8),
    (["home", ".uncookie", "state.yaml"], .file counted.toUTF8), (["home", ".uncookie"], .directory),
    (["home"], .directory)], ["home"]⟩

/-- No more than this can be counted. -/
def fullFiles : FileTree := asideFiles "total_counter: 18446744073709551615"

def zeroFiles : FileTree := asideFiles "total_counter: 0"

def asideRoot : Path := .ofText "/home"

def runAside : Invocation := ⟨some "/home", false, .run "/home/page.yaml" false⟩

def resetTotal : Invocation := ⟨some "/home", false, .resetCounter⟩

theorem loadBadge_fullFiles : fullFiles.loadBadge asideRoot = .ok ⟨maxCount, Nat.le_refl _⟩ := by decide +kernel

theorem loadBadge_zeroFiles : zeroFiles.loadBadge asideRoot = .ok ⟨0, Nat.zero_le _⟩ := by decide +kernel

open FileTree in
/-- A run over the page takes the element off. -/
theorem counts_runAside {t u : FileTree} {rs : List Reckoning} (h : Counts asideRoot t rs u)
    (hu : u = fullFiles ∨ u = zeroFiles) :
    ∃ reports, Counts asideRoot t (rs ++ [.run reports]) (u.invoke runAside (fun _ => .unreachable) .epoch).2 ∧
      (Reckoning.run reports).booking = .more 1 := by
  have hwalk : ((u.desk asideRoot (fun _ => .unreachable) .epoch).walkFor "/home/page.yaml").toOption.map
      (fun w => (w.reports.map (·.summary.total)).sum) = some 1 := by
    rcases hu with rfl | rfl <;> decide +kernel
  have hok : (u.invoke runAside (fun _ => .unreachable) .epoch).1.code = 0 := by
    rcases hu with rfl | rfl <;> decide +kernel
  obtain ⟨w, hw, hsum⟩ := Option.map_eq_some_iff.1 hwalk
  cases hwalked : (u.desk asideRoot (fun _ => .unreachable) .epoch).walkFor "/home/page.yaml" with
  | error e => rw [hwalked] at hw; cases hw
  | ok w' =>
    rw [hwalked] at hw
    obtain rfl := Option.some.inj hw
    exact ⟨w'.reports, h.run rfl rfl hok hwalked, congrArg Booking.more hsum⟩

open FileTree in
/-- A run that finds no more room, a reset, and a run. -/
theorem stored_total_exact_asideFiles :
    ∃ rs u, Counts asideRoot fullFiles rs u ∧ rs.map Reckoning.booking = [.more 1, .anew, .more 1] ∧
      ∃ b, u.loadBadge asideRoot = .ok b ∧ b.total = 1 := by
  obtain ⟨first, hfirst, hone⟩ := counts_runAside .nil (.inl rfl)
  obtain ⟨⟨⟨n, hn⟩, hfull, htotal⟩, -⟩ := stored_total_exact hfirst loadBadge_fullFiles
  obtain rfl : n = maxCount := by
    rw [List.nil_append, List.map_singleton, hone] at htotal
    exact htotal.trans (by decide +kernel)
  have hreset : Counts asideRoot fullFiles [.run first, .reset]
      (fullFiles.invoke resetTotal (fun _ => .unreachable) .epoch).2 :=
    (hfirst.others (loadBadge_fullFiles.trans hfull.symm)).reset rfl rfl (by decide +kernel)
  obtain ⟨⟨⟨n, hn⟩, hzero, htotal⟩, -⟩ := stored_total_exact hreset loadBadge_fullFiles
  obtain rfl : n = 0 := htotal.trans (by rw [List.map_cons, hone]; decide +kernel)
  obtain ⟨last, hlast, hone'⟩ := counts_runAside (hreset.others (loadBadge_zeroFiles.trans hzero.symm)) (.inr rfl)
  obtain ⟨⟨b, hb, htotal⟩, -⟩ := stored_total_exact hlast loadBadge_fullFiles
  have hrow : [Reckoning.run first, .reset, .run last].map Reckoning.booking = [.more 1, .anew, .more 1] := by
    show [(Reckoning.run first).booking, .anew, (Reckoning.run last).booking] = _
    rw [hone, hone']
  exact ⟨_, _, hlast, hrow, b, hb, htotal.trans (congrArg (min · maxCount) (congrArg (owed _) hrow))⟩

end PageSweep
