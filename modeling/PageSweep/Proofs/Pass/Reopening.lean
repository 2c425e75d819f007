import PageSweep.Proofs.Page.Alike
import PageSweep.Proofs.Pass.Lockstep
import PageSweep.Proofs.Pass.Trail

/-!
# Pages made anew between passes

No pass can tell a page from the one that is made of its snapshot. Operations end the same on pages that
differ in numbers only, and leave such pages; so making the page anew before any passes of a row changes
nothing that the passes tell, and no snapshot.

* `Op.apply_alike`: one operation on both pages.
* `Scene.lockstep_alike`: so passes are in lockstep.
* `Sweeper.rounds_alike`: rows of passes.
* `reopening_unseen`: the pages that can be reached.
-/

namespace PageSweep

open Text

/-! ### One operation on both pages -/

/-- Outcomes on pages that differ in numbers only. -/
structure Outcome.Alike (o o' : Outcome) : Prop where
  result : o'.1 = o.1
  rest : o'.2 = o.2.withPage o'.2.page
  page : o.2.page.Alike o'.2.page

namespace Page

variable {p q : Page} {f : Nat → Nat} {refs : List Nat}

theorem Renumbers.setStyles (h : Renumbers f refs p q) (ds : List Declaration) {ref : Nat}
    (href : ref ∈ refs) :
    Renumbers f refs (ds.foldl (fun p d => p.setStyle ref d.1 d.2) p)
      (ds.foldl (fun p d => p.setStyle (f ref) d.1 d.2) q) := by
  induction ds generalizing p q with
  | nil => exact h
  | cons d ds ih => exact ih (h.update href (·.setStyle d.1 d.2))

theorem Alike.setCookies (h : p.Alike q) (now : Instant) (directives : List String) :
    (Scene.setCookies p now directives).Alike (Scene.setCookies q now directives) := by
  unfold Scene.setCookies
  induction directives generalizing p q with
  | nil => exact h
  | cons d ds ih =>
    refine ih ⟨h.hostname, ?_, h.headAttached, h.sheets, h.body⟩
    show q.jar.write d now = p.jar.write d now
    rw [h.jar]

theorem Alike.cookieHeader (h : p.Alike q) : q.cookieHeader = p.cookieHeader := by
  rw [Page.cookieHeader, Page.cookieHeader, h.jar]

theorem Alike.openSheet? (h : p.Alike q) (id : String) : q.openSheet? id = p.openSheet? id := by
  rw [Page.openSheet?, Page.openSheet?, h.headAttached, h.sheets]

theorem Alike.putSheet (h : p.Alike q) (id : String) (s : StyleSheet) :
    (p.putSheet id s).Alike (q.putSheet id s) := by
  refine ⟨h.hostname, h.jar, h.headAttached, ?_, h.body⟩
  show q.sheets.insert id s = p.sheets.insert id s
  rw [h.sheets]

end Page

namespace Scene

variable {s : Scene} {q : Page} (h : s.page.Alike q) (hp : s.page.Numbered) (hq : q.Numbered)
include h hp hq

/-- **Changes of what a selector finds.** -/
theorem onMatches_alike (selector : String) {change : List Nat → Scene → Scene}
    (hchange : ∀ f refs found, Page.Renumbers f refs s.page q → (∀ ref ∈ found, ref ∈ refs) →
      ∃ p' q', p'.Alike q' ∧ ∃ s', change found s = withPage s' p' ∧
        change (found.map f) (s.withPage q) = s'.withPage q') :
    (s.onMatches selector change).Alike ((s.withPage q).onMatches selector change) := by
  obtain ⟨f, refs, hr⟩ := h.renumbers hp hq
  have hquery := hr.query selector
  unfold onMatches
  rw [show (s.withPage q).page = q from rfl, hquery]
  cases hfound : s.page.query selector with
  | error e => exact ⟨rfl, rfl, h⟩
  | ok found =>
    have hmem : ∀ ref ∈ found, ref ∈ refs := by
      intro ref href
      obtain ⟨n, hn, rfl⟩ := Page.mem_of_query hfound ref href
      exact hr.mem n hn
    obtain ⟨p', q', hpq, s', hs', hq'⟩ := hchange f refs found hr hmem
    simp only [Except.map]
    rw [hs', hq', List.isEmpty_map]
    exact ⟨rfl, rfl, hpq⟩

theorem click_alike (selector : String) : (s.click selector).Alike ((s.withPage q).click selector) := by
  obtain ⟨f, refs, hr⟩ := h.renumbers hp hq
  have hquery := hr.query selector
  unfold click
  rw [show (s.withPage q).page = q from rfl, hquery]
  cases hfound : s.page.query selector with
  | error e => exact ⟨rfl, rfl, h⟩
  | ok found =>
    cases found with
    | nil => exact ⟨rfl, rfl, h⟩
    | cons first rest =>
      obtain ⟨n, hn, hfirst⟩ := Page.mem_of_query hfound first List.mem_cons_self
      have href : first ∈ refs := hfirst ▸ hr.mem n hn
      simp only [Except.map, List.map_cons]
      unfold Page.click
      rw [hr.isConnected href]
      by_cases hc : s.page.isConnected first = true
      · rw [if_pos hc, if_pos hc]
        exact ⟨rfl, rfl, (hr.clicked href).alike⟩
      · rw [if_neg hc, if_neg hc]
        exact ⟨rfl, rfl, h⟩

theorem remove_alike (selector : String) : (s.remove selector).Alike ((s.withPage q).remove selector) := by
  refine onMatches_alike h hp hq selector fun f refs found hr hmem => ?_
  have hstep : ∀ p q, Page.Renumbers f refs p q → ∀ ref ∈ refs,
      Page.Renumbers f refs (p.remove ref) (q.remove (f ref)) := fun _ _ hr _ href => hr.remove href
  refine ⟨_, _, (hr.foldl hstep hmem).alike, s.countElements found.length, rfl, ?_⟩
  rw [List.length_map]
  rfl

theorem style_alike (selector : String) (ds : List Declaration) :
    (s.style selector ds).Alike ((s.withPage q).style selector ds) := by
  refine onMatches_alike h hp hq selector fun f refs found hr hmem => ?_
  have hstep : ∀ p q, Page.Renumbers f refs p q → ∀ ref ∈ refs,
      Page.Renumbers f refs (ds.foldl (fun p d => p.setStyle ref d.1 d.2) p)
        (ds.foldl (fun p d => p.setStyle (f ref) d.1 d.2) q) := fun _ _ hr _ href => hr.setStyles ds href
  exact ⟨_, _, (hr.foldl hstep hmem).alike, s, rfl, rfl⟩

theorem removeClass_alike (selector className : String) :
    (s.removeClass selector className).Alike ((s.withPage q).removeClass selector className) := by
  refine onMatches_alike h hp hq selector fun f refs found hr hmem => ?_
  have hstep : ∀ p q, Page.Renumbers f refs p q → ∀ ref ∈ refs,
      Page.Renumbers f refs (p.removeClass ref className) (q.removeClass (f ref) className) :=
    fun _ _ hr _ href => hr.update href (·.removeClass className)
  exact ⟨_, _, (hr.foldl hstep hmem).alike, s, rfl, rfl⟩

omit hp hq

theorem clearCookie_alike (now : Instant) (name : String) :
    (s.clearCookie now name).Alike ((s.withPage q).clearCookie now name) := by
  have hpage := h.setCookies now (deletions s.page.hostname name)
  have hheader := hpage.cookieHeader
  unfold clearCookie
  simp only [show (s.withPage q).page = q from rfl, h.hostname, h.cookieHeader]
  generalize setCookies s.page now (deletions s.page.hostname name) = p' at hpage hheader
  generalize setCookies q now (deletions s.page.hostname name) = q' at hpage hheader
  rw [hheader]
  generalize (headerNames s.page.cookieHeader).contains name = present
  generalize (headerNames p'.cookieHeader).contains name = survived
  cases present with
  | false => exact ⟨rfl, rfl, hpage⟩
  | true =>
    cases survived with
    | false => exact ⟨rfl, rfl, hpage⟩
    | true => exact ⟨rfl, rfl, hpage⟩

theorem clearAllCookies_alike (now : Instant) :
    (s.clearAllCookies now).Alike ((s.withPage q).clearAllCookies now) := by
  unfold clearAllCookies
  simp only [show (s.withPage q).page = q from rfl, h.cookieHeader]
  generalize headerNames s.page.cookieHeader = names
  have hpage := h.setCookies now (names.map deletion)
  generalize setCookies s.page now (names.map deletion) = p' at hpage
  generalize setCookies q now (names.map deletion) = q' at hpage
  exact ⟨rfl, rfl, hpage⟩

theorem addGlobalStyle_alike (selector : String) (ds : List Declaration) :
    (s.addGlobalStyle selector ds).Alike ((s.withPage q).addGlobalStyle selector ds) := by
  unfold addGlobalStyle
  rw [show (s.withPage q).page = q from rfl, h.openSheet?]
  cases s.page.openSheet? styleSheetId with
  | none => exact ⟨rfl, rfl, h⟩
  | some sheet =>
    simp only
    cases sheet.appendRule (ruleText selector ds) with
    | error e => exact ⟨rfl, rfl, h.putSheet _ _⟩
    | ok sheet' => exact ⟨rfl, rfl, h.putSheet _ _⟩

theorem removeGlobalStyle_alike (selector : String) :
    (s.removeGlobalStyle selector).Alike ((s.withPage q).removeGlobalStyle selector) := by
  unfold removeGlobalStyle
  rw [show (s.withPage q).page = q from rfl, h.openSheet?]
  cases s.page.openSheet? styleSheetId with
  | none => exact ⟨rfl, rfl, h⟩
  | some sheet =>
    simp only
    cases sheet.find? selector with
    | none => exact ⟨rfl, rfl, h.putSheet _ _⟩
    | some index =>
      simp only
      cases sheet.deleteRule index with
      | error e => exact ⟨rfl, rfl, h.putSheet _ _⟩
      | ok sheet' => exact ⟨rfl, rfl, h.putSheet _ _⟩

end Scene

/-- **An operation cannot tell pages apart that differ in numbers only.** -/
theorem Op.apply_alike {s : Scene} {q : Page} (h : s.page.Alike q) (hp : s.page.Numbered)
    (hq : q.Numbered) (op : Op) (now : Instant) :
    (op.apply now s).Alike (op.apply now (s.withPage q)) := by
  cases op with
  | log text => exact ⟨rfl, rfl, h⟩
  | click target => exact Scene.click_alike h hp hq target
  | remove target => exact Scene.remove_alike h hp hq target
  | hide target => exact Scene.style_alike h hp hq target _
  | style target ds => exact Scene.style_alike h hp hq target ds
  | removeClass target className => exact Scene.removeClass_alike h hp hq target className
  | clearCookie name =>
    rw [Op.apply, Op.apply]
    exact Scene.clearCookie_alike h now name
  | clearAllCookies =>
    rw [Op.apply, Op.apply]
    exact Scene.clearAllCookies_alike h now
  | addGlobalStyle selector ds => exact Scene.addGlobalStyle_alike h selector ds
  | removeGlobalStyle selector => exact Scene.removeGlobalStyle_alike h selector
  | reload => exact ⟨rfl, rfl, h.hostname, h.jar, h.headAttached, h.sheets, h.body⟩
  | invalid reason => exact ⟨rfl, rfl, h⟩

/-! ### Passes on both pages -/

/-- Scenes whose pages differ in numbers only, and that are else the same. -/
structure Scene.Alike (s s' : Scene) : Prop where
  rest : s' = s.withPage s'.page
  page : s.page.Alike s'.page
  numbered : s.page.Numbered
  numbered' : s'.page.Numbered

/-- **No pass can tell such scenes apart.** -/
theorem Scene.lockstep_alike : Lockstep Scene.Alike := by
  refine ⟨fun {s s'} h op now => ?_, fun {s s'} h e => ?_, fun {s s'} h m => ?_, fun {s s'} h => ?_⟩
  · have ha := Op.apply_alike h.page h.numbered h.numbered' op now
    rw [← h.rest] at ha
    exact ⟨ha.result, ha.rest, ha.page, h.numbered.apply op now, h.numbered'.apply op now⟩
  · have hr : s'.report e = (s.report e).withPage s'.page := congrArg (Scene.report · e) h.rest
    exact ⟨hr, h.page, h.numbered, h.numbered'⟩
  · have hr : s'.send m = (s.send m).withPage s'.page := congrArg (Scene.send · m) h.rest
    exact ⟨hr, h.page, h.numbered, h.numbered'⟩
  · rw [h.rest]
    rfl

/-- What there is to see of a pass, and of the page that it leaves. -/
structure Seen where
  summary : Summary
  sent : List Message
  styles : Table String
  log : List Event
  snapshot : Snapshot

def Run.seen (r : Run) : Seen :=
  ⟨r.summary, r.scene.sent, r.scene.styles, r.scene.log, r.scene.page.snapshot⟩

theorem Run.Beside.seen {r r' : Run} (h : r.Beside Scene.Alike r') : r'.seen = r.seen := by
  have hsum := Scene.lockstep_alike.summary h
  have hsnap := h.scene.page.snapshot
  have hrest := h.scene.rest
  unfold Run.seen
  rw [hsum, hsnap, hrest]
  rfl

/-- A pass of a row: whether the page is made anew before it, its moment and its schema. -/
structure Round where
  anew : Bool
  began : Instant
  schema : Json

namespace Sweeper

variable {p q : Page}

theorem run_alike (i : Sweeper) (h : p.Alike q) (hp : p.Numbered) (hq : q.Numbered) (began : Instant)
    (schema : Json) : (i.run began schema p).Beside Scene.Alike (i.run began schema q) :=
  Scene.lockstep_alike.run rfl (fun _ => ⟨rfl, h, hp, hq⟩) began schema

/-- **A row of passes**, each on the page that the one before it left: what is seen of each, the sweeper that
stays, and the snapshot of the last page. -/
def rounds (i : Sweeper) : List Round → Page → List Seen × Sweeper × Snapshot
  | [], p => ([], i, p.snapshot)
  | t :: ts, p =>
    let r := i.run t.began t.schema (if t.anew then p.reopen else p)
    let (seen, i', s) := rounds (i.after r) ts r.scene.page
    (r.seen :: seen, i', s)

variable {A : Element → Prop}

/-- **Rows of passes** on pages that differ in numbers only, one with pages made anew and one without. -/
theorem rounds_alike (hA : ∀ e, A e → lower e.tag = e.tag) (i : Sweeper) (ts : List Round)
    (hp : p.Reachable A) (hhost : ∀ c ∈ p.hostname.toList, isBlank c = false) (h : p.Alike q)
    (hq : q.Numbered) : i.rounds ts p = i.rounds (ts.map fun t => { t with anew := false }) q := by
  induction ts generalizing i p q with
  | nil =>
    rw [List.map_nil, rounds, rounds, h.snapshot]
  | cons t ts ih =>
    -- The page that the pass runs on is like the one that was never made anew.
    have hpage : ∃ p', p' = (if t.anew then p.reopen else p) ∧ p'.Reachable A ∧ p'.Alike q ∧
        p'.hostname = p.hostname := by
      cases t.anew with
      | false => exact ⟨p, rfl, hp, h, rfl⟩
      | true => exact ⟨p.reopen, rfl, .ofSnapshot _, ((hp.storable hA hhost).alike_reopen.symm).trans h, rfl⟩
    obtain ⟨p', hp', hreach, halike, hsame⟩ := hpage
    have hb := i.run_alike halike hreach.numbered hq t.began t.schema
    obtain ⟨ops, htrail, -, -⟩ := i.run_trail t.began t.schema p'
    have hafter : i.after (i.run t.began t.schema q) = i.after (i.run t.began t.schema p') := by
      rw [after, after, hb.scene.rest]
      rfl
    have hnext := ih (i.after (i.run t.began t.schema p')) (hreach.trail htrail)
      (by rw [htrail.hostname, hsame]; exact hhost) hb.scene.page hb.scene.numbered'
    rw [List.map_cons, rounds, rounds]
    simp only [Bool.false_eq_true, if_false]
    rw [← hp', hb.seen, hafter, hnext]

end Sweeper

/-- **A snapshot keeps all that passes can see.** A page that was reached on a host without blanks has the
snapshot of the page that is made of its snapshot, and all passes see the same on both and leave the same
to see. So in a row of passes it makes no difference before which of them the page is made anew. -/
theorem reopening_unseen {p : Page} (h : p.Reachable fun e => ∃ tag attrs, e = .ofTag tag attrs)
    (hhost : ∀ c ∈ p.hostname.toList, isBlank c = false) :
    p.reopen.snapshot = p.snapshot ∧
    (∀ (i : Sweeper) (began : Instant) (schema : Json),
      (i.run began schema p.reopen).seen = (i.run began schema p).seen ∧
        i.after (i.run began schema p.reopen) = i.after (i.run began schema p)) ∧
    ∀ (i : Sweeper) (ts : List Round),
      i.rounds ts p = i.rounds (ts.map fun t => { t with anew := false }) p := by
  have hA : ∀ e : Element, (∃ tag attrs, e = .ofTag tag attrs) → lower e.tag = e.tag := by
    rintro e ⟨tag, attrs, rfl⟩
    exact lower_lower tag
  have halike := (h.storable hA hhost).alike_reopen
  refine ⟨halike.snapshot, fun i began schema => ?_, fun i ts => ?_⟩
  · have hb := i.run_alike halike h.numbered p.numbered_reopen began schema
    refine ⟨hb.seen, ?_⟩
    rw [Sweeper.after, Sweeper.after, hb.scene.rest]
    rfl
  · exact Sweeper.rounds_alike hA i ts h hhost (.refl p) h.numbered

/-- A page with two elements whose first one was removed, so that making it anew numbers the other. -/
def thinnedPage : Page :=
  (((Page.new "shop.example").add none "Div" [("id", "banner")]).1.add none "p" [("class", "note")]).1.remove 1

theorem reopening_unseen_thinnedPage :
    let i := Sweeper.new 32
    let schema := Json.obj [("action", .str "remove"), ("target", .str ".note")]
    (thinnedPage.Reachable fun e => ∃ tag attrs, e = .ofTag tag attrs) ∧
    thinnedPage.reopen.body ≠ thinnedPage.body ∧ thinnedPage.reopen.snapshot = thinnedPage.snapshot ∧
    (i.run .epoch schema thinnedPage.reopen).seen = (i.run .epoch schema thinnedPage).seen ∧
    i.rounds [⟨true, .epoch, schema⟩, ⟨true, .epoch, schema⟩] thinnedPage =
      i.rounds [⟨false, .epoch, schema⟩, ⟨false, .epoch, schema⟩] thinnedPage := by
  intro i schema
  have hreach : thinnedPage.Reachable fun e => ∃ tag attrs, e = .ofTag tag attrs :=
    ((((Page.Reachable.new "shop.example").append none ⟨"Div", [("id", "banner")], rfl⟩).append none
      ⟨"p", [("class", "note")], rfl⟩).remove 1)
  have hall : thinnedPage.hostname.toList.all (fun c => !isBlank c) = true := by decide
  have hhost : ∀ c ∈ thinnedPage.hostname.toList, isBlank c = false := fun c hc => by
    simpa using List.all_eq_true.1 hall c hc
  obtain ⟨hsnap, hpass, hrow⟩ := reopening_unseen hreach hhost
  refine ⟨hreach, by decide, hsnap, (hpass i .epoch schema).1, ?_⟩
  exact hrow i [⟨true, .epoch, schema⟩, ⟨true, .epoch, schema⟩]

end PageSweep
