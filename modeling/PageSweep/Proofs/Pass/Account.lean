import PageSweep.Proofs.Page.Uprooting
import PageSweep.Proofs.Pass.Trail

/-!
# The account of a pass

What a pass counts and tells is what it did: it counts an element for each that it took from its place, it
tells of each clearing of all cookies when it is carried out, and of its total at the end.

* `Op.apply_accounts`: what an operation adds to the account.
* `Accounts.trans`, `accounts_compose`: accounts add up along the way.
* `Sweeper.run_accounts`: the account of a whole pass.
-/

namespace PageSweep

/-- What is told of an operation when it is carried out. -/
def Op.told : Op → List Message
  | .clearAllCookies => [.clearAllCookies]
  | _ => []

def Deed.told (d : Deed) : List Message := d.op.told

namespace Scene

/-- **What operations add to the account of a pass**: the elements that were taken from their places are
counted one by one, and messages are sent. -/
structure Accounts (ns : List Nat) (ms : List Message) (s t : Scene) : Prop where
  page : s.page.Uproots ns t.page
  elements : t.counters.elements = s.counters.elements + ns.length
  sent : t.sent = s.sent ++ ms

variable {s t u : Scene} {ns ns' : List Nat} {ms ms' : List Message} {now : Instant}

/-- What leaves all elements in their places, counts none and tells nothing. -/
theorem Accounts.nothing (hpage : s.page.Uproots [] t.page)
    (hcounters : t.counters.elements = s.counters.elements) (hsent : t.sent = s.sent) :
    Accounts [] [] s t :=
  ⟨hpage, hcounters, by rw [hsent, List.append_nil]⟩

theorem Accounts.refl (s : Scene) : Accounts [] [] s s := .nothing (.refl _) rfl rfl

theorem Accounts.trans (h : Accounts ns ms s t) (h' : Accounts ns' ms' t u) :
    Accounts (ns ++ ns') (ms ++ ms') s u := by
  refine ⟨h.page.trans h'.page, ?_, ?_⟩
  · rw [h'.elements, h.elements, List.length_append, Nat.add_assoc]
  · rw [h'.sent, h.sent, List.append_assoc]

/-- The log is no part of the account. -/
theorem Accounts.report (h : Accounts ns ms s t) (e : Event) : Accounts ns ms s (t.report e) :=
  ⟨h.page, h.elements, h.sent⟩

/-! ### Operations -/

theorem uproots_setCookies (p : Page) (now : Instant) (directives : List String) :
    p.Uproots [] (setCookies p now directives) := by
  have hone : ∀ (p : Page) (d : String), p.Uproots [] (p.setCookie d now) := fun _ _ => .of_eq rfl rfl
  exact Page.uproots_foldl hone directives p

/-- Restyling what a selector finds. -/
theorem accounts_restyled {selector : String} {step : Page → Nat → Page}
    (h : ∀ (p : Page) (ref : Nat), p.Uproots [] (step p ref)) :
    Accounts [] [] s (s.onMatches selector fun refs s => s.withPage (refs.foldl step s.page)).2 := by
  rcases s.onMatches_ends selector fun refs s => s.withPage (refs.foldl step s.page) with ⟨e, hend⟩ | ⟨refs, -, hend⟩
  · rw [hend]
    exact .refl s
  · rw [hend]
    exact .nothing (Page.uproots_foldl h refs s.page) rfl rfl

theorem accounts_style (selector : String) (ds : List Declaration) :
    Accounts [] [] s (s.style selector ds).2 := by
  have hone : ∀ (ref : Nat) (p : Page) (d : Declaration), p.Uproots [] (p.setStyle ref d.1 d.2) :=
    fun ref p d => p.uproots_update ref (·.setStyle d.1 d.2)
  exact accounts_restyled fun p ref => Page.uproots_foldl (hone ref) ds p

/-- **Removal counts each element that it takes from its place.** -/
theorem accounts_remove (h : s.page.Numbered) (selector : String) :
    ∃ ns, Accounts ns [] s (s.remove selector).2 := by
  rcases s.onMatches_ends selector fun refs s =>
    (s.withPage (refs.foldl Page.remove s.page)).countElements refs.length with ⟨e, hend⟩ | ⟨refs, hfound, hend⟩
  · rw [remove, hend]
    exact ⟨[], .refl s⟩
  · rw [remove, hend]
    exact ⟨refs, Page.uproots_removeAll h (Page.query_sublist hfound), rfl, (List.append_nil _).symm⟩

theorem accounts_click (selector : String) : Accounts [] [] s (s.click selector).2 := by
  rcases s.click_ends selector with ⟨e, hend⟩ | hend | ⟨ref, -, hend⟩
  · rw [hend]
    exact .refl s
  · rw [hend]
    exact (Accounts.refl s).report _
  · rw [hend]
    exact .nothing (s.page.uproots_clicked ref) rfl rfl

theorem accounts_clearCookie (name : String) : Accounts [] [] s (s.clearCookie now name).2 := by
  have hpage := uproots_setCookies s.page now (deletions s.page.hostname name)
  obtain ⟨p, hp, hends⟩ := s.clearCookie_ends now name
  rw [← hp] at hpage
  rcases hends with hend | hend | hend
  · rw [hend]
    exact .nothing hpage rfl rfl
  · rw [hend]
    exact .nothing hpage rfl rfl
  · rw [hend]
    exact .nothing hpage rfl rfl

theorem accounts_clearAllCookies : Accounts [] [.clearAllCookies] s (s.clearAllCookies now).2 := by
  have hpage := uproots_setCookies s.page now ((headerNames s.page.cookieHeader).map deletion)
  simp only [clearAllCookies]
  generalize setCookies s.page now ((headerNames s.page.cookieHeader).map deletion) = page at hpage
  exact ⟨hpage, rfl, rfl⟩

theorem accounts_addGlobalStyle (selector : String) (ds : List Declaration) :
    Accounts [] [] s (s.addGlobalStyle selector ds).2 := by
  rcases s.addGlobalStyle_ends selector ds with ⟨-, hend⟩ | ⟨sheet, -, ⟨e, -, hend⟩ | ⟨sheet', -, hend⟩⟩
  · rw [hend]
    exact (Accounts.refl s).report _
  · rw [hend]
    exact .nothing (.of_eq rfl rfl) rfl rfl
  · rw [hend]
    exact .nothing (.of_eq rfl rfl) rfl rfl

theorem accounts_removeGlobalStyle (selector : String) :
    Accounts [] [] s (s.removeGlobalStyle selector).2 := by
  rcases s.removeGlobalStyle_ends selector with
    ⟨-, hend⟩ | ⟨sheet, -, ⟨-, hend⟩ | ⟨index, sheet', -, -, hend⟩⟩
  · rw [hend]
    exact (Accounts.refl s).report _
  · rw [hend]
    exact .nothing (.of_eq rfl rfl) rfl rfl
  · rw [hend]
    exact .nothing (.of_eq rfl rfl) rfl rfl

end Scene

open Scene in
/-- **What an operation adds to the account of a pass.** -/
theorem Op.apply_accounts {s : Scene} (h : s.page.Numbered) (op : Op) (now : Instant) :
    ∃ ns, Accounts ns op.told s (op.apply now s).2 := by
  cases op with
  | log text => exact ⟨[], (Accounts.refl s).report _⟩
  | click target => exact ⟨[], accounts_click target⟩
  | remove target => exact accounts_remove h target
  | hide target => exact ⟨[], accounts_style target _⟩
  | style target ds => exact ⟨[], accounts_style target ds⟩
  | removeClass target className =>
    exact ⟨[], accounts_restyled fun p ref => p.uproots_update ref (·.removeClass className)⟩
  | clearCookie name =>
    rw [Op.apply]
    exact ⟨[], accounts_clearCookie name⟩
  | clearAllCookies =>
    rw [Op.apply]
    exact ⟨[], accounts_clearAllCookies⟩
  | addGlobalStyle selector ds => exact ⟨[], accounts_addGlobalStyle selector ds⟩
  | removeGlobalStyle selector => exact ⟨[], accounts_removeGlobalStyle selector⟩
  | reload => exact ⟨[], .nothing (.of_eq rfl rfl) rfl rfl⟩
  | invalid reason => exact ⟨[], .refl s⟩

/-! ### Passes -/

/-- **Accounts add up along the chains of a pass**, on numbered pages. -/
theorem Scene.accounts_compose (began : Instant) : Chain.Composes began fun ops s t =>
    s.page.Numbered → t.page.Numbered ∧ ∃ ns, Accounts ns (ops.flatMap Op.told) s t where
  refl s h := ⟨h, [], .refl s⟩
  trans h h' hnum := by
    obtain ⟨hnum', ns, hns⟩ := h hnum
    obtain ⟨hnum'', ns', hns'⟩ := h' hnum'
    rw [List.flatMap_append]
    exact ⟨hnum'', ns ++ ns', hns.trans hns'⟩
  apply op ms s hnum := by
    rw [List.flatMap_singleton]
    exact ⟨hnum.apply op _, op.apply_accounts hnum _⟩
  report e h hnum := by
    obtain ⟨hnum', ns, hns⟩ := h hnum
    exact ⟨hnum', ns, hns.report e⟩

namespace Sweeper

/-- **What a pass carries out**, operation by operation. -/
def CarriesOut (i : Sweeper) (began : Instant) (schema : Json) (page : Page) (ds : List Deed) : Prop :=
  ∃ dss t, Chain.AllGo began i.maxDepth (collect i.maxDepth 0 schema).1
    ⟨0, page, i.styles, .zero, [], (collect i.maxDepth 0 schema).2⟩ dss t ∧ ds = dss.flatten

/-- What a pass tells of what it carried out: each clearing of all cookies, and then the total, if it is not
nothing. -/
def told (ds : List Deed) (s : Summary) : List Message :=
  ds.flatMap Deed.told ++ if s.total = 0 then [] else [.updateCounter s.total]

/-- **The account of a pass**: it tells what it did, and counts the elements that it took from their places. -/
theorem run_accounts (i : Sweeper) (began : Instant) (schema : Json) {p : Page} (h : p.Numbered) :
    let r := i.run began schema p
    ∃ ds, i.CarriesOut began schema p ds ∧ r.executed = ds.length ∧ r.scene.sent = told ds r.summary ∧
      ∃ ns, p.Uproots ns r.scene.page ∧ r.summary.elements = ns.length := by
  intro r
  obtain ⟨dss, r₀, log, hg, hexecuted, -, hrun⟩ := i.run_ends began schema p
  rw [show r = _ from hrun]
  obtain ⟨-, ns, hns⟩ := (Scene.accounts_compose began).along hg h
  rw [List.flatMap_map] at hns
  have hsent : r₀.scene.sent = dss.flatten.flatMap Deed.told := hns.sent.trans (List.nil_append _)
  have helements : r₀.scene.counters.elements = ns.length := hns.elements.trans (Nat.zero_add _)
  refine ⟨dss.flatten, ⟨dss, _, hg, rfl⟩, hexecuted, ?_, ns, hns.page, helements⟩
  rw [told, ← hsent]
  rfl

end Sweeper

end PageSweep
