import PageSweep.Pass.Effect
import PageSweep.Proofs.Page.Numbered

/-!
# How effects end

An effect on a scene ends in one of a few ways, each with its outcome and the scene that it leaves. What is shown of
an effect is shown of each of these ways, so that nothing else depends on how an effect is carried out.

* `Scene.onMatches_ends`, `Scene.click_ends`: effects on elements.
* `Scene.clearCookie_ends`: the deletion of a cookie.
* `Scene.addGlobalStyle_ends`, `Scene.removeGlobalStyle_ends`: effects on the rules of passes.
-/

namespace PageSweep.Scene

variable {s : Scene}

/-- **A change of what a selector finds** fails if there is no such selector. -/
theorem onMatches_ends (selector : String) (change : List Nat → Scene → Scene) :
    (∃ e, s.onMatches selector change = (.error e, s)) ∨
      ∃ refs, s.page.query selector = .ok refs ∧
        s.onMatches selector change = (.ok (!refs.isEmpty), change refs s) := by
  unfold onMatches
  cases s.page.query selector with
  | error e => exact .inl ⟨e, rfl⟩
  | ok refs => exact .inr ⟨refs, rfl, rfl⟩

/-- **A click** fails, or finds nothing, or reaches an element of the body. -/
theorem click_ends (selector : String) :
    (∃ e, s.click selector = (.error e, s)) ∨
      s.click selector = (.ok false, s.report (.clickTargetMissing selector)) ∨
      ∃ ref, s.page.isConnected ref = true ∧
        s.click selector = (.ok true, s.withPage (s.page.clicked ref)) := by
  unfold click
  cases s.page.query selector with
  | error e => exact .inl ⟨e, rfl⟩
  | ok refs =>
    cases refs with
    | nil => exact .inr (.inl rfl)
    | cons first rest =>
      cases hclick : s.page.click first with
      | error e => exact .inl ⟨e, by simp only [hclick]⟩
      | ok p =>
        obtain ⟨hconnected, rfl⟩ := Page.click_eq_ok hclick
        exact .inr (.inr ⟨first, hconnected, by simp only [hclick]⟩)

/-- **The deletion of a cookie** carries out its directives, whatever is made of them afterwards. -/
theorem clearCookie_ends (now : Instant) (name : String) :
    ∃ p, p = setCookies s.page now (deletions s.page.hostname name) ∧
      (s.clearCookie now name = (.ok false, s.withPage p) ∨
        s.clearCookie now name = (.ok false, (s.withPage p).report (.cookieSurvived name)) ∨
        s.clearCookie now name = (.ok true, (s.withPage p).countCookies 1)) := by
  unfold clearCookie
  generalize setCookies s.page now (deletions s.page.hostname name) = p
  generalize (headerNames s.page.cookieHeader).contains name = present
  refine ⟨p, rfl, ?_⟩
  cases present with
  | false => exact .inl rfl
  | true =>
    simp only [Bool.not_true, Bool.false_eq_true, if_false]
    split
    · exact .inr (.inl rfl)
    · exact .inr (.inr rfl)

/-- **A rule that is put in**: there is no head, or the stylesheet is opened and the rule is put in at its end, if it
can be read. -/
theorem addGlobalStyle_ends (selector : String) (ds : List Declaration) :
    s.page.openSheet? styleSheetId = none ∧
        s.addGlobalStyle selector ds = (.ok false, s.report (.styleNotAdded selector)) ∨
      ∃ sheet, s.page.openSheet? styleSheetId = some sheet ∧
        ((∃ e, sheet.appendRule (ruleText selector ds) = .error e ∧
            s.addGlobalStyle selector ds = (.error e, s.withPage (s.page.putSheet styleSheetId sheet))) ∨
          ∃ sheet', sheet.appendRule (ruleText selector ds) = .ok sheet' ∧
            s.addGlobalStyle selector ds = (.ok true, { s.withPage (s.page.putSheet styleSheetId sheet') with
              styles := s.styles.insert selector (ruleText selector ds) })) := by
  unfold addGlobalStyle
  cases hopened : s.page.openSheet? styleSheetId with
  | none => exact .inl ⟨rfl, rfl⟩
  | some sheet =>
    refine .inr ⟨sheet, rfl, ?_⟩
    cases happend : sheet.appendRule (ruleText selector ds) with
    | error e => exact .inl ⟨e, rfl, by simp only [happend]⟩
    | ok sheet' => exact .inr ⟨sheet', rfl, by simp only [happend]⟩

/-- **A rule that is taken out**: there is no head, or the stylesheet is opened and the first rule of the selector is
taken out, if there is one. It never fails. -/
theorem removeGlobalStyle_ends (selector : String) :
    s.page.openSheet? styleSheetId = none ∧
        s.removeGlobalStyle selector = (.ok false, s.report (.styleNotRemoved selector)) ∨
      ∃ sheet, s.page.openSheet? styleSheetId = some sheet ∧
        (sheet.find? selector = none ∧
            s.removeGlobalStyle selector = (.ok false, s.withPage (s.page.putSheet styleSheetId sheet)) ∨
          ∃ index sheet', sheet.find? selector = some index ∧ sheet.deleteRule index = .ok sheet' ∧
            s.removeGlobalStyle selector = (.ok true, { s.withPage (s.page.putSheet styleSheetId sheet') with
              styles := s.styles.erase selector })) := by
  unfold removeGlobalStyle
  cases hopened : s.page.openSheet? styleSheetId with
  | none => exact .inl ⟨rfl, rfl⟩
  | some sheet =>
    refine .inr ⟨sheet, rfl, ?_⟩
    cases hfind : sheet.find? selector with
    | none => exact .inl ⟨rfl, by simp only [hfind]⟩
    | some index =>
      -- A rule that was found is there to be deleted.
      obtain ⟨hlt, -⟩ := List.findIdx?_eq_some_iff_getElem.1 hfind
      have hdelete := StyleSheet.deleteRule_eq_ok.2 ⟨hlt, rfl⟩
      exact .inr ⟨index, _, rfl, hdelete, by simp only [hfind, hdelete]⟩

end PageSweep.Scene
