import PageSweep.Proofs.Pass.ClearingText
import PageSweep.Proofs.Pass.Trail

/-!
# Clearing a cookie

What the directives of a clearing leave of a jar, and what scripts see of it. The pass reads off what they see
whether the clearing helped: it did if the name was there before and is not there any more.

* `CookieJar.foldl_write`, `Scene.page_clearCookie_filter`: what a clearing leaves.
* `Scene.clearCookie_outcome`: how a clearing ends.
* `clearCookie_reach`: which cookies a clearing takes away, and when it counts.
* `clearCookie_spares_others`: which targets take away no cookie of another name.
-/

namespace PageSweep

open Text CookieAttribute

/-! ### What they leave of a jar -/

namespace CookieJar

/-- **Writes that have expired**, one after the other, take away the cookies of their keys. -/
theorem foldl_write {host : String} {now : Instant} {keys : List Cookie} {texts : List String}
    (h : List.Forall₂ (fun key text => CookieWrite.ofDirective? host text now = some ⟨key, true⟩) keys texts)
    {jar : CookieJar} (hjar : jar.host = host) : texts.foldl (fun jar text => jar.write text now) jar =
      { jar with cookies := jar.cookies.filter fun c => !keys.any (c.sameKey ·) } := by
  induction h generalizing jar with
  | nil => simp
  | @cons key text keys texts hwrite _ ih =>
    have hone : jar.write text now = jar.discard key := by
      unfold write
      rw [hjar, hwrite]
      rfl
    have hhost : (jar.discard key).host = host := hjar
    rw [List.foldl_cons, hone, ih hhost]
    simp [discard, List.filter_filter, Bool.and_comm]

end CookieJar

theorem Scene.setCookies_eq (p : Page) (now : Instant) (texts : List String) : setCookies p now texts =
    { p with jar := texts.foldl (fun jar text => jar.write text now) p.jar } := by
  unfold setCookies
  induction texts generalizing p with
  | nil => rfl
  | cons text texts ih => exact ih _

/-- Whether a host that clears the cookies of a name reaches one. -/
def Cookie.isInReach (host name : String) (c : Cookie) : Bool :=
  c.name == name && c.path == rootPath && (Host.domains host).contains c.domain

section

variable {s : Scene} {now : Instant} {target name value : String} (hjar : s.page.jar.host = lower s.page.hostname)
  (hblank : ∀ c ∈ s.page.hostname.toList, isBlank c = false) (hsemicolon : ';' ∉ s.page.hostname.toList)
  (hnow : 0 ≤ now.seconds) (htarget : CookieDirective.ofText? (target ++ "=").toList = some ⟨name, value, []⟩)

include hjar hblank hsemicolon hnow htarget

/-- The writes of a clearing, one for each directive. -/
theorem Scene.deletions_writes : List.Forall₂ (fun key text =>
    CookieWrite.ofDirective? s.page.jar.host text now = some ⟨key, true⟩)
      ((domainTexts s.page.hostname).map fun x => ⟨name, value, x.bind storedDomain?, rootPath⟩)
      (deletions s.page.hostname target) := by
  rw [List.forall₂_map_left_iff]
  have htaken := fun x hx => domainTexts_taken (x := x) hblank hx
  refine ((List.forall₂_and_left _ _).2 ⟨htaken, deletions_forms hsemicolon target⟩).imp fun x text h => ?_
  obtain ⟨hx, piece, hf⟩ := h
  rw [hjar]
  exact CookieDirective.ofDirective?_form hf htarget (fun y hy => (hx y hy).1) (fun y hy => (hx y hy).2) hnow

/-- **No directive is turned down.** -/
theorem Scene.deletions_taken : ∀ text ∈ deletions s.page.hostname target,
    ∃ w, CookieWrite.ofDirective? s.page.jar.host text now = some w := by
  have h := deletions_writes hjar hblank hsemicolon hnow htarget
  generalize deletions s.page.hostname target = texts at h ⊢
  generalize (domainTexts s.page.hostname).map _ = keys at h
  induction h with
  | nil => exact fun _ htext => absurd htext List.not_mem_nil
  | cons hwrite _ ih => exact List.forall_mem_cons.2 ⟨⟨_, hwrite⟩, ih⟩

/-- **What a clearing does to a page**: the cookies within its reach are gone. -/
theorem Scene.page_clearCookie_filter : (s.clearCookie now target).2.page = { s.page with jar :=
    { s.page.jar with cookies := s.page.jar.cookies.filter fun c => !c.isInReach s.page.hostname name } } := by
  have hreach : ∀ c : Cookie, ((domainTexts s.page.hostname).map fun x =>
      (⟨name, value, x.bind storedDomain?, rootPath⟩ : Cookie)).any (c.sameKey ·) =
        c.isInReach s.page.hostname name := by
    intro c
    rw [Bool.eq_iff_iff, List.any_map, List.any_eq_true]
    simp only [Function.comp_apply, Cookie.sameKey, Cookie.isInReach, Bool.and_eq_true, beq_iff_eq,
      List.contains_iff_mem, ← mem_domains_iff hblank]
    constructor
    · rintro ⟨x, hx, ⟨hname, hdomain⟩, hpath⟩
      exact ⟨⟨hname, hpath⟩, x, hx, hdomain.symm⟩
    · rintro ⟨⟨hname, hpath⟩, x, hx, hdomain⟩
      exact ⟨x, hx, ⟨hname, hdomain.symm⟩, hpath⟩
  rw [page_clearCookie_eq, setCookies_eq,
    CookieJar.foldl_write (deletions_writes hjar hblank hsemicolon hnow htarget) rfl]
  simp only [hreach]

end

/-! ### What scripts see of it -/

/-- **How a clearing ends** is read off what scripts see before and after. -/
theorem Scene.clearCookie_outcome {s : Scene} {now : Instant} {name : String} {gone : Bool}
    (h : ((headerNames s.page.cookieHeader).contains name &&
      !(headerNames (s.clearCookie now name).2.page.cookieHeader).contains name) = gone) :
    (s.clearCookie now name).1 = .ok gone ∧ (s.clearCookie now name).2.counters =
      if gone then { s.counters with cookies := s.counters.cookies + 1 } else s.counters := by
  rw [page_clearCookie_eq] at h
  subst h
  unfold clearCookie
  generalize setCookies s.page now (deletions s.page.hostname name) = page
  generalize (headerNames s.page.cookieHeader).contains name = before
  simp only
  generalize (headerNames page.cookieHeader).contains name = after
  cases before with
  | false => exact ⟨rfl, rfl⟩
  | true => cases after <;> exact ⟨rfl, rfl⟩

/-- Whether scripts find a name in what they read of a jar. -/
theorem contains_headerNames {jar : CookieJar} (h : ∀ c ∈ jar.cookies, c.IsReadable) (name : String) :
    (headerNames jar.header).contains name = jar.visible.any (·.name == name) := by
  rw [headerNames_header fun c hc => h c (List.mem_of_mem_filter hc), List.contains_map]
  exact congrArg jar.visible.any (funext fun c => BEq.comm)

/-- **The reach of a clearing.** On the page of a host without blanks and semicolons, from 1970 on, clearing a name
takes away the cookies of that name at the root path for the host alone, for the whole host or for its last two
labels, and leaves all others as they are; no directive is turned down. It ends well and counts just if scripts
saw a cookie of the name and all that they saw were within its reach. -/
theorem clearCookie_reach {A : Element → Prop} {s : Scene} (hpage : s.page.Reachable A)
    (hblank : ∀ c ∈ s.page.hostname.toList, isBlank c = false) (hsemicolon : ';' ∉ s.page.hostname.toList)
    (hreadable : ∀ c ∈ s.page.jar.cookies, c.IsReadable) {now : Instant} (hnow : 0 ≤ now.seconds) {name : String}
    (hname : IsCookieName name) :
    let host := s.page.hostname
    let r := s.clearCookie now name
    let gone := (∃ c ∈ s.page.jar.visible, c.name = name) ∧
      ∀ c ∈ s.page.jar.visible, c.name = name → c.isInReach host name = true
    r.2.page = { s.page with jar :=
        { s.page.jar with cookies := s.page.jar.cookies.filter fun c => !c.isInReach host name } } ∧
      (∀ text ∈ Scene.deletions host name, ∃ w, CookieWrite.ofDirective? s.page.jar.host text now = some w) ∧
      (gone → r.1 = .ok true ∧ r.2.counters = { s.counters with cookies := s.counters.cookies + 1 }) ∧
      (¬gone → r.1 = .ok false ∧ r.2.counters = s.counters) := by
  intro host r gone
  -- The clearing is kept as it is written, so that no step below unfolds it.
  have hr : r = s.clearCookie now name := rfl
  clear_value r
  subst hr
  obtain ⟨value, htarget⟩ := CookieDirective.ofText?_of_isCookieName hname
  have hafter := Scene.page_clearCookie_filter hpage.jar_host hblank hsemicolon hnow htarget
  -- The outcome is read off what scripts see before and after.
  have hbefore : (headerNames s.page.cookieHeader).contains name = s.page.jar.visible.any (·.name == name) :=
    contains_headerNames hreadable name
  have hleft : (headerNames (s.clearCookie now name).2.page.cookieHeader).contains name =
      s.page.jar.visible.any fun c => c.name == name && !c.isInReach host name := by
    rw [hafter, Page.cookieHeader, contains_headerNames fun c hc =>
      hreadable c (List.mem_of_mem_filter hc)]
    simp only [CookieJar.visible, List.filter_filter, List.any_filter]
    exact congrArg (s.page.jar.cookies.any ·) (funext fun c => by ac_rfl)
  obtain ⟨ended, hended⟩ : ∃ ended, ((headerNames s.page.cookieHeader).contains name &&
    !(headerNames (s.clearCookie now name).2.page.cookieHeader).contains name) = ended := ⟨_, rfl⟩
  have hgone : ended = true ↔ gone := by
    rw [← hended, hbefore, hleft]
    simp [gone]
  have hout := Scene.clearCookie_outcome hended
  refine ⟨hafter, Scene.deletions_taken hpage.jar_host hblank hsemicolon hnow htarget, fun h => ?_, fun h => ?_⟩
  · have htrue : ended = true := hgone.2 h
    subst htrue
    exact hout
  · have hfalse : ended = false := Bool.eq_false_iff.2 (mt hgone.1 h)
    subst hfalse
    exact hout

/-- A shop in its own letters: scripts see three cookies of the name and one of another, and a fourth lies deeper. -/
theorem clearCookie_reach_shop :
    let cookies : List Cookie := [⟨"sid", "1", none, "/"⟩, ⟨"sid", "2", some ".example.com", "/"⟩,
      ⟨"lang", "en", none, "/"⟩, ⟨"sid", "3", some "www.example.com", "/"⟩, ⟨"sid", "4", none, "/cart"⟩]
    let s : Scene := ⟨(Page.ofSnapshot ⟨"www.Example.com", "/", true, cookies, .empty, .nil⟩).1, .empty, .zero, [], []⟩
    let r := s.clearCookie .epoch "sid"
    (∀ c ∈ s.page.jar.cookies, c.IsReadable) ∧ IsCookieName "sid" ∧ r.1 = .ok true ∧ r.2.counters = ⟨0, 1⟩ ∧
      r.2.page.jar.cookies = [⟨"lang", "en", none, "/"⟩, ⟨"sid", "4", none, "/cart"⟩] := by
  intro cookies s r
  have hreadable : ∀ c ∈ s.page.jar.cookies, c.IsReadable := by decide +kernel
  have hname : IsCookieName "sid" := by decide
  have hseen : (∃ c ∈ s.page.jar.visible, c.name = "sid") ∧
      ∀ c ∈ s.page.jar.visible, c.name = "sid" → c.isInReach s.page.hostname "sid" = true := by decide +kernel
  have hleft : (s.page.jar.cookies.filter fun c => !c.isInReach s.page.hostname "sid") =
      [⟨"lang", "en", none, "/"⟩, ⟨"sid", "4", none, "/cart"⟩] := by decide +kernel
  have hpage : s.page.Reachable fun _ => True := .ofSnapshot _
  have hhost : s.page.hostname = "www.Example.com" := rfl
  have hzero : s.counters = ⟨0, 0⟩ := rfl
  have hr : r = s.clearCookie .epoch "sid" := rfl
  clear_value s r
  subst hr
  have hnow : 0 ≤ Instant.epoch.seconds := Int.le_refl 0
  obtain ⟨hafter, -, hgone, -⟩ :=
    clearCookie_reach hpage (hhost ▸ isBlank_of_all (by decide)) (hhost ▸ by decide) hreadable hnow hname
  obtain ⟨hends, hcounts⟩ := hgone hseen
  refine ⟨hreadable, hname, hends, ?_, ?_⟩
  · rw [hcounts, hzero]
  · rw [hafter]
    exact hleft

/-! ### Cookies of other names -/

/-- Whether an operation takes away no cookie but those of a name, whatever page it comes to. -/
def Op.SparesOthers (op : Op) (name : String) : Prop :=
  ∀ s : Scene, (s.page.Reachable fun _ => True) → ∀ now : Instant,
    ∀ c ∈ s.page.jar.cookies, c.name ≠ name → c ∈ (op.apply now s).2.page.jar.cookies

/-- Directives change nothing but the cookies of a jar. -/
theorem CookieJar.foldl_write_cookies (jar : CookieJar) (now : Instant) (texts : List String) :
    texts.foldl (fun jar text => jar.write text now) jar =
      { jar with cookies := (texts.foldl (fun jar text => jar.write text now) jar).cookies } := by
  induction texts generalizing jar with
  | nil => rfl
  | cons text texts ih =>
    have h := ih (jar.write text now)
    rw [host_write, pagePath_write] at h
    exact h

/-- Directives that concern one name spare the cookies of all others. -/
theorem CookieJar.foldl_write_others {name? : Option String} {texts : List String}
    (h : ∀ text ∈ texts, CookieDirective.nameIn? text = name?) (now : Instant) (jar : CookieJar) :
    (texts.foldl (fun jar text => jar.write text now) jar).cookies.filter (fun c => some c.name != name?) =
      jar.cookies.filter fun c => some c.name != name? := by
  induction texts generalizing jar with
  | nil => rfl
  | cons text texts ih =>
    obtain ⟨htext, hrest⟩ := List.forall_mem_cons.1 h
    exact (ih hrest (jar.write text now)).trans (htext ▸ jar.write_others text now)

theorem Op.page_clearCookie_others {target : String} {s : Scene} {now : Instant} {after : Page}
    (h : ((Op.clearCookie target).apply now s).2.page = after) :
    after = { s.page with jar := { s.page.jar with cookies := after.jar.cookies } } ∧
      after.jar.cookies.filter (fun c => some c.name != CookieDirective.nameIn? (target ++ "=")) =
        s.page.jar.cookies.filter fun c => some c.name != CookieDirective.nameIn? (target ++ "=") := by
  have hnamed : ∀ text ∈ Scene.deletions s.page.hostname target,
      CookieDirective.nameIn? text = CookieDirective.nameIn? (target ++ "=") :=
    fun _ htext => Scene.nameIn?_of_mem_deletions htext
  rw [Op.apply, Scene.page_clearCookie_eq, Scene.setCookies_eq] at h
  generalize Scene.deletions s.page.hostname target = texts at h hnamed
  have hcookies := s.page.jar.foldl_write_cookies now texts
  have hothers := CookieJar.foldl_write_others hnamed now s.page.jar
  generalize texts.foldl (fun jar text => jar.write text now) s.page.jar = jar at h hcookies hothers
  subst h
  exact ⟨congrArg (fun jar => { s.page with jar := jar }) hcookies, hothers⟩

theorem Op.sparesOthers_of_nameIn? {target : String}
    (h : ∀ name ∈ CookieDirective.nameIn? (target ++ "="), name = target) :
    (Op.clearCookie target).SparesOthers target := by
  intro s _ now c hc hname
  have hother : (some c.name != CookieDirective.nameIn? (target ++ "=")) = true := by
    rw [bne_iff_ne]
    exact fun he => hname (h c.name he.symm)
  have hmem : c ∈ s.page.jar.cookies.filter fun c => some c.name != CookieDirective.nameIn? (target ++ "=") :=
    List.mem_filter.2 ⟨hc, hother⟩
  rw [← (page_clearCookie_others rfl).2] at hmem
  exact List.mem_of_mem_filter hmem

/-- The page of a shop with one cookie, which is for its host alone. -/
def shopPage (name : String) : Page :=
  let page := Page.new "shop.example"
  { page with jar := page.jar.insert ⟨name, "1", none, rootPath⟩ }

theorem reachable_shopPage (name : String) : (shopPage name).Reachable fun _ => True :=
  .insertCookie (.new "shop.example") ⟨name, "1", none, rootPath⟩

theorem cookies_shopPage (name : String) : (shopPage name).jar.cookies = [⟨name, "1", none, rootPath⟩] := rfl

/-- **A target that names a cookie clears it**, in the shop. -/
theorem Scene.clearCookie_shopPage {target name value : String} {s : Scene} (hs : s.page = shopPage name)
    (htarget : CookieDirective.ofText? (target ++ "=").toList = some ⟨name, value, []⟩) :
    (s.clearCookie .epoch target).2.page.jar.cookies = [] := by
  have hhost : s.page.hostname = "shop.example" := congrArg Page.hostname hs
  have hpage : s.page.Reachable fun _ => True := hs ▸ reachable_shopPage name
  have hcookies : s.page.jar.cookies = [⟨name, "1", none, rootPath⟩] := hs ▸ cookies_shopPage name
  rw [page_clearCookie_filter hpage.jar_host (hhost ▸ isBlank_of_all (by decide)) (hhost ▸ by decide)
    (Int.le_refl 0) htarget, hcookies]
  simp [Cookie.isInReach, Host.domains]

/-- A target without semicolons that spares all others names no other. -/
theorem Op.nameIn?_of_sparesOthers {target : String} (hs : ';' ∉ target.toList)
    (h : (Op.clearCookie target).SparesOthers target) :
    ∀ name ∈ CookieDirective.nameIn? (target ++ "="), name = target := by
  intro name hname
  obtain ⟨value, hvalue⟩ := CookieDirective.ofText?_target hs
  rw [← CookieDirective.nameIn?_target hs, show CookieDirective.nameIn? (target ++ "=") = some name from hname,
    Option.map_some] at hvalue
  by_contra hne
  have hkept := h ⟨shopPage name, .empty, .zero, [], []⟩ (reachable_shopPage name) .epoch
    ⟨name, "1", none, rootPath⟩ List.mem_cons_self hne
  rw [Op.apply, Scene.clearCookie_shopPage rfl hvalue] at hkept
  exact absurd hkept List.not_mem_nil

/-- **Clearing a cookie spares the cookies of other names** than the one that its directives begin with, whatever the
target, and changes nothing else of a page. That is the name in the target if that is trimmed and has no equals sign.
A target without semicolons spares the cookies of all other names just if it names itself or nothing. -/
theorem clearCookie_spares_others (target : String) :
    (∀ (s : Scene) (now : Instant),
      let after := ((Op.clearCookie target).apply now s).2.page
      let isOther := fun c : Cookie => some c.name != CookieDirective.nameIn? (target ++ "=")
      after = { s.page with jar := { s.page.jar with cookies := after.jar.cookies } } ∧
        after.jar.cookies.filter isOther = s.page.jar.cookies.filter isOther) ∧
    (trim target = target → '=' ∉ target.toList → (Op.clearCookie target).SparesOthers target) ∧
    (';' ∉ target.toList →
      ((Op.clearCookie target).SparesOthers target ↔ ∀ name ∈ nameInPair? target.toList, name = target)) := by
  refine ⟨fun s now => ?_, fun htrim he => ?_, fun hs => ?_⟩
  · intro after isOther
    have hafter : ((Op.clearCookie target).apply now s).2.page = after := rfl
    exact Op.page_clearCookie_others hafter
  · exact Op.sparesOthers_of_nameIn? (CookieDirective.nameIn?_of_trimmed htrim he)
  · rw [← CookieDirective.nameIn?_target hs]
    exact ⟨Op.nameIn?_of_sparesOthers hs, Op.sparesOthers_of_nameIn?⟩

/-- A name as it is written, and with a blank in front. -/
theorem clearCookie_spares_others_sid :
    (Op.clearCookie "sid").SparesOthers "sid" ∧ ¬(Op.clearCookie " sid").SparesOthers " sid" := by
  refine ⟨(clearCookie_spares_others "sid").2.1 (by decide) (by decide), fun h => ?_⟩
  have hnamed := ((clearCookie_spares_others " sid").2.2 (by decide)).1 h "sid" (by decide)
  exact absurd hnamed (by decide)

/-- **A target with an equals sign** in it clears the cookie of another name. -/
theorem clearCookie_clears_another :
    Op.ofFields [("action", .str "clearCookie"), ("target", .str "sid=x")] = .clearCookie "sid=x" ∧
      ¬(Op.clearCookie "sid=x").SparesOthers "sid=x" := by
  refine ⟨by decide, fun h => ?_⟩
  have hread : CookieDirective.ofText? ("sid=x" ++ "=").toList = some ⟨"sid", "x=", []⟩ := by decide
  have hkept := h ⟨shopPage "sid", .empty, .zero, [], []⟩ (reachable_shopPage "sid") .epoch
    ⟨"sid", "1", none, rootPath⟩ List.mem_cons_self (by decide)
  rw [Op.apply, Scene.clearCookie_shopPage rfl hread] at hkept
  exact absurd hkept List.not_mem_nil

end PageSweep
