import PageSweep.Proofs.Cookie.Scripted
import PageSweep.Proofs.Pass.Account
import PageSweep.Proofs.Pass.Clearing

/-!
# Clearing all cookies

A clearing of all cookies takes the names that scripts see, one for each cookie, and writes a directive for each name.
The directives reach the cookies of their host alone at the root path, of which there is one of a name at most. So what
is counted are the cookies that the page was shown, and what goes are those of them that lie there.

* `CookieDirective.ofDirective?_deletion`: the write of such a directive.
* `Scene.setCookies_deletions`: what the directives leave of a page.
* `Scene.apply_clearAllCookies_eq`: the whole outcome.
* `Sweeper.told_eq`: what a pass tells of its clearings.
* `clearAllCookies_reach`: what goes, what is counted and what is told.
-/

namespace PageSweep

open Text CookieAttribute

/-- Whether a cookie is for its host alone, at the root path. -/
def Cookie.isHostRoot (c : Cookie) : Bool := c.domain == none && c.path == rootPath

/-- Such a cookie is for every page. -/
theorem Cookie.isFor_of_isHostRoot {c : Cookie} (hc : c.isHostRoot = true) {page : String}
    (hpage : startsWith "/" page = true) : c.IsFor page := by
  have hpath : c.path = rootPath := by
    unfold isHostRoot at hc
    rw [Bool.and_eq_true, beq_iff_eq] at hc
    simpa using hc.2
  obtain ⟨rest, hrest⟩ := Option.isSome_iff_exists.1 hpage
  have hsplit : page = "/" ++ String.ofList rest := after?_toList_iff.1 hrest
  exact .inr (.inr ⟨"", String.ofList rest, hpath, hpath ▸ hsplit⟩)

/-! ### The directives -/

/-- **The write of a directive that deletes**, for a name that it reads as it is. -/
theorem CookieDirective.ofDirective?_deletion {name value : String} {now : Instant}
    (hname : ofText? (name ++ "=").toList = some ⟨name, value, []⟩) (hnow : 0 ≤ now.seconds) (host : String) :
    CookieWrite.ofDirective? host (Scene.deletion name) now = some ⟨⟨name, value, none, rootPath⟩, true⟩ := by
  have hattributes : ofText? (Scene.deletion name).toList =
      some ⟨name, value, [.date .epoch, .path rootPath, .nothing]⟩ := by
    rw [ofText?_form (.date_closed name), ← show (name ++ "=").toList = name.toList ++ ['='] from String.toList_append,
      hname, ofPiece_longAgo]
    rfl
  have hover : isOver? now (.date .epoch) = some true := congrArg some (CookieWrite.epoch_notAfter hnow)
  rw [ofDirective?_eq, hattributes, Option.bind_some]
  simp only [isTakenAt, cookie, isOver, last?, List.filterMap_cons_some hover]
  rfl

namespace Scene

variable {s : Scene} {now : Instant} (hpath : startsWith "/" s.page.jar.pagePath = true)
  (hreadable : ∀ c ∈ s.page.jar.cookies, c.IsReadable) (hnow : 0 ≤ now.seconds)

include hreadable in
theorem headerNames_cookieHeader : headerNames s.page.cookieHeader = s.page.jar.visible.map (·.name) :=
  headerNames_header fun c hc => hreadable c (List.mem_of_mem_filter hc)

include hpath hreadable hnow

/-- **What the directives leave of a page**: all cookies but those of the host alone at the root path. -/
theorem setCookies_deletions : setCookies s.page now ((headerNames s.page.cookieHeader).map deletion) =
    { s.page with jar := { s.page.jar with cookies := s.page.jar.cookies.filter fun c => !c.isHostRoot } } := by
  have hnames := headerNames_cookieHeader hreadable
  generalize headerNames s.page.cookieHeader = names at hnames ⊢
  have hread : ∀ name ∈ names, ∃ value, CookieDirective.ofText? (name ++ "=").toList = some ⟨name, value, []⟩ := by
    intro name hname
    rw [hnames] at hname
    obtain ⟨c, hc, rfl⟩ := List.mem_map.1 hname
    exact CookieDirective.ofText?_of_isCookieName (hreadable c (List.mem_of_mem_filter hc)).name
  choose! value hvalue using hread
  let key : String → Cookie := fun name => ⟨name, value name, none, rootPath⟩
  have hwrites : List.Forall₂ (fun c text => CookieWrite.ofDirective? s.page.jar.host text now = some ⟨c, true⟩)
      (names.map key) (names.map deletion) := by
    rw [List.forall₂_map_left_iff, List.forall₂_map_right_iff, List.forall₂_same]
    exact fun name hname => CookieDirective.ofDirective?_deletion (hvalue name hname) hnow _
  -- A cookie of the host alone at the root path is shown to the page, so its name is among those that are read.
  have hgone : ∀ c ∈ s.page.jar.cookies, (names.map key).any (c.sameKey ·) = c.isHostRoot := by
    intro c hc
    rw [Bool.eq_iff_iff, List.any_map, List.any_eq_true]
    simp only [Function.comp_apply, key, Cookie.sameKey, Cookie.isHostRoot, Bool.and_eq_true, beq_iff_eq]
    constructor
    · rintro ⟨name, -, ⟨-, hdomain⟩, hroot⟩
      exact ⟨hdomain, hroot⟩
    · rintro ⟨hdomain, hroot⟩
      have hhostRoot : c.isHostRoot = true := by simp [Cookie.isHostRoot, hdomain, hroot]
      have hfor : c.IsFor s.page.jar.pagePath := Cookie.isFor_of_isHostRoot hhostRoot hpath
      have hseen : c ∈ s.page.jar.visible := by
        rw [CookieJar.visible_eq]
        exact List.mem_filter.2 ⟨hc, decide_eq_true hfor⟩
      exact ⟨c.name, hnames ▸ List.mem_map_of_mem hseen, ⟨rfl, hdomain⟩, hroot⟩
  rw [setCookies_eq, CookieJar.foldl_write hwrites rfl,
    List.filter_congr fun c hc => congrArg (!·) (hgone c hc)]

/-- **The whole outcome of a clearing**: it ends well, and nothing else of a scene changes. -/
theorem apply_clearAllCookies_eq : Op.clearAllCookies.apply now s =
    (.ok true, { s with
      page := { s.page with jar := { s.page.jar with cookies := s.page.jar.cookies.filter fun c => !c.isHostRoot } }
      counters := { s.counters with
        cookies := s.counters.cookies + s.page.jar.cookies.countP (·.IsFor s.page.jar.pagePath) }
      sent := s.sent ++ [.clearAllCookies] }) := by
  have hpage := setCookies_deletions hpath hreadable hnow
  have hcount : (headerNames s.page.cookieHeader).length =
      s.page.jar.cookies.countP (·.IsFor s.page.jar.pagePath) := by
    rw [headerNames_cookieHeader hreadable, List.length_map, CookieJar.visible_eq, List.countP_eq_length_filter]
  show s.clearAllCookies now = _
  unfold clearAllCookies
  simp only [hpage, hcount]
  rfl

end Scene

/-! ### What a pass tells of it -/

theorem Op.told_eq (op : Op) : op.told = if op = .clearAllCookies then [.clearAllCookies] else [] := by
  cases op <;> rfl

/-- **What a pass tells**: of each clearing of all cookies once, and then its total, if it is not nothing. -/
theorem Sweeper.told_eq (ds : List Deed) (t : Summary) : told ds t =
    List.replicate (ds.countP fun d => d.op = .clearAllCookies) .clearAllCookies ++
      if t.total = 0 then [] else [.updateCounter t.total] := by
  unfold told
  congr 1
  induction ds with
  | nil => rfl
  | cons d ds ih =>
    rw [List.flatMap_cons, ih, Deed.told, Op.told_eq]
    by_cases hd : d.op = .clearAllCookies
    · simp [hd, List.replicate_succ]
    · simp [hd]

/-- **The reach of a clearing of all cookies.** From 1970 on, on a page whose cookies can be read back, it always ends
well, takes away the cookies of the host alone at the root path and no others, adds to the count one for each cookie
that the page was shown, whether it went or not, and sends its message once; all else stays as it is. Once more it
takes nothing away. A pass on the page sends that message as often as it carries out such a clearing, and after them
what it counted. -/
theorem clearAllCookies_reach {A : Element → Prop} {s : Scene} (hpage : s.page.Reachable A)
    (hreadable : ∀ c ∈ s.page.jar.cookies, c.IsReadable) {now : Instant} (hnow : 0 ≤ now.seconds) :
    let jar := s.page.jar
    let after := { s with
      page := { s.page with jar := { jar with cookies := jar.cookies.filter fun c => !c.isHostRoot } }
      counters := { s.counters with cookies := s.counters.cookies + jar.cookies.countP (·.IsFor jar.pagePath) }
      sent := s.sent ++ [.clearAllCookies] }
    Op.clearAllCookies.apply now s = (.ok true, after) ∧
      (∀ later : Instant, 0 ≤ later.seconds → (Op.clearAllCookies.apply later after).2.page = after.page) ∧
      ∀ (i : Sweeper) (began : Instant) (schema : Json),
        let r := i.run began schema s.page
        ∃ ds, i.CarriesOut began schema s.page ds ∧ r.scene.sent =
          List.replicate (ds.countP fun d => d.op = .clearAllCookies) .clearAllCookies ++
            if r.summary.total = 0 then [] else [.updateCounter r.summary.total] := by
  intro jar after
  refine ⟨Scene.apply_clearAllCookies_eq hpage.absolute hreadable hnow, fun later hlater => ?_,
    fun i began schema => ?_⟩
  · have hleft : ∀ c ∈ after.page.jar.cookies, c.IsReadable := fun c hc => hreadable c (List.mem_of_mem_filter hc)
    have hagain := Scene.apply_clearAllCookies_eq (s := after) hpage.absolute hleft hlater
    rw [hagain]
    simp only [after, List.filter_filter, Bool.and_self]
  · intro r
    obtain ⟨ds, hcarried, -, hsent, -⟩ := i.run_accounts began schema hpage.numbered
    exact ⟨ds, hcarried, hsent.trans (Sweeper.told_eq ds _)⟩

/-- A shop's cart, where three cookies are shown: one goes, and two of its name and for the cart stay, as does one that
lies deeper. -/
theorem clearAllCookies_reach_cart :
    let cookies : List Cookie := [⟨"sid", "1", none, "/"⟩, ⟨"sid", "2", some "shop.example", "/"⟩,
      ⟨"lang", "en", none, "/cart"⟩, ⟨"deep", "3", none, "/cart/12"⟩]
    let s : Scene := ⟨(Page.ofSnapshot ⟨"shop.example", "/cart", true, cookies, .empty, .nil⟩).1, .empty, .zero, [], []⟩
    let r := Op.clearAllCookies.apply .epoch s
    s.page.jar.cookies = cookies ∧ (∀ c ∈ s.page.jar.cookies, c.IsReadable) ∧ 0 ≤ Instant.epoch.seconds ∧
      r.1 = .ok true ∧ r.2.page.jar.cookies = cookies.tail ∧ r.2.counters = ⟨0, 3⟩ ∧ r.2.sent = [.clearAllCookies] ∧
      (Op.clearAllCookies.apply .epoch r.2).2.page = r.2.page := by
  intro cookies s r
  have hcookies : s.page.jar.cookies = cookies := by decide +kernel
  have hpath : s.page.jar.pagePath = "/cart" := by decide
  have hreadable : ∀ c ∈ s.page.jar.cookies, c.IsReadable := by
    rw [hcookies]
    decide
  have hpage : s.page.Reachable fun _ => True := .ofSnapshot _
  have hnow : 0 ≤ Instant.epoch.seconds := Int.le_refl 0
  obtain ⟨hends, hagain, -⟩ := clearAllCookies_reach hpage hreadable hnow
  have hr : r = _ := hends
  have hcounters : s.counters = ⟨0, 0⟩ := rfl
  have hsent : s.sent = [] := rfl
  clear_value s r
  rw [hr]
  refine ⟨hcookies, hreadable, hnow, rfl, ?_, ?_, ?_, hagain .epoch hnow⟩
  · simp only [hcookies]
    decide
  · simp only [hcookies, hpath, hcounters]
    decide
  · simp only [hsent, List.nil_append]

end PageSweep
