import PageSweep.Proofs.Page.Reachable
import PageSweep.Proofs.Pass.Agreement
import PageSweep.Proofs.Pass.Deletion
import PageSweep.Proofs.Pass.Ends

/-!
# The trail of a pass

What the operations of a pass can do to a page, and what a whole pass does to it: one such thing after the
other. What none of them can break, no pass can.

* `Op.apply_touched`: all that an operation can do to a page.
* `Sweeper.run_trail`: the trail of a pass.
* `Numbered.touched`, `Reachable.trail`: what is kept along the way.
-/

namespace PageSweep

/-- **All that an operation other than a reload can do to a page.** -/
inductive Page.Touched (now : Instant) (p : Page) : Page → Prop where
  | idle : Touched now p p
  | clicked {ref : Nat} (h : p.isConnected ref = true) : Touched now p (p.clicked ref)
  | removed (refs : List Nat) : Touched now p (refs.foldl Page.remove p)
  | styled (refs : List Nat) (ds : List Declaration) :
      Touched now p (refs.foldl (fun p ref => ds.foldl (fun p d => p.setStyle ref d.1 d.2) p) p)
  | declassed (refs : List Nat) (className : String) :
      Touched now p (refs.foldl (fun p ref => p.removeClass ref className) p)
  | cleared {directives : List String} (h : ∀ d ∈ directives, IsDeletion p.hostname d) :
      Touched now p (Scene.setCookies p now directives)
  | opened {s : StyleSheet} (h : p.openSheet? styleSheetId = some s) :
      Touched now p (p.putSheet styleSheetId s)
  | ruled {s s' : StyleSheet} {text : String} (h : p.openSheet? styleSheetId = some s)
      (h' : s.appendRule text = .ok s') : Touched now p (p.putSheet styleSheetId s')
  | unruled {s s' : StyleSheet} {index : Nat} (h : p.openSheet? styleSheetId = some s)
      (h' : s.deleteRule index = .ok s') : Touched now p (p.putSheet styleSheetId s')

namespace Scene

variable {now : Instant} {s : Scene}

theorem page_onMatches {selector : String} {change : List Nat → Scene → Scene}
    (h : ∀ refs, s.page.Touched now (change refs s).page) :
    s.page.Touched now (s.onMatches selector change).2.page := by
  rcases s.onMatches_ends selector change with ⟨e, hend⟩ | ⟨refs, -, hend⟩
  · rw [hend]
    exact .idle
  · rw [hend]
    exact h refs

theorem page_click (selector : String) : s.page.Touched now (s.click selector).2.page := by
  rcases s.click_ends selector with ⟨e, hend⟩ | hend | ⟨ref, hconnected, hend⟩
  · rw [hend]
    exact .idle
  · rw [hend]
    exact .idle
  · rw [hend]
    exact .clicked hconnected

/-- The directives are carried out whatever is made of them afterwards. -/
theorem page_clearCookie_eq (name : String) :
    (s.clearCookie now name).2.page = setCookies s.page now (deletions s.page.hostname name) := by
  obtain ⟨p, hp, hend | hend | hend⟩ := s.clearCookie_ends now name
  · rw [hend]
    exact hp
  · rw [hend]
    exact hp
  · rw [hend]
    exact hp

theorem page_clearCookie (name : String) : s.page.Touched now (s.clearCookie now name).2.page := by
  have hdel : ∀ d ∈ deletions s.page.hostname name, IsDeletion s.page.hostname d :=
    fun d hd => ⟨name, .inl hd⟩
  rw [page_clearCookie_eq]
  exact .cleared hdel

theorem page_clearAllCookies_eq : (s.clearAllCookies now).2.page =
    setCookies s.page now ((headerNames s.page.cookieHeader).map deletion) := by
  simp only [clearAllCookies, send, countCookies, withPage]

theorem page_clearAllCookies : s.page.Touched now (s.clearAllCookies now).2.page := by
  have hdel : ∀ d ∈ (headerNames s.page.cookieHeader).map deletion, IsDeletion s.page.hostname d := by
    intro d hd
    obtain ⟨name, -, rfl⟩ := List.mem_map.1 hd
    exact ⟨name, .inr rfl⟩
  rw [page_clearAllCookies_eq]
  exact .cleared hdel

theorem page_addGlobalStyle (selector : String) (ds : List Declaration) :
    s.page.Touched now (s.addGlobalStyle selector ds).2.page := by
  rcases s.addGlobalStyle_ends selector ds with ⟨-, hend⟩ | ⟨sheet, hs, ⟨e, -, hend⟩ | ⟨sheet', hs', hend⟩⟩
  · rw [hend]
    exact .idle
  · rw [hend]
    exact .opened hs
  · rw [hend]
    exact .ruled hs hs'

theorem page_removeGlobalStyle (selector : String) :
    s.page.Touched now (s.removeGlobalStyle selector).2.page := by
  rcases s.removeGlobalStyle_ends selector with
    ⟨-, hend⟩ | ⟨sheet, hs, ⟨-, hend⟩ | ⟨index, sheet', -, hs', hend⟩⟩
  · rw [hend]
    exact .idle
  · rw [hend]
    exact .opened hs
  · rw [hend]
    exact .unruled hs hs'

end Scene

/-- **What an operation does to a page is one of these.** -/
theorem Op.apply_touched {op : Op} (hop : op ≠ .reload) (now : Instant) (s : Scene) :
    s.page.Touched now (op.apply now s).2.page := by
  cases op with
  | log text => exact .idle
  | click target => exact Scene.page_click target
  | remove target => exact Scene.page_onMatches fun refs => .removed refs
  | hide target => exact Scene.page_onMatches fun refs => .styled refs _
  | style target ds => exact Scene.page_onMatches fun refs => .styled refs ds
  | removeClass target className => exact Scene.page_onMatches fun refs => .declassed refs className
  | clearCookie name =>
    rw [Op.apply]
    exact Scene.page_clearCookie name
  | clearAllCookies =>
    rw [Op.apply]
    exact Scene.page_clearAllCookies
  | addGlobalStyle selector ds => exact Scene.page_addGlobalStyle selector ds
  | removeGlobalStyle selector => exact Scene.page_removeGlobalStyle selector
  | reload => exact absurd rfl hop
  | invalid reason => exact .idle

/-- **What a pass that began at a moment does to a page**, operation by operation. -/
inductive Page.Trail (began : Instant) : List Op → Page → Page → Prop where
  | nil {p : Page} : Trail began [] p p
  | reload {p q : Page} {ops : List Op} (h : Trail began ops p.reload q) :
      Trail began (.reload :: ops) p q
  | touch {p q r : Page} {op : Op} {ops : List Op} (hop : op ≠ .reload) {ms : Nat}
      (h : p.Touched (began.later ms) q) (ht : Trail began ops q r) : Trail began (op :: ops) p r

namespace Page

variable {began : Instant} {p q r : Page} {ops ops' : List Op}

theorem Trail.append (h : Trail began ops p q) (h' : Trail began ops' q r) :
    Trail began (ops ++ ops') p r := by
  induction h with
  | nil => exact h'
  | reload _ ih => exact .reload (ih h')
  | touch hop ht _ ih => exact .touch hop ht (ih h')

theorem trail_composes (began : Instant) :
    Chain.Composes began fun ops s t => Trail began ops s.page t.page where
  refl _ := .nil
  trans h h' := h.append h'
  apply op ms s := by
    by_cases hop : op = .reload
    · subst hop
      exact .reload .nil
    · exact .touch hop (op.apply_touched hop _ s) .nil
  report _ h := h

end Page

/-- A reload that is carried out at most at the end is carried out at most once. -/
theorem Chain.count_reload {ds : List Deed} (h : ∀ d ∈ ds.dropLast, d.op ≠ .reload) {halted : Bool}
    (hh : halted = true ↔ Chain.Reloads ds) :
    (ds.map Deed.op).count .reload = if halted then 1 else 0 := by
  rcases List.eq_nil_or_concat ds with rfl | ⟨ds, d, rfl⟩
  · have hf : ¬ halted = true := fun ht => by
      obtain ⟨d, hd, -⟩ := hh.1 ht
      exact absurd hd List.not_mem_nil
    rw [if_neg hf]
    rfl
  · rw [List.concat_eq_append] at *
    rw [List.dropLast_concat] at h
    have hzero : (ds.map Deed.op).count .reload = 0 := by
      refine List.count_eq_zero.2 fun hm => ?_
      obtain ⟨d, hd, hop⟩ := List.mem_map.1 hm
      exact h d hd hop
    rw [List.map_append, List.count_append, hzero, Nat.zero_add]
    by_cases hop : d.op = .reload
    · rw [if_pos (hh.2 ⟨d, List.mem_append_right _ List.mem_cons_self, hop⟩)]
      simp [hop]
    · have hf : ¬ halted = true := fun ht => by
        obtain ⟨d', hd', hop'⟩ := hh.1 ht
        rcases List.mem_append.1 hd' with hd' | hd'
        · exact h d' hd' hop'
        · exact hop (List.mem_singleton.1 hd' ▸ hop')
      rw [if_neg hf]
      simp [hop]

/-- **The trail of a pass**: as many operations as the pass counts, and a reload among them if it halted. -/
theorem Sweeper.run_trail (i : Sweeper) (began : Instant) (schema : Json) (page : Page) :
    ∃ ops, Page.Trail began ops page (i.run began schema page).scene.page ∧
      ops.length = (i.run began schema page).executed ∧
      ops.count .reload = if (i.run began schema page).halted then 1 else 0 := by
  obtain ⟨dss, r, log, hg, hexecuted, hhalted, hrun⟩ := i.run_ends began schema page
  rw [hrun]
  refine ⟨dss.flatten.map Deed.op, (Page.trail_composes began).along hg, ?_, Chain.count_reload hg.reload_last hhalted⟩
  rw [List.length_map, hexecuted]

/-! ### What is kept along the way -/

namespace Page

variable {began now : Instant} {A : Element → Prop} {p q : Page} {ops : List Op}

theorem Numbered.setStyles (h : p.Numbered) (ref : Nat) (ds : List Declaration) :
    (ds.foldl (fun p d => p.setStyle ref d.1 d.2) p).Numbered :=
  List.foldlRecOn ds _ h fun _ hp d _ => hp.update ref (·.setStyle d.1 d.2)

theorem Numbered.touched (h : p.Numbered) (ht : p.Touched now q) : q.Numbered := by
  cases ht with
  | idle => exact h
  | clicked _ => exact h.clicked _
  | removed refs => exact List.foldlRecOn refs _ h fun _ hp ref _ => hp.remove ref
  | styled refs ds => exact List.foldlRecOn refs _ h fun _ hp ref _ => hp.setStyles ref ds
  | declassed refs className =>
    exact List.foldlRecOn refs _ h fun _ hp ref _ => hp.update ref (·.removeClass className)
  | cleared _ => exact List.foldlRecOn _ _ h fun _ hp _ _ => ⟨hp.nodup, hp.lt⟩
  | opened _ => exact ⟨h.nodup, h.lt⟩
  | ruled _ _ => exact ⟨h.nodup, h.lt⟩
  | unruled _ _ => exact ⟨h.nodup, h.lt⟩

theorem Numbered.apply {s : Scene} (h : s.page.Numbered) (op : Op) (now : Instant) :
    (op.apply now s).2.page.Numbered := by
  by_cases hop : op = .reload
  · subst hop
    exact ⟨h.nodup, h.lt⟩
  · exact h.touched (op.apply_touched hop now s)

theorem Numbered.trail (h : p.Numbered) (ht : Trail began ops p q) : q.Numbered := by
  induction ht with
  | nil => exact h
  | reload _ ih => exact ih ⟨h.nodup, h.lt⟩
  | touch _ ht _ ih => exact ih (h.touched ht)

theorem foldl_keeps {α β : Type} {view : Page → β} {step : Page → α → Page}
    (h : ∀ p a, view (step p a) = view p) (as : List α) (p : Page) : view (as.foldl step p) = view p := by
  induction as generalizing p with
  | nil => rfl
  | cons a as ih => exact (ih _).trans (h p a)

/-- What does not depend on elements, cookies, stylesheets and the mark of the page is kept by every operation
but a reload. -/
theorem touched_keeps {β : Type} {view : Page → β}
    (hbody : ∀ p body loose, view { p with body := body, loose := loose } = view p)
    (hjar : ∀ p jar, view { p with jar := jar } = view p)
    (hsheets : ∀ p sheets, view { p with sheets := sheets } = view p)
    (hoverran : ∀ p overran, view { p with overran := overran } = view p) (ht : p.Touched now q) :
    view q = view p := by
  cases ht with
  | idle => rfl
  | clicked _ => exact (hoverran _ _).trans (hbody p _ _)
  | removed refs => exact foldl_keeps (fun p ref => hbody p _ _) refs p
  | styled refs ds => exact foldl_keeps (fun p ref => foldl_keeps (fun p d => hbody p _ _) ds p) refs p
  | declassed refs className => exact foldl_keeps (fun p ref => hbody p _ _) refs p
  | cleared _ => exact foldl_keeps (fun p d => hjar p _) _ p
  | opened _ => exact hsheets p _
  | ruled _ _ => exact hsheets p _
  | unruled _ _ => exact hsheets p _

/-- A page stays a page of its host. -/
theorem hostname_touched (ht : p.Touched now q) : q.hostname = p.hostname :=
  touched_keeps (fun _ _ _ => rfl) (fun _ _ => rfl) (fun _ _ => rfl) (fun _ _ => rfl) ht

theorem reloads_touched (ht : p.Touched now q) : q.reloads = p.reloads :=
  touched_keeps (fun _ _ _ => rfl) (fun _ _ => rfl) (fun _ _ => rfl) (fun _ _ => rfl) ht

theorem Trail.hostname (ht : Trail began ops p q) : q.hostname = p.hostname := by
  induction ht with
  | nil => rfl
  | reload _ ih => exact ih
  | touch _ ht _ ih => exact ih.trans (hostname_touched ht)

/-- **Reloads are counted.** -/
theorem Trail.reloads (ht : Trail began ops p q) :
    q.reloads = p.reloads + UInt32.ofNat (ops.count .reload) := by
  induction ht with
  | nil => simp
  | reload _ ih =>
    rw [ih, List.count_cons_self, UInt32.ofNat_add, UInt32.add_comm (UInt32.ofNat _), ← UInt32.add_assoc]
    rfl
  | touch hop ht _ ih => rw [ih, reloads_touched ht, List.count_cons_of_ne hop]

theorem Reachable.touched (h : p.Reachable A) (ht : p.Touched now q) : q.Reachable A := by
  cases ht with
  | idle => exact h
  | @clicked ref hc =>
    have hq : p.click ref = .ok (p.clicked ref) := by rw [Page.click, if_pos hc]
    exact h.click hq
  | removed refs => exact List.foldlRecOn refs _ h fun _ hp ref _ => hp.remove ref
  | styled refs ds =>
    exact List.foldlRecOn refs _ h fun _ hp ref _ =>
      List.foldlRecOn ds _ hp fun _ hp d _ => hp.setStyle ref d.1 d.2
  | declassed refs className =>
    exact List.foldlRecOn refs _ h fun _ hp ref _ => hp.removeClass ref className
  | cleared _ => exact List.foldlRecOn _ _ h fun _ hp d _ => hp.setCookie d now
  | opened hs => exact h.openSheet hs
  | ruled hs hs' => exact h.insertRule hs hs'
  | unruled hs hs' => exact h.deleteRule hs hs'

/-- **The pages that passes leave can be reached.** -/
theorem Reachable.trail (h : p.Reachable A) (ht : Trail began ops p q) : q.Reachable A := by
  induction ht with
  | nil => exact h
  | reload _ ih => exact ih h.reload
  | touch _ ht _ ih => exact ih (h.touched ht)

end Page

end PageSweep
